import OrbsNetwork.Merkle.Node

namespace OrbsNetwork.TransactionPool

/-- `protocol.TransactionStatus`, the values the transaction pool sets or compares with. -/
inductive TransactionStatus
  | committed
  | pending
  | preOrderValid
  | duplicateTransactionAlreadyCommitted
  | duplicateTransactionAlreadyPending
  | rejectedUnsupportedVersion
  | rejectedUnknownSignerScheme
  | rejectedSignatureMismatch
  | rejectedVirtualChainMismatch
  | rejectedNodeOutOfSync
  | rejectedTimestampWindowExceeded
  | rejectedTimestampAheadOfNodeTime
  | rejectedCongestion
  | rejectedSmartContractPreOrder
  deriving DecidableEq, Repr

/-- `protocol.Signer`: whether its scheme union holds an Eddsa signer, that signer's public key,
and the raw message. -/
structure Signer where
  isSchemeEddsa : Bool
  signerPublicKey : Bytes
  raw : Bytes
  deriving DecidableEq, Repr

/-- `protocol.Transaction`, the fields the pool and the block validation read. -/
structure Transaction where
  protocolVersion : Nat
  virtualChainId : Nat
  timestamp : UInt64
  signer : Signer
  contractName : String
  methodName : String
  inputArgumentArray : Bytes
  deriving DecidableEq, Repr

/-- `protocol.SignedTransaction`; `raw` is the whole message, whose length the pending pool
counts. -/
structure SignedTransaction where
  transaction : Transaction
  signature : Bytes
  raw : Bytes
  deriving DecidableEq, Repr

/-- `protocol.TransactionReceipt`, by the hash of its transaction. -/
structure TransactionReceipt where
  txhash : Bytes
  deriving DecidableEq, Repr

/-- The value of a `log.Field` a rejection carries. -/
inductive FieldValue
  | uint (n : Nat)
  | string (s : String)
  | signer (s : Signer)
  deriving DecidableEq, Repr

/-- `log.Field`. -/
structure LogField where
  key : String
  value : FieldValue
  deriving DecidableEq, Repr

/-- `ErrTransactionRejected`: the status, and what was expected and found where a check
compares two values. -/
structure ErrTransactionRejected where
  transactionStatus : TransactionStatus
  expected : Option LogField
  actual : Option LogField
  deriving DecidableEq, Repr

/-- A rejection that carries only its status. -/
def ErrTransactionRejected.ofStatus (status : TransactionStatus) : ErrTransactionRejected :=
  ⟨status, none, none⟩

/-- The settings of `config.TransactionPoolConfig` the modelled code reads. A `time.Duration` is
its nanosecond count converted to `primitives.TimestampNano`, as the code converts it before use. -/
structure TransactionPoolConfig where
  virtualChainId : Nat
  nodeAddress : Bytes
  transactionPoolPendingPoolSizeInBytes : UInt32
  transactionExpirationWindow : UInt64
  transactionPoolFutureTimestampGraceTimeout : UInt64
  transactionPoolNodeSyncRejectTime : UInt64
  blockTrackerGraceDistance : UInt32
  deriving DecidableEq, Repr

end OrbsNetwork.TransactionPool
