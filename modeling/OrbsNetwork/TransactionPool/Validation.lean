import OrbsNetwork.TransactionPool.Types

namespace OrbsNetwork.TransactionPool

/-- `ProtocolVersion`, the version the pool accepts. -/
def protocolVersion : Nat := 1

/-- `keys.ED25519_PUBLIC_KEY_SIZE_BYTES`. -/
def ed25519PublicKeySizeBytes : Nat := 32

/-- `validationContext`; its durations as the `primitives.TimestampNano` they are converted to. -/
structure ValidationContext where
  nodeSyncRejectInterval : UInt64
  expiryWindow : UInt64
  futureTimestampGrace : UInt64
  virtualChainId : Nat
  deriving DecidableEq, Repr

/-- `createValidationContext`. -/
def createValidationContext (config : TransactionPoolConfig) : ValidationContext :=
  ⟨config.transactionPoolNodeSyncRejectTime, config.transactionExpirationWindow,
    config.transactionPoolFutureTimestampGraceTimeout, config.virtualChainId⟩

/-- A `logfields.TimestampNano` field. -/
def timestampField (key : String) (value : UInt64) : LogField :=
  ⟨key, .uint value.toNat⟩

namespace ValidationContext

variable (c : ValidationContext)

def validateProtocolVersion (transaction : SignedTransaction) : Option ErrTransactionRejected :=
  if transaction.transaction.protocolVersion ≠ protocolVersion then
    some ⟨.rejectedUnsupportedVersion, some ⟨"protocol-version", .uint protocolVersion⟩,
      some ⟨"protocol-version", .uint transaction.transaction.protocolVersion⟩⟩
  else none

def validateTransactionVirtualChainId (transaction : SignedTransaction) : Option ErrTransactionRejected :=
  if transaction.transaction.virtualChainId ≠ c.virtualChainId then
    some ⟨.rejectedVirtualChainMismatch, some ⟨"vcid", .uint c.virtualChainId⟩,
      some ⟨"vcid", .uint transaction.transaction.virtualChainId⟩⟩
  else none

def validateSignatureType (transaction : SignedTransaction) : Option ErrTransactionRejected :=
  let tx := transaction.transaction
  if !tx.signer.isSchemeEddsa then
    some ⟨.rejectedUnknownSignerScheme, some ⟨"signer-scheme", .string "Eddsa"⟩, some ⟨"signer", .signer tx.signer⟩⟩
  else if tx.signer.signerPublicKey.length ≠ ed25519PublicKeySizeBytes then
    some ⟨.rejectedSignatureMismatch, some ⟨"signature-length", .uint ed25519PublicKeySizeBytes⟩,
      some ⟨"signature-length", .uint tx.signer.signerPublicKey.length⟩⟩
  else none

/-- `validateNodeIsInSync`, with the clock as nanoseconds. -/
def validateNodeIsInSync (currentTime lastCommittedBlockTimestamp : UInt64) : Option ErrTransactionRejected :=
  let threshold := currentTime - c.nodeSyncRejectInterval
  if lastCommittedBlockTimestamp < threshold then
    some ⟨.rejectedNodeOutOfSync, some (timestampField "min-timestamp" threshold),
      some (timestampField "last-committed-block-timestamp" lastCommittedBlockTimestamp)⟩
  else none

/-- `validateTransactionNotExpired`: the threshold wraps below zero as the `uint64` does. -/
def validateTransactionNotExpired (transaction : SignedTransaction) (proposedBlockTimestamp : UInt64) :
    Option ErrTransactionRejected :=
  let threshold := proposedBlockTimestamp - c.expiryWindow
  if transaction.transaction.timestamp < threshold then
    some ⟨.rejectedTimestampWindowExceeded, some (timestampField "min-timestamp" threshold),
      some (timestampField "tx-timestamp" transaction.transaction.timestamp)⟩
  else none

/-- `validateTransactionNotInFuture`: the bound wraps above `2 ^ 64` as the `uint64` does. -/
def validateTransactionNotInFuture (transaction : SignedTransaction) (proposedBlockTimestamp : UInt64) :
    Option ErrTransactionRejected :=
  let tsWithGrace := proposedBlockTimestamp + c.futureTimestampGrace
  if transaction.transaction.timestamp > tsWithGrace then
    some ⟨.rejectedTimestampAheadOfNodeTime, some (timestampField "max-timestamp" tsWithGrace),
      some (timestampField "tx-timestamp" transaction.transaction.timestamp)⟩
  else none

/-- `ValidateAddedTransaction`: the first check that fails, in the source's order. -/
def validateAddedTransaction (transaction : SignedTransaction) (currentTime lastCommittedBlockTimestamp : UInt64) :
    Option ErrTransactionRejected :=
  validateProtocolVersion transaction <|> validateSignatureType transaction <|>
    c.validateTransactionVirtualChainId transaction <|> c.validateNodeIsInSync currentTime lastCommittedBlockTimestamp <|>
    c.validateTransactionNotExpired transaction currentTime <|> c.validateTransactionNotInFuture transaction currentTime

/-- `ValidateTransactionForOrdering`: the first check that fails, in the source's order. -/
def validateTransactionForOrdering (transaction : SignedTransaction) (proposedBlockTimestamp : UInt64) :
    Option ErrTransactionRejected :=
  validateProtocolVersion transaction <|> validateSignatureType transaction <|>
    c.validateTransactionVirtualChainId transaction <|>
    c.validateTransactionNotExpired transaction proposedBlockTimestamp <|>
    c.validateTransactionNotInFuture transaction proposedBlockTimestamp

end ValidationContext

end OrbsNetwork.TransactionPool
