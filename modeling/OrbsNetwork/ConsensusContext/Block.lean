import OrbsNetwork.TransactionPool.Service
import OrbsNetwork.Merkle.OrderedTree

namespace OrbsNetwork.ConsensusContext

open TransactionPool

/-- The part of `config.ConsensusContextConfig` the transactions block reads; the jitter is the
`time.Duration` as the nanoseconds it is converted to. -/
structure ConsensusContextConfig where
  protocolVersion : Nat
  virtualChainId : Nat
  consensusContextMaximumTransactionsInBlock : UInt32
  consensusContextSystemTimestampAllowedJitter : UInt64
  consensusContextTriggersEnabled : Bool
  deriving DecidableEq, Repr

/-- `triggers_systemcontract.CONTRACT_NAME`. -/
def triggersContractName : String := "_Triggers"

/-- `triggers_systemcontract.METHOD_TRIGGER`. -/
def methodTrigger : String := "trigger"

structure TransactionsBlockHeader where
  protocolVersion : Nat
  virtualChainId : Nat
  blockHeight : Nat
  prevBlockHashPtr : Bytes
  timestamp : UInt64
  transactionsMerkleRootHash : Bytes
  metadataHash : Bytes
  numSignedTransactions : UInt32
  blockProposerAddress : Bytes
  deriving DecidableEq, Repr

/-- `protocol.TransactionsBlockContainer` without its block proof, which neither side reads. The
metadata is its raw bytes. -/
structure TransactionsBlockContainer where
  header : TransactionsBlockHeader
  metadata : Bytes
  signedTransactions : List SignedTransaction
  deriving DecidableEq, Repr

/-- The raw bytes of the metadata built by an empty `TransactionsBlockMetadataBuilder`. -/
def emptyTransactionsBlockMetadata : Bytes := []

structure RequestNewTransactionsBlockInput where
  currentBlockHeight : Nat
  prevBlockHash : Bytes
  prevBlockTimestamp : UInt64
  blockProposerAddress : Bytes
  deriving DecidableEq, Repr

structure ValidateTransactionsBlockInput where
  currentBlockHeight : Nat
  transactionsBlock : TransactionsBlockContainer
  prevBlockHash : Bytes
  prevBlockTimestamp : UInt64
  blockProposerAddress : Bytes
  deriving DecidableEq, Repr

/-- The three errors of `isValidBlockTimestamp`, with the values their messages print. -/
inductive TimestampError
  /-- "the previous block's timestamp is same or later than current block's timestamp" -/
  | notAfterPrevious (prevBlockTimestamp currentBlockTimestamp : UInt64)
  /-- "current block's timestamp is later than latest timestamp allowed (upper jitter limit)" -/
  | aboveUpperJitterLimit (currentBlockTimestamp upperJitterLimitNano : UInt64)
  /-- "current block's timestamp is earlier than earliest timestamp allowed (lower jitter limit)" -/
  | belowLowerJitterLimit (currentBlockTimestamp lowerJitterLimitNano : UInt64)
  deriving DecidableEq, Repr

/-- The errors of `ValidateTransactionsBlock`, each named after the sentinel it wraps, with the
values its message prints. -/
inductive ValidationError
  | mismatchedProtocolVersion (expected actual : Nat)
  | mismatchedVirtualChainID (expected actual : Nat)
  | mismatchedBlockHeight
  | mismatchedPrevBlockHash (expected actual : Bytes)
  | timestamp (err : TimestampError)
  | mismatchedBlockProposer (expected actual : Bytes)
  | calcTransactionsMerkleRoot (message : String)
  | mismatchedTxMerkleRoot (expected actual : Bytes)
  | mismatchedMetadataHash (expected actual : Bytes)
  | triggerDisabledAndTriggerExists
  | triggerEnabledAndTriggerMissing
  | triggerEnabledAndTriggerNotLast
  | triggerEnabledAndTriggerInvalid
  | triggerEnabledAndTriggerInvalidTime
  | failedTransactionOrdering (err : OrderingError)
  deriving DecidableEq, Repr

/-- `isValidBlockTimestamp`: both jitter limits wrap as `uint64`s do. -/
def isValidBlockTimestamp (currentBlockTimestamp prevBlockTimestamp now allowedTimestampJitter : UInt64) :
    Option TimestampError :=
  let upperJitterLimitNano := now + allowedTimestampJitter
  let lowerJitterLimitNano := now - allowedTimestampJitter
  if prevBlockTimestamp ≥ currentBlockTimestamp then
    some (.notAfterPrevious prevBlockTimestamp currentBlockTimestamp)
  else if currentBlockTimestamp > upperJitterLimitNano then
    some (.aboveUpperJitterLimit currentBlockTimestamp upperJitterLimitNano)
  else if currentBlockTimestamp < lowerJitterLimitNano then
    some (.belowLowerJitterLimit currentBlockTimestamp lowerJitterLimitNano)
  else none

def validateTransactionsBlockIsTxTrigger (signedTransaction : SignedTransaction) : Bool :=
  signedTransaction.transaction.contractName == triggersContractName &&
    signedTransaction.transaction.methodName == methodTrigger

def validateTransactionsBlockTxTriggerIsValidTime (signedTransaction : SignedTransaction) (blockTime : UInt64) :
    Bool :=
  signedTransaction.transaction.timestamp == blockTime

def validateTransactionsBlockTxTriggerIsValid (signedTransaction : SignedTransaction) (cfg : ConsensusContextConfig) :
    Bool :=
  let transaction := signedTransaction.transaction
  if signedTransaction.signature.length ≠ 0 then false
  else if transaction.protocolVersion ≠ cfg.protocolVersion ∨ transaction.virtualChainId ≠ cfg.virtualChainId ∨
      transaction.inputArgumentArray.length ≠ 0 ∨ transaction.signer.raw.length ≠ 0 then false
  else true

/-- `validateTransactionsBlockTriggerCompliance`. With triggers enabled, the last transaction is
tested by the three predicates, and then the loop `for i := 0; i < txCount-2; i++` looks for a
trigger among the first `txCount - 2` transactions (none when the Go `int` bound is negative). -/
def validateTransactionsBlockTriggerCompliance (cfg : ConsensusContextConfig)
    (transactionsBlock : TransactionsBlockContainer) : Option ValidationError :=
  let txs := transactionsBlock.signedTransactions
  if cfg.consensusContextTriggersEnabled then
    let txCount := txs.length
    match txs.getLast? with
    | none => some .triggerEnabledAndTriggerMissing
    | some last =>
      if !validateTransactionsBlockIsTxTrigger last then some .triggerEnabledAndTriggerMissing
      else if !validateTransactionsBlockTxTriggerIsValidTime last transactionsBlock.header.timestamp then
        some .triggerEnabledAndTriggerInvalidTime
      else if !validateTransactionsBlockTxTriggerIsValid last cfg then some .triggerEnabledAndTriggerInvalid
      else if (txs.take (txCount - 2)).any validateTransactionsBlockIsTxTrigger then
        some .triggerEnabledAndTriggerNotLast
      else none
  else if txs.any validateTransactionsBlockIsTxTrigger then some .triggerDisabledAndTriggerExists
  else none

/-- `createTriggerTransaction`: no signer, signature or arguments. Its raw encoding is left
empty: nothing that reads the trigger looks at it. -/
def createTriggerTransaction (cfg : ConsensusContextConfig) (blockTime : UInt64) : SignedTransaction :=
  ⟨⟨cfg.protocolVersion, cfg.virtualChainId, blockTime, ⟨true, [], []⟩, triggersContractName, methodTrigger, []⟩,
    [], []⟩

/-- `updateTransactions`: the trigger appended when triggers are enabled. -/
def updateTransactions (cfg : ConsensusContextConfig) (txs : List SignedTransaction) (blockTime : UInt64) :
    List SignedTransaction :=
  if cfg.consensusContextTriggersEnabled then txs ++ [createTriggerTransaction cfg blockTime] else txs

section Digest

-- `hash.CalcSha256` and `digest.CalcTxHash`
variable (calcSha256 : Bytes → Bytes) (calcTxHash : Transaction → Bytes)

/-- `digest.CalcTransactionsMerkleRoot`: the ordered tree root of the transactions' hashes; it
never fails. -/
def calcTransactionsMerkleRoot (txs : List SignedTransaction) : Except String Bytes :=
  .ok (Merkle.calculateOrderedTreeRoot calcSha256 (txs.map fun tx => calcTxHash tx.transaction))

/-- `digest.CalcTransactionMetaDataHash`. -/
def calcTransactionMetaDataHash (metadata : Bytes) : Bytes :=
  calcSha256 metadata

/-- `createTransactionsBlock` with the pool's `GetTransactionsForOrdering` run at clock `now`;
`none` is a panic of the pool. -/
def createTransactionsBlock (cfg : ConsensusContextConfig) (transactionPool : TransactionPool.Service)
    (transactionSetPreOrder : TransactionSetPreOrder) (now : UInt64) (input : RequestNewTransactionsBlockInput) :
    Option (TransactionPool.Service × Except String TransactionsBlockContainer) :=
  let fetched := transactionPool.getTransactionsForOrdering calcTxHash transactionSetPreOrder now
    ⟨input.currentBlockHeight, input.prevBlockTimestamp, cfg.consensusContextMaximumTransactionsInBlock, 0⟩
  fetched.map fun (transactionPool, proposedTransactions) => (transactionPool,
    match proposedTransactions with
    | .error err => .error ("failed to fetch transactions for new block: " ++ err)
    | .ok proposedTransactions =>
      let newBlockTimestamp := proposedTransactions.proposedBlockTimestamp
      if newBlockTimestamp = 0 then
        .error "transactions pool GetTransactionsForOrdering returned proposed block timestamp of zero"
      else
        let transactionsForBlock := updateTransactions cfg proposedTransactions.signedTransactions newBlockTimestamp
        match calcTransactionsMerkleRoot calcSha256 calcTxHash transactionsForBlock with
        | .error err => .error err
        | .ok merkleTransactionsRoot =>
          let metaData := emptyTransactionsBlockMetadata
          .ok ⟨⟨cfg.protocolVersion, cfg.virtualChainId, input.currentBlockHeight, input.prevBlockHash,
              newBlockTimestamp, merkleTransactionsRoot, calcTransactionMetaDataHash calcSha256 metaData,
              transactionsForBlock.length.toUInt32, input.blockProposerAddress⟩,
            metaData, transactionsForBlock⟩)

/-- The list of `txValidator`s of `ValidateTransactionsBlock`, in the source's order; the clock
read by the timestamp validator is `now`. -/
def txValidators (cfg : ConsensusContextConfig) (now : UInt64) (input : ValidateTransactionsBlockInput) :
    List (Option ValidationError) :=
  let header := input.transactionsBlock.header
  [ -- validateTxProtocolVersion
    if header.protocolVersion ≠ cfg.protocolVersion then
      some (.mismatchedProtocolVersion cfg.protocolVersion header.protocolVersion) else none,
    -- validateTxVirtualChainID
    if header.virtualChainId ≠ cfg.virtualChainId then
      some (.mismatchedVirtualChainID cfg.virtualChainId header.virtualChainId) else none,
    -- validateTxBlockHeight
    if header.blockHeight ≠ input.currentBlockHeight then some .mismatchedBlockHeight else none,
    -- validateTxPrevBlockHashPtr
    if header.prevBlockHashPtr ≠ input.prevBlockHash then
      some (.mismatchedPrevBlockHash input.prevBlockHash header.prevBlockHashPtr) else none,
    -- validateTxTransactionsBlockTimestamp
    (isValidBlockTimestamp header.timestamp input.prevBlockTimestamp now
      cfg.consensusContextSystemTimestampAllowedJitter).map .timestamp,
    -- validateTxBlockProposer: a header without a proposer is from an older version and passes
    if header.blockProposerAddress.length > 0 ∧ header.blockProposerAddress ≠ input.blockProposerAddress then
      some (.mismatchedBlockProposer input.blockProposerAddress header.blockProposerAddress) else none,
    -- validateTransactionsBlockMerkleRoot
    match calcTransactionsMerkleRoot calcSha256 calcTxHash input.transactionsBlock.signedTransactions with
    | .error err => some (.calcTransactionsMerkleRoot err)
    | .ok expected =>
      if header.transactionsMerkleRootHash ≠ expected then
        some (.mismatchedTxMerkleRoot expected header.transactionsMerkleRootHash) else none,
    -- validateTransactionsBlockMetadataHash
    let expected := calcTransactionMetaDataHash calcSha256 input.transactionsBlock.metadata
    if header.metadataHash ≠ expected then some (.mismatchedMetadataHash expected header.metadataHash) else none ]

/-- `validateTxTransactionOrdering`: with triggers enabled the last transaction, the trigger, is
not sent to the pool. -/
def validateTxTransactionOrdering (cfg : ConsensusContextConfig)
    (validateForOrdering : ValidateTransactionsForOrderingInput → Except OrderingError Unit)
    (transactionBlock : TransactionsBlockContainer) : Option ValidationError :=
  let txs := transactionBlock.signedTransactions
  if cfg.consensusContextTriggersEnabled ∧ txs.length = 0 then some .triggerEnabledAndTriggerMissing
  else
    let txs := if cfg.consensusContextTriggersEnabled then txs.dropLast else txs
    match validateForOrdering ⟨transactionBlock.header.blockHeight, transactionBlock.header.timestamp, txs⟩ with
    | .error err => some (.failedTransactionOrdering err)
    | .ok () => none

/-- `ValidateTransactionsBlock` against the transaction pool `transactionPool`: the validators in
order, then the trigger compliance, then the ordering. -/
def validateTransactionsBlock (cfg : ConsensusContextConfig) (transactionPool : TransactionPool.Service)
    (transactionSetPreOrder : TransactionSetPreOrder) (now : UInt64) (input : ValidateTransactionsBlockInput) :
    Except ValidationError Unit :=
  match (txValidators calcSha256 calcTxHash cfg now input).findSome? id with
  | some err => .error err
  | none =>
    match validateTransactionsBlockTriggerCompliance cfg input.transactionsBlock with
    | some err => .error err
    | none =>
      match validateTxTransactionOrdering cfg
          (transactionPool.validateTransactionsForOrdering calcTxHash transactionSetPreOrder)
          input.transactionsBlock with
      | some err => .error err
      | none => .ok ()

end Digest

end OrbsNetwork.ConsensusContext
