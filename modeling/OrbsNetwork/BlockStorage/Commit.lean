import OrbsNetwork.BlockStorage.BlockSync

namespace OrbsNetwork.BlockStorage

/-- `ProtocolVersion`. -/
def protocolVersion : Nat := 1

/-- The `ProtocolVersion` accessors of the two block headers. -/
structure Versions where
  transactionsProtocolVersion : Bytes → Nat
  resultsProtocolVersion : Bytes → Nat

/-- `handlers.HandleBlockConsensusMode`. -/
inductive HandleBlockConsensusMode
  | verifyAndUpdate
  | updateOnly
  | verifyOnly
  deriving DecidableEq, Repr

/-- A registered `ConsensusBlocksHandler`: the error its `HandleBlockConsensus` returns for a mode,
a block pair and the block pair before it. -/
abbrev ConsensusBlocksHandler := HandleBlockConsensusMode → BlockPairContainer → Option BlockPairContainer → Option String

section Service

variable (protocol : Protocol) (versions : Versions)

def validateProtocolVersion (blockPair : BlockPairContainer) : Option String :=
  if versions.transactionsProtocolVersion blockPair.transactionsBlock.header ≠ protocolVersion then
    some "protocol version mismatch in transactions block header"
  else if versions.resultsProtocolVersion blockPair.resultsBlock.header ≠ protocolVersion then
    some "protocol version mismatch in results block header"
  else none

/-- `detectForks`: a block pair proposed at a height already stored, against the headers stored
there. -/
def detectForks (proposedBlock : BlockPairContainer) (storedTxBlockHeader storedRsBlockHeader : Bytes) :
    Option String :=
  if protocol.transactionsTimestamp proposedBlock.transactionsBlock.header ≠
      protocol.transactionsTimestamp storedTxBlockHeader then
    some "FORK!! block already in storage, timestamp mismatch"
  else if proposedBlock.transactionsBlock.header ≠ storedTxBlockHeader then
    some "FORK!! block already in storage, transaction block header mismatch"
  else if proposedBlock.resultsBlock.header ≠ storedRsBlockHeader then
    some "FORK!! block already in storage, results block header mismatch"
  else none

/-- `commitBlock` over the in-memory persistence, for `CommitBlock` and `NodeSyncCommitBlock`
alike: the persistence after it and the error returned; `none` is a panic of the persistence. -/
def commitBlock (bp : InMemoryBlockPersistence) (blockPair : BlockPairContainer) :
    Option (InMemoryBlockPersistence × Option String) :=
  let proposedBlockHeight := (protocol.transactionsBlockHeight blockPair.transactionsBlock.header).toUInt64
  match validateProtocolVersion versions blockPair with
  | some err => some (bp, some err)
  | none =>
    match bp.writeNextBlock protocol blockPair with
    | (bp, _, _, some err) => some (bp, some err)
    | (bp, added, persistedHeight, none) =>
      if proposedBlockHeight > persistedHeight.toUInt64 + 1 then
        some (bp, some s!"attempt to write future block {proposedBlockHeight}. current top height is {persistedHeight.toUInt64}")
      else if !added then
        (bp.getResultsBlock proposedBlockHeight.toNat).bind fun
          | .error err => some (bp, some s!"failed to load results block at proposed block height {proposedBlockHeight}: {err}")
          | .ok storedRsBlock =>
            (bp.getTransactionsBlock proposedBlockHeight.toNat).map fun
              | .error err =>
                (bp, some s!"failed to load transactions block at proposed block height {proposedBlockHeight}: {err}")
              | .ok storedTxBlock => (bp, detectForks protocol blockPair storedTxBlock.header storedRsBlock.header)
      else some (bp, none)

/-- `GetLastCommittedBlockHeight`; the in-memory `GetLastBlock` never fails. -/
def getLastCommittedBlockHeight (bp : InMemoryBlockPersistence) : UInt64 :=
  getBlockHeight protocol bp.getLastBlock

def validateConsecutiveBlockHeight (blockPair : BlockPairContainer) (lastCommittedBlock : Option BlockPairContainer) :
    Option String :=
  let expectedBlockHeight := getBlockHeight protocol lastCommittedBlock + 1
  let txBlockHeight := (protocol.transactionsBlockHeight blockPair.transactionsBlock.header).toUInt64
  let rsBlockHeight := (protocol.resultsBlockHeight blockPair.resultsBlock.header).toUInt64
  if txBlockHeight ≠ rsBlockHeight then
    some s!"block pair height mismatch. transactions height is {txBlockHeight}, results height is {rsBlockHeight}"
  else if txBlockHeight ≠ expectedBlockHeight then
    some s!"block height is {txBlockHeight}, expected {expectedBlockHeight}"
  else none

/-- `notifyConsensusAlgos`: in a verifying mode, an error unless some handler accepts the block
pair; once the context has ended the refusals are not reported. -/
def notifyConsensusAlgos (handlers : List ConsensusBlocksHandler) (prevBlockPair : Option BlockPairContainer)
    (blockPair : BlockPairContainer) (mode : HandleBlockConsensusMode) (contextDone : Bool) : Option String :=
  let verifyMode := mode = .verifyAndUpdate ∨ mode = .verifyOnly
  let verifiedCount := (handlers.filter fun handler => handler mode blockPair prevBlockPair = none).length
  if verifyMode ∧ verifiedCount = 0 ∧ contextDone = false then
    some s!"all consensus {handlers.length} algos refused to validate the block"
  else none

/-- `ValidateBlockForCommit`: the protocol version, the height after the last stored block, and
the consensus algorithms' verdict against that block. -/
def validateBlockForCommit (handlers : List ConsensusBlocksHandler) (bp : InMemoryBlockPersistence)
    (blockPair : BlockPairContainer) (contextDone : Bool) : Option String :=
  match validateProtocolVersion versions blockPair with
  | some err => some err
  | none =>
    let lastCommittedBlock := bp.getLastBlock
    match validateConsecutiveBlockHeight protocol blockPair lastCommittedBlock with
    | some err => some err
    | none => notifyConsensusAlgos handlers lastCommittedBlock blockPair .verifyAndUpdate contextDone

end Service

end OrbsNetwork.BlockStorage
