import OrbsNetwork.StateStorage.RollingRevisions

namespace OrbsNetwork.StateStorage

open Merkle

/-- The settings of `config.StateStorageConfig` the service reads; the grace timeout only ends a
wait, see `BlockTracker.waitForBlock`. -/
structure StateStorageConfig where
  stateStorageHistorySnapshotNum : UInt32
  blockTrackerGraceDistance : UInt32

/-- `synchronization.BlockTracker` between calls, without its latch and logger. -/
structure BlockTracker where
  graceDistance : UInt16
  currentHeight : Nat

def newBlockTracker (startingHeight : Nat) (graceDist : UInt16) : BlockTracker :=
  ⟨graceDist, startingHeight⟩

/-- `IncrementTo`; `none` is its panic on a height that is not the next one. -/
def BlockTracker.incrementTo (t : BlockTracker) (height : Nat) : Option BlockTracker :=
  if height ≠ t.currentHeight + 1 then none
  else some { t with currentHeight := t.currentHeight + 1 }

/-- `WaitForBlock` in a run where no block is committed while it waits: a height within the
grace distance waits until the context of `BlockTrackerGraceTimeout` expires. -/
def BlockTracker.waitForBlock (t : BlockTracker) (requestedHeight : Nat) : Except String Unit :=
  let currentHeight := t.currentHeight
  if requestedHeight ≤ currentHeight then .ok ()
  else if currentHeight + t.graceDistance.toNat < requestedHeight then
    .error "requested future block outside of grace range"
  else .error s!"aborted while waiting for block at height {requestedHeight}: context deadline exceeded"

/-- `protocol.StateRecord`. -/
structure StateRecord where
  key : Bytes
  value : Bytes
  deriving DecidableEq, Repr

/-- `protocol.ContractStateDiff`. -/
structure ContractStateDiff where
  contractName : Bytes
  stateDiffs : List StateRecord
  deriving DecidableEq, Repr

/-- `inflateChainState`: a later record of a (contract, key) overwrites an earlier one. -/
def inflateChainState (csd : List ContractStateDiff) : ChainState :=
  csd.foldl (fun result stateDiffs =>
    stateDiffs.stateDiffs.foldl (fun result r => result.set stateDiffs.contractName r.key r.value) result)
    ChainState.empty

def newZeroValue : Bytes :=
  []

/-- The state storage `service`, without its metrics, logger and height reporter. -/
structure Service where
  config : StateStorageConfig
  blockTracker : BlockTracker
  revisions : RollingRevisions

/-- The fields of `CommitStateDiffInput` the service reads: the results block header's height,
timestamp and proposer, and the state diffs. -/
structure CommitStateDiffInput where
  blockHeight : Nat
  timestamp : Nat
  blockProposerAddress : Bytes
  contractStateDiffs : List ContractStateDiff

structure ReadKeysInput where
  blockHeight : Nat
  contractName : Bytes
  keys : List Bytes

section Service

variable (calcSha256 : Bytes → Bytes)

def newStateStorage (config : StateStorageConfig) (persistence : InMemoryStatePersistence) : Service where
  config := config
  blockTracker := newBlockTracker 0 config.blockTrackerGraceDistance.toUInt16
  revisions := newRollingRevisions persistence config.stateStorageHistorySnapshotNum.toNat (newForest calcSha256).1

/-- `CommitStateDiff`, returning `NextDesiredBlockHeight`; `none` is a panic of the block
tracker. A height other than the next one is answered with the next one and changes nothing. -/
def Service.commitStateDiff (s : Service) (input : CommitStateDiffInput) : Option (Service × Except String Nat) :=
  let currentHeight := s.revisions.currentHeight
  let commitBlockHeight := input.blockHeight
  if currentHeight + 1 ≠ commitBlockHeight then some (s, .ok (currentHeight + 1))
  else
    match s.revisions.addRevision calcSha256 commitBlockHeight input.timestamp input.blockProposerAddress
        (inflateChainState input.contractStateDiffs) with
    | (revisions, .error err) =>
      some ({ s with revisions }, .error s!"failed to write state for block height {commitBlockHeight}: {err}")
    | (revisions, .ok ()) =>
      (s.blockTracker.incrementTo commitBlockHeight).map fun blockTracker =>
        ({ s with revisions, blockTracker }, .ok (commitBlockHeight + 1))

end Service

/-- The check `ReadKeys` and `GetStateHash` make before reading: the block is committed, after
waiting within the grace distance, and within the snapshot window. `caller` starts the wait
error as each of them does. -/
def Service.admitBlockHeight (s : Service) (caller : String) (blockHeight : Nat) : Except String Unit :=
  match s.blockTracker.waitForBlock blockHeight with
  | .error err => .error s!"{caller}unsupported block height: block {blockHeight} is not yet committed: {err}"
  | .ok () =>
    let currentHeight := s.revisions.currentHeight
    let snapshotNum := s.config.stateStorageHistorySnapshotNum.toNat
    if blockHeight + snapshotNum ≤ currentHeight then
      .error s!"unsupported block height: block {blockHeight} too old. currently at {currentHeight}. keeping {snapshotNum} back"
    else .ok ()

/-- One turn of the loop of `ReadKeys`: the record at the height, the zero value for a key that
is missing. -/
def Service.readKey (s : Service) (blockHeight : Nat) (contractName key : Bytes) : Except String StateRecord :=
  match s.revisions.getRevisionRecord blockHeight contractName key with
  | .error err => .error s!"persistence layer error: {err}"
  | .ok (record, ok) => .ok ⟨key, if ok then record else newZeroValue⟩

/-- `ReadKeys`. On no key Go returns the empty output with its error; the model keeps the
error. -/
def Service.readKeys (s : Service) (input : ReadKeysInput) : Except String (List StateRecord) :=
  if input.contractName = [] then .error "missing contract name"
  else
    match s.admitBlockHeight "" input.blockHeight with
    | .error err => .error err
    | .ok () =>
      match input.keys.mapM (s.readKey input.blockHeight input.contractName) with
      | .error err => .error err
      | .ok records => if records.length = 0 then .error "no value found for input key(s)" else .ok records

def Service.getStateHash (s : Service) (blockHeight : Nat) : Except String Bytes :=
  match s.admitBlockHeight "GetStateHash(): " blockHeight with
  | .error err => .error err
  | .ok () =>
    match s.revisions.getRevisionHash blockHeight with
    | .error err => .error s!"could not find a merkle root for block height {blockHeight}: {err}"
    | .ok value => .ok value

/-- `GetLastCommittedBlockInfo`: height, timestamp and proposer. -/
def Service.getLastCommittedBlockInfo (s : Service) : Nat × Nat × Bytes :=
  (s.revisions.currentHeight, s.revisions.currentTs, s.revisions.currentProposer)

end OrbsNetwork.StateStorage
