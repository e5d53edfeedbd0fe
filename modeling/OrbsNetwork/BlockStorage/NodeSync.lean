import OrbsNetwork.BlockStorage.Commit

/-! `internodesync`. One step of the model is one answer the sync goroutine waits for; block
storage's `CommitBlock`, called by the consensus algorithm, runs between any two of them. -/

namespace OrbsNetwork.BlockStorage

structure BlockAvailabilityRequestMessage where
  senderNodeAddress : Bytes
  signedBatchRange : BlockSyncRange
  deriving DecidableEq, Repr

structure BlockAvailabilityResponseMessage where
  senderNodeAddress : Bytes
  signedBatchRange : BlockSyncRange
  deriving DecidableEq, Repr

/-- What reaches the sync goroutine through its `blockSyncConduit`: `HandleBlockCommitted`'s
`idleResetMessage` and the two responses gossip hands over. -/
inductive ConduitMessage
  | idleReset
  | blockAvailabilityResponse (message : BlockAvailabilityResponseMessage)
  | blockSyncResponse (message : BlockSyncResponseMessage)
  deriving DecidableEq, Repr

/-- Which `processState` the sync goroutine runs, and at which call or `select` of it. -/
inductive SyncState
  /-- `idleState`, at its `select` -/
  | idle
  /-- `collectingAvailabilityResponsesState`, broadcasting its request -/
  | collectingBroadcast
  /-- `collectingAvailabilityResponsesState`, at its `select`, with the responses so far -/
  | collecting (responses : List BlockAvailabilityResponseMessage)
  /-- `finishedCARState` with some responses, picking one at random -/
  | finishedCAR (responses : List BlockAvailabilityResponseMessage)
  /-- `finishedCARState` draining the conduit, its source picked -/
  | finishedCARDraining (syncSourceNodeAddress : Bytes)
  /-- `waitingForChunksState`, sending its request -/
  | waitingRequest (sourceNodeAddress : Bytes)
  /-- `waitingForChunksState`, at its `select` -/
  | waitingForChunks (sourceNodeAddress : Bytes)
  /-- `processingBlocksState` draining the conduit before the block pairs `rest`, or before it
  returns when none are left -/
  | processingBlocks (rest : List BlockPairContainer)
  /-- `processingBlocksState` between `ValidateBlockForCommit` and `NodeSyncCommitBlock` -/
  | processingCommit (blockPair : BlockPairContainer) (rest : List BlockPairContainer)
  deriving DecidableEq, Repr

/-- An answer the sync goroutine waits for. -/
inductive SyncEvent
  | conduit (message : ConduitMessage)
  | timerFired
  | contextDone
  /-- the `default` case of `drainAndCheckForShutdown`: nothing on the conduit and the context
  live, `contextDone` when it ends before the block storage call that follows returns -/
  | conduitEmpty (contextDone : Bool)
  | gossipReturned (err : Option String)
  | randomIndex (i : Nat)
  /-- the goroutine runs on from the validation of a block to its commit -/
  | proceed
  deriving DecidableEq, Repr

/-- A step of the node: of its sync goroutine, or a `CommitBlock` of its consensus algorithm. -/
inductive Event
  | sync (event : SyncEvent)
  | commitBlock (blockPair : BlockPairContainer)
  deriving DecidableEq, Repr

/-- The node as block sync sees it: where the sync goroutine is, `none` once `syncLoop` has ended,
and the stored chain. -/
structure Node where
  sync : Option SyncState
  persistence : InMemoryBlockPersistence

section Machine

variable (protocol : Protocol) (versions : Versions) (config : BlockSyncConfig) (blockTypeBlockPair : Nat)
  (handlers : List ConsensusBlocksHandler)

/-- `petitionerBroadcastBlockAvailabilityRequest` up to the gossip call: the batch after the last
committed block, refused when its end wraps around. -/
def petitionerBroadcastBlockAvailabilityRequest (bp : InMemoryBlockPersistence) :
    Except String BlockAvailabilityRequestMessage :=
  let lastCommittedBlockHeight := getLastCommittedBlockHeight protocol bp
  let firstBlockHeight := lastCommittedBlockHeight + 1
  let lastBlockHeight := lastCommittedBlockHeight + config.blockSyncNumBlocksInBatch.toUInt64
  if firstBlockHeight > lastBlockHeight then .error s!"invalid block request: from {firstBlockHeight} to {lastBlockHeight}"
  else .ok ⟨config.nodeAddress, ⟨blockTypeBlockPair, firstBlockHeight, lastBlockHeight, lastCommittedBlockHeight⟩⟩

/-- `petitionerSendBlockSyncRequest` up to the gossip call. -/
def petitionerSendBlockSyncRequest (bp : InMemoryBlockPersistence) : BlockSyncRequestMessage :=
  let lastCommittedBlockHeight := getLastCommittedBlockHeight protocol bp
  ⟨config.nodeAddress, ⟨blockTypeBlockPair, lastCommittedBlockHeight + 1,
    lastCommittedBlockHeight + config.blockSyncNumBlocksInBatch.toUInt64, lastCommittedBlockHeight⟩⟩

/-- `CreateFinishedCARState`: with no responses, its `processState` returns to idle at once. -/
def createFinishedCARState (responses : List BlockAvailabilityResponseMessage) : SyncState :=
  if responses = [] then .idle else .finishedCAR responses

/-- One answer to the sync goroutine: where it goes, `none` when `processState` returns `nil`, and
the stored chain after it. An answer that the goroutine is not waiting for changes nothing. -/
def SyncState.step (bp : InMemoryBlockPersistence) : SyncState → SyncEvent → Option SyncState × InMemoryBlockPersistence
  | .idle, .conduit .idleReset => (some .idle, bp)
  | .idle, .timerFired => (some .collectingBroadcast, bp)
  | .idle, .contextDone => (none, bp)
  | .collectingBroadcast, .gossipReturned err =>
    match petitionerBroadcastBlockAvailabilityRequest protocol config blockTypeBlockPair bp, err with
    | .ok _, none => (some (.collecting []), bp)
    | _, _ => (some .idle, bp)
  | .collecting responses, .timerFired => (some (createFinishedCARState responses), bp)
  | .collecting responses, .conduit (.blockAvailabilityResponse r) => (some (.collecting (responses ++ [r])), bp)
  | .collecting _, .contextDone => (none, bp)
  | .finishedCAR responses, .randomIndex i =>
    match responses[i]? with
    | some syncSource => (some (.finishedCARDraining syncSource.senderNodeAddress), bp)
    | none => (some (.finishedCAR responses), bp)
  | .finishedCARDraining syncSourceNodeAddress, .conduitEmpty _ => (some (.waitingRequest syncSourceNodeAddress), bp)
  | .finishedCARDraining _, .contextDone => (none, bp)
  | .waitingRequest sourceNodeAddress, .gossipReturned err =>
    match err with
    | none => (some (.waitingForChunks sourceNodeAddress), bp)
    | some _ => (some .idle, bp)
  | .waitingForChunks _, .timerFired => (some .idle, bp)
  | .waitingForChunks sourceNodeAddress, .conduit (.blockSyncResponse blocks) =>
    -- a response from another sender is byzantine: it is dropped and the wait goes on
    if blocks.senderNodeAddress = sourceNodeAddress then (some (.processingBlocks blocks.blockPairs), bp)
    else (some (.waitingForChunks sourceNodeAddress), bp)
  | .waitingForChunks _, .contextDone => (none, bp)
  | .processingBlocks _, .contextDone => (none, bp)
  | .processingBlocks [], .conduitEmpty _ => (some .collectingBroadcast, bp)
  | .processingBlocks (blockPair :: rest), .conduitEmpty contextDone =>
    match validateBlockForCommit protocol versions handlers bp blockPair contextDone with
    | some _ => (some (.processingBlocks []), bp)
    | none => (some (.processingCommit blockPair rest), bp)
  | .processingCommit blockPair rest, .proceed =>
    match commitBlock protocol versions bp blockPair with
    | some (bp, none) => (some (.processingBlocks rest), bp)
    | some (bp, some _) => (some (.processingBlocks []), bp)
    | none => (none, bp)
  | state, _ => (some state, bp)

/-- The node after one step. A panicking `CommitBlock` of the consensus algorithm leaves the chain
as it was: in this model the persistence panics only at height 0, after it refused the block. -/
def Node.step (node : Node) : Event → Node
  | .sync event =>
    match node.sync with
    | some state =>
      let (sync, persistence) := state.step protocol versions config blockTypeBlockPair handlers node.persistence event
      ⟨sync, persistence⟩
    | none => node
  | .commitBlock blockPair =>
    match commitBlock protocol versions node.persistence blockPair with
    | some (persistence, _) => ⟨node.sync, persistence⟩
    | none => node

/-- The nodes that steps lead to from `node`. -/
def Node.Reaches (node : Node) : Node → Prop :=
  Relation.ReflTransGen (fun node node' => ∃ event, node.step protocol versions config blockTypeBlockPair handlers event = node')
    node

/-- `NewBlockSync` over a persistence: `syncLoop` starts collecting. -/
def newBlockSync (bp : InMemoryBlockPersistence) : Node :=
  ⟨some .collectingBroadcast, bp⟩

end Machine

end OrbsNetwork.BlockStorage
