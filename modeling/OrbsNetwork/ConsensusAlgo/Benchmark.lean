import OrbsNetwork.BlockStorage.Commit
import OrbsNetwork.Committee.Order
import OrbsNetwork.Library.FirstSeen
import OrbsNetwork.Library.Binary64

/-! Each goroutine's step on the shared state is taken where it holds the mutex: a handler that read
the last committed block and finds it changed when it writes does nothing, as an ignored step does,
so the steps below reach the states that every interleaving of the goroutines reaches. -/

namespace OrbsNetwork.ConsensusAlgo

open BlockStorage

/-- What benchmark consensus reads of the membuffers messages it handles, and the crypto it calls:
`String()` of a byte field is its hexadecimal text, and `%v` of a proof type the name of the type. -/
structure BenchmarkAccess where
  transactionsPrevBlockHashPtr : Bytes → Bytes
  resultsPrevBlockHashPtr : Bytes → Bytes
  transactionsProofType : Bytes → String
  resultsProofType : Bytes → String
  /-- the `Nodes` of the `BenchmarkConsensus` of a results block proof: sender and signature -/
  proofNodes : Bytes → List (Bytes × Bytes)
  /-- the raw `BenchmarkConsensusBlockRef` of a valid block at a height with a block hash, view 1 -/
  blockRef : UInt64 → Bytes → Bytes
  /-- `LastCommittedBlockHeight` of a raw `BenchmarkConsensusStatus` -/
  statusLastCommittedBlockHeight : Bytes → UInt64
  calcSha256 : Bytes → Bytes
  verifyNodeSignature : Bytes → Bytes → Bytes → Option String

/-- The settings benchmark consensus reads. `GenesisValidatorNodes` is a map, keyed by address. -/
structure Config where
  nodeAddress : Bytes
  genesisValidatorNodes : List Bytes
  genesisValidatorNodes_nodup : genesisValidatorNodes.Nodup
  benchmarkConsensusConstantLeader : Bytes
  benchmarkConsensusRequiredQuorumPercentage : UInt32

/-- `blockHeightNone`: `math.MaxUint64`. -/
def blockHeightNone : UInt64 := UInt64.ofNat (2 ^ 64 - 1)

section Digest

variable (access : BenchmarkAccess)

def calcTransactionsBlockHash (transactionsBlock : TransactionsBlockContainer) : Bytes :=
  access.calcSha256 transactionsBlock.header

def calcResultsBlockHash (resultsBlock : ResultsBlockContainer) : Bytes :=
  access.calcSha256 resultsBlock.header

def calcBlockHash (transactionsBlock : TransactionsBlockContainer) (resultsBlock : ResultsBlockContainer) : Bytes :=
  access.calcSha256 (calcTransactionsBlockHash access transactionsBlock ++ calcResultsBlockHash access resultsBlock)

end Digest

section Service

variable (protocol : Protocol) (access : BenchmarkAccess) (config : Config)

/-- `requiredQuorumSize`: `math.Ceil` of the percentage of the validators, taken in float64. `int`
of a ceiling from `2^63` on, which Go leaves to the platform, is taken as the ceiling itself. -/
def requiredQuorumSize : Nat :=
  let networkSize := config.genesisValidatorNodes.length
  Binary64.ceilDiv
    (Binary64.mul (Binary64.ofNat networkSize) (Binary64.ofNat config.benchmarkConsensusRequiredQuorumPercentage.toNat)) 100

def signedDataForBlockProof (blockPair : BlockPairContainer) : Bytes :=
  access.blockRef (protocol.transactionsBlockHeight blockPair.transactionsBlock.header).toUInt64
    (calcBlockHash access blockPair.transactionsBlock blockPair.resultsBlock)

def transactionsProofTypeBenchmarkConsensus : String := "TRANSACTIONS_BLOCK_PROOF_TYPE_BENCHMARK_CONSENSUS"

def resultsProofTypeBenchmarkConsensus : String := "RESULTS_BLOCK_PROOF_TYPE_BENCHMARK_CONSENSUS"

/-- `validateBlockConsensus`: both proofs of benchmark type, the previous block's hashes when it is
given, and a first signer that is the constant leader with a valid signature. -/
def validateBlockConsensus (blockPair : Option BlockPairContainer) (prevCommittedBlockPair : Option BlockPairContainer) :
    Option String :=
  match blockPair with
  | none => some "BenchmarkConsensus: validateBlockConsensus received an empty block"
  | some blockPair =>
    let txProofType := access.transactionsProofType blockPair.transactionsBlock.blockProof
    let rxProofType := access.resultsProofType blockPair.resultsBlock.blockProof
    if txProofType ≠ transactionsProofTypeBenchmarkConsensus then
      some s!"BenchmarkConsensus: incorrect block proof type for transaction block height {(protocol.transactionsBlockHeight blockPair.transactionsBlock.header).toUInt64}: {txProofType}"
    else if rxProofType ≠ resultsProofTypeBenchmarkConsensus then
      some s!"BenchmarkConsensus: incorrect block proof type for results block height {(protocol.resultsBlockHeight blockPair.resultsBlock.header).toUInt64}: {rxProofType}"
    else
      let prevHashes : Option String :=
        match prevCommittedBlockPair with
        | none => none
        | some prev =>
          let prevTxHash := calcTransactionsBlockHash access prev.transactionsBlock
          let prevRxHash := calcResultsBlockHash access prev.resultsBlock
          if access.transactionsPrevBlockHashPtr blockPair.transactionsBlock.header ≠ prevTxHash then
            some s!"BenchmarkConsensus: transactions prev block hash does not match prev block height {(protocol.transactionsBlockHeight prev.transactionsBlock.header).toUInt64}: {Committee.hexEncode prevTxHash}"
          else if access.resultsPrevBlockHashPtr blockPair.resultsBlock.header ≠ prevRxHash then
            some s!"BenchmarkConsensus: results prev block hash does not match prev block height {(protocol.resultsBlockHeight prev.resultsBlock.header).toUInt64}: {Committee.hexEncode prevRxHash}"
          else none
      match prevHashes with
      | some err => some err
      | none =>
        match access.proofNodes blockPair.resultsBlock.blockProof with
        | [] => some "BenchmarkConsensus: block proof not signed"
        | (senderNodeAddress, signature) :: _ =>
          if senderNodeAddress ≠ config.benchmarkConsensusConstantLeader then
            some s!"BenchmarkConsensus: block proof not from leader: {Committee.hexEncode senderNodeAddress}"
          else
            match access.verifyNodeSignature senderNodeAddress (signedDataForBlockProof protocol access blockPair) signature with
            | some err => some s!"BenchmarkConsensus: block proof signature is invalid: {Committee.hexEncode signature}: {err}"
            | none => none

/-- The state of the service: `lastCommittedBlockUnderMutex`, and, for the leader, the last block
voted through and the voters of the last committed block. -/
structure Service where
  lastCommittedBlock : Option BlockPairContainer
  lastSuccessfullyVotedBlock : UInt64
  lastCommittedBlockVoters : List Bytes
  lastCommittedBlockVotersReachedQuorum : Bool

def Service.lastCommittedBlockHeight (s : Service) : UInt64 :=
  getBlockHeight protocol s.lastCommittedBlock

/-- `setLastCommittedBlockIfPreviousBlockMatches`, with every handler run as one step, so that the
previous block always matches. -/
def Service.setLastCommittedBlock (s : Service) (blockPair : BlockPairContainer) : Service :=
  { s with lastCommittedBlock := some blockPair, lastCommittedBlockVoters := [],
           lastCommittedBlockVotersReachedQuorum := false }

/-- `handleBlockConsensusFromHandler` for block pairs: the verdict in a verifying mode, and in an
updating mode a newer block pair taken as the last committed one. -/
def Service.handleBlockConsensusFromHandler (s : Service) (mode : HandleBlockConsensusMode)
    (blockPair prevCommittedBlockPair : Option BlockPairContainer) : Option String × Service :=
  let verified :=
    if mode = .verifyAndUpdate ∨ mode = .verifyOnly then validateBlockConsensus protocol access config blockPair prevCommittedBlockPair
    else none
  match verified with
  | some err => (some err, s)
  | none =>
    if mode = .verifyAndUpdate ∨ mode = .updateOnly then
      match blockPair with
      | none => (none, s)
      | some blockPair =>
        if (protocol.transactionsBlockHeight blockPair.transactionsBlock.header).toUInt64 > s.lastCommittedBlockHeight protocol then
          (none, s.setLastCommittedBlock blockPair)
        else (none, s)
    else (none, s)

/-- The `ConsensusBlocksHandler` that benchmark consensus registers with block storage: its
verdict, which does not depend on the service's state. -/
def benchmarkHandler : ConsensusBlocksHandler := fun mode blockPair prevCommittedBlockPair =>
  if mode = .verifyAndUpdate ∨ mode = .verifyOnly then validateBlockConsensus protocol access config (some blockPair) prevCommittedBlockPair
  else none

/-- `leaderValidateVote`: a status of the last committed height, from a validator, signed by it. -/
def leaderValidateVote (senderNodeAddress signature status : Bytes) (lastCommittedBlockHeight : UInt64) : Option String :=
  let blockHeight := access.statusLastCommittedBlockHeight status
  if blockHeight ≠ lastCommittedBlockHeight then
    some s!"committed message with wrong block height {blockHeight}, expecting {lastCommittedBlockHeight}"
  else if senderNodeAddress ∉ config.genesisValidatorNodes then
    some s!"signer with public key {Committee.hexEncode senderNodeAddress} is not a valid validator"
  else
    -- Go prints the raw status verbatim, which a string here cannot hold: it is written in hex
    match access.verifyNodeSignature senderNodeAddress status signature with
    | some err => some s!"sender signature is invalid: {Committee.hexEncode signature}, signed data: {Committee.hexEncode status}: {err}"
    | none => none

/-- `leaderAddVote`: the voter joins the voters of the last committed block, and the block has
enough votes the first time they reach the quorum, counting the leader's own. -/
def Service.leaderAddVote (s : Service) (senderNodeAddress : Bytes) : Bool × Service :=
  let s := { s with lastCommittedBlockVoters := FirstSeen.note s.lastCommittedBlockVoters senderNodeAddress }
  let voters := s.lastCommittedBlockVoters
  let existingVotes := voters.length + 1
  if existingVotes ≥ requiredQuorumSize config ∧ !s.lastCommittedBlockVotersReachedQuorum then
    (true, { s with lastCommittedBlockVotersReachedQuorum := true })
  else (false, s)

/-- Where the leader's round loop is: about to tick, at its `select`, blocked in a tick sending on
`successfullyVotedBlocks`, or returned when its context ended. -/
inductive LoopPoint
  | ticking
  | selecting
  | sendingVoted (height : UInt64)
  | stopped
  deriving DecidableEq, Repr

/-- The leader: its service, the heights that vote handlers are blocked sending on
`successfullyVotedBlocks`, and its round loop. -/
structure Leader where
  service : Service
  pendingVoted : List UInt64
  loop : LoopPoint

/-- A step of the leader: of its round loop, of a gossip handler of a `Committed` message, or of
block storage calling `HandleBlockConsensus`. -/
inductive LeaderEvent
  /-- the loop ticks; `proposal` is the block pair that consensus context, the signer and block
  storage give for the next height, `none` when one of them fails -/
  | tick (proposal : Option BlockPairContainer) (broadcastErr : Option String)
  /-- the loop's `select` receives the `i`-th blocked send -/
  | receiveVoted (i : Nat)
  | retryTimeout
  | contextDone
  | committedVote (senderNodeAddress signature status : Bytes)
  /-- the context of the handler blocked in the `i`-th send ends -/
  | voteCancelled (i : Nat)
  | blockConsensus (mode : HandleBlockConsensusMode) (blockPair prevCommittedBlockPair : Option BlockPairContainer)
  deriving DecidableEq, Repr

/-- `leaderConsensusRoundTick`: a new block pair when the last committed one was voted through,
then the broadcast of the last committed one; on a single validator, the send of its height. -/
def Leader.tick (l : Leader) (proposal : Option BlockPairContainer) (broadcastErr : Option String) : Leader :=
  let s := l.service
  let proposed : Option Service :=
    if s.lastSuccessfullyVotedBlock = s.lastCommittedBlockHeight protocol then proposal.map s.setLastCommittedBlock
    else some s
  match proposed with
  | none => { l with loop := .selecting }
  | some s =>
    match s.lastCommittedBlock, broadcastErr with
    | some _, none =>
      if config.genesisValidatorNodes.length = 1 then
        { l with service := s, loop := .sendingVoted (s.lastCommittedBlockHeight protocol) }
      else { l with service := s, loop := .selecting }
    | _, _ => { l with service := s, loop := .selecting }

/-- `leaderHandleCommittedVote`: a valid vote is added, and when the block has enough votes its
height is sent to the round loop, the handler blocking until the loop receives it. -/
def Leader.handleCommittedVote (l : Leader) (senderNodeAddress signature status : Bytes) : Leader :=
  let lastCommittedBlockHeight := l.service.lastCommittedBlockHeight protocol
  match leaderValidateVote access config senderNodeAddress signature status lastCommittedBlockHeight with
  | some _ => l
  | none =>
    let (enoughVotesReceived, s) := l.service.leaderAddVote config senderNodeAddress
    if enoughVotesReceived then { l with service := s, pendingVoted := l.pendingVoted ++ [lastCommittedBlockHeight] }
    else { l with service := s }

def Leader.step (l : Leader) : LeaderEvent → Leader
  | .tick proposal broadcastErr =>
    match l.loop with
    | .ticking => l.tick protocol config proposal broadcastErr
    | _ => l
  | .receiveVoted i =>
    match l.loop, l.pendingVoted[i]? with
    | .selecting, some height =>
      { service := { l.service with lastSuccessfullyVotedBlock := height },
        pendingVoted := l.pendingVoted.eraseIdx i, loop := .ticking }
    | _, _ => l
  | .retryTimeout =>
    match l.loop with
    | .selecting => { l with loop := .ticking }
    | _ => l
  | .contextDone =>
    match l.loop with
    | .selecting => { l with loop := .stopped }
    | _ => l
  | .committedVote senderNodeAddress signature status => l.handleCommittedVote protocol access config senderNodeAddress signature status
  | .voteCancelled i => { l with pendingVoted := l.pendingVoted.eraseIdx i }
  | .blockConsensus mode blockPair prevCommittedBlockPair =>
    { l with service := (l.service.handleBlockConsensusFromHandler protocol access config mode blockPair prevCommittedBlockPair).2 }

/-- The leader when its round loop starts: the last block pair block storage told it of, or the
genesis block it signed, and nothing voted through. -/
def newLeader (lastCommittedBlock : BlockPairContainer) : Leader :=
  ⟨⟨some lastCommittedBlock, blockHeightNone, [], false⟩, [], .ticking⟩

/-- The leaders that steps lead to from `l`. -/
def Leader.Reaches (l : Leader) : Leader → Prop :=
  Relation.ReflTransGen (fun l l' => ∃ event, l.step protocol access config event = l') l

end Service

end OrbsNetwork.ConsensusAlgo
