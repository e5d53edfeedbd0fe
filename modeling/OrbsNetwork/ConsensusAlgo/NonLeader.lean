import OrbsNetwork.ConsensusAlgo.Benchmark

/-! Gossip keeps every `Committed` message sent and may hand any of them to its recipient at any
time, again or never; `Commit` messages are not kept, since a validator checks whatever block pair
it is handed. -/

namespace OrbsNetwork.ConsensusAlgo

open BlockStorage

/-- `BenchmarkConsensusCommittedMessage`, with the recipient gossip sends it to. -/
structure CommittedMessage where
  recipientNodeAddress : Bytes
  status : Bytes
  senderNodeAddress : Bytes
  signature : Bytes
  deriving DecidableEq, Repr

/-- A validator that is not the leader: its node address, its service, and its block storage. -/
structure NonLeader where
  nodeAddress : Bytes
  service : Service
  persistence : InMemoryBlockPersistence

section NonLeader

variable (protocol : Protocol) (versions : Versions) (access : BenchmarkAccess) (config : Config)
  (buildStatus : UInt64 → Bytes)

/-- `nonLeaderValidateBlock`: the two heights agree and are at most the next one, and the block is
proven by the leader, against the last committed block when it is the next one. -/
def nonLeaderValidateBlock (blockPair : BlockPairContainer) (lastCommittedBlockHeight : UInt64)
    (lastCommittedBlock : Option BlockPairContainer) : Option String :=
  let blockHeight := (protocol.transactionsBlockHeight blockPair.transactionsBlock.header).toUInt64
  let rxBlockHeight := (protocol.resultsBlockHeight blockPair.resultsBlock.header).toUInt64
  if blockHeight ≠ rxBlockHeight then
    some s!"invalid block: block height of tx {blockHeight} is not equal rx {rxBlockHeight}"
  else if blockHeight > lastCommittedBlockHeight + 1 then
    some s!"invalid block: future block height {blockHeight}"
  else
    let prevCommittedBlockPair :=
      if lastCommittedBlock.isSome ∧ blockHeight = lastCommittedBlockHeight + 1 then lastCommittedBlock else none
    validateBlockConsensus protocol access config (some blockPair) prevCommittedBlockPair

/-- `saveToBlockStorage`: block storage's `CommitBlock`, skipped for the genesis block; `none` is a
panic of the persistence. -/
def saveToBlockStorage (bp : InMemoryBlockPersistence) (blockPair : BlockPairContainer) :
    Option (InMemoryBlockPersistence × Option String) :=
  if (protocol.transactionsBlockHeight blockPair.transactionsBlock.header).toUInt64 = 0 then some (bp, none)
  else commitBlock protocol versions bp blockPair

/-- `nonLeaderCommitAndReply`: the validator after it, and the message it sends or its error;
`none` is a panic of its block storage. `signed` is its signer's answer for the status. The
validator is the only writer of its last committed block, so the previous block always matches. -/
def NonLeader.nonLeaderCommitAndReply (nl : NonLeader) (blockPair : BlockPairContainer)
    (lastCommittedBlockHeight : UInt64) (signed : Except String Bytes) : Option (NonLeader × Except String CommittedMessage) :=
  match saveToBlockStorage protocol versions nl.persistence blockPair with
  | none => none
  | some (persistence, some err) => some ({ nl with persistence }, .error err)
  | some (persistence, none) =>
    let blockHeight := (protocol.transactionsBlockHeight blockPair.transactionsBlock.header).toUInt64
    let (nl, lastCommittedBlockHeight) :=
      if blockHeight = lastCommittedBlockHeight + 1 then
        ({ nl with persistence, service := nl.service.setLastCommittedBlock blockPair }, blockHeight)
      else ({ nl with persistence }, lastCommittedBlockHeight)
    let status := buildStatus lastCommittedBlockHeight
    match signed with
    | .error err => some (nl, .error err)
    | .ok signature =>
      match access.proofNodes blockPair.resultsBlock.blockProof with
      | [] => some (nl, .error "proof does not have a signer, unclear who to reply to")
      | (recipient, _) :: _ => some (nl, .ok ⟨recipient, status, nl.nodeAddress, signature⟩)

/-- `nonLeaderHandleCommit`. -/
def NonLeader.nonLeaderHandleCommit (nl : NonLeader) (blockPair : BlockPairContainer) (signed : Except String Bytes) :
    Option (NonLeader × Except String CommittedMessage) :=
  let lastCommittedBlockHeight := nl.service.lastCommittedBlockHeight protocol
  match nonLeaderValidateBlock protocol access config blockPair lastCommittedBlockHeight nl.service.lastCommittedBlock with
  | some err => some (nl, .error err)
  | none => nl.nonLeaderCommitAndReply protocol versions access buildStatus blockPair lastCommittedBlockHeight signed

/-- The leader, the other validators, and every `Committed` message they sent. -/
structure Network where
  leader : Leader
  nonLeaders : List NonLeader
  committed : List CommittedMessage

inductive NetworkEvent
  /-- a step of the leader's round loop or of its block storage; its vote handler runs only on a
  message gossip hands it -/
  | leader (event : LeaderEvent)
  /-- the `i`-th validator handles a `Commit` message with the block pair, its signer answering `signed` -/
  | nonLeaderCommit (i : Nat) (blockPair : BlockPairContainer) (signed : Except String Bytes)
  /-- gossip hands the `i`-th message sent to its recipient -/
  | deliverCommitted (i : Nat)

/-- A step of the network. A validator whose block storage panics does nothing, and a message to a
node that is not the leader is ignored there, as `HandleBenchmarkConsensusCommitted` does. -/
def Network.step (net : Network) : NetworkEvent → Network
  | .leader (.committedVote _ _ _) => net
  | .leader event => { net with leader := net.leader.step protocol access config event }
  | .nonLeaderCommit i blockPair signed =>
    match net.nonLeaders[i]? with
    | none => net
    | some nl =>
      match nl.nonLeaderHandleCommit protocol versions access config buildStatus blockPair signed with
      | none => net
      | some (nl, .ok message) => { net with nonLeaders := net.nonLeaders.set i nl, committed := net.committed ++ [message] }
      | some (nl, .error _) => { net with nonLeaders := net.nonLeaders.set i nl }
  | .deliverCommitted i =>
    match net.committed[i]? with
    | none => net
    | some message =>
      if message.recipientNodeAddress = config.benchmarkConsensusConstantLeader then
        let leader := net.leader.handleCommittedVote protocol access config message.senderNodeAddress
          message.signature message.status
        { net with leader }
      else net

/-- A validator that has not committed anything. -/
def newNonLeader (nodeAddress : Bytes) : NonLeader :=
  ⟨nodeAddress, ⟨none, blockHeightNone, [], false⟩, ⟨[]⟩⟩

/-- The network when the leader's round loop starts from its genesis block and the validators with
the node addresses have committed nothing. -/
def newNetwork (genesis : BlockPairContainer) (validators : List Bytes) : Network :=
  ⟨newLeader genesis, validators.map newNonLeader, []⟩

end NonLeader

end OrbsNetwork.ConsensusAlgo
