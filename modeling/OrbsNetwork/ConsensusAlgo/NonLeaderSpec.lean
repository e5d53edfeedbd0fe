import OrbsNetwork.ConsensusAlgo.NonLeader
import OrbsNetwork.ConsensusAlgo.BenchmarkSpec

/-! Over every interleaving of the leader, the validators and gossip, the leader proposes a block
pair only once a quorum of validators has stored a leader-signed chain up to the one before. -/

namespace OrbsNetwork.ConsensusAlgo

open BlockStorage

theorem toUInt64_eq_succ_iff {a n : Nat} (aLt : a < 2 ^ 64) (nLt : n + 1 < 2 ^ 64) :
    a.toUInt64 = n.toUInt64 + 1 ↔ a = n + 1 := by
  rw [← toUInt64_succ, ← UInt64.toNat_inj, UInt64.toNat_ofNat_of_lt' aLt, UInt64.toNat_ofNat_of_lt' nLt]

section Validator

variable {protocol : Protocol} {versions : Versions} {access : BenchmarkAccess} {config : Config}
  {buildStatus : UInt64 → Bytes}

theorem nonLeaderValidateBlock_eq_none {b : BlockPairContainer} {lastCommittedBlockHeight : UInt64}
    {lastCommittedBlock : Option BlockPairContainer}
    (valid : nonLeaderValidateBlock protocol access config b lastCommittedBlockHeight lastCommittedBlock = none) :
    (txHeight protocol b).toUInt64 = (protocol.resultsBlockHeight b.resultsBlock.header).toUInt64 ∧
      ProvenByLeader protocol access config
        (if lastCommittedBlock.isSome ∧ (txHeight protocol b).toUInt64 = lastCommittedBlockHeight + 1 then
          lastCommittedBlock else none) b := by
  unfold nonLeaderValidateBlock at valid
  dsimp only at valid
  split at valid
  · cases valid
  · next mismatch =>
    split at valid
    · cases valid
    · exact ⟨not_not.mp mismatch, validateBlockConsensus_eq_none_iff.mp valid⟩

/-- `nonLeaderCommitAndReply` saves the block pair; after a successful save it takes the block pair
as its last committed one when it is the next, and replies to the first signer with the status of
its last committed height. -/
theorem NonLeader.nonLeaderCommitAndReply_cases {nl nl' : NonLeader} {b : BlockPairContainer}
    {lastCommittedBlockHeight : UInt64} {signed : Except String Bytes} {result : Except String CommittedMessage}
    (replied : nl.nonLeaderCommitAndReply protocol versions access buildStatus b lastCommittedBlockHeight signed =
      some (nl', result)) :
    ∃ err, saveToBlockStorage protocol versions nl.persistence b = some (nl'.persistence, err) ∧
      nl'.nodeAddress = nl.nodeAddress ∧
      (err ≠ none → nl'.service = nl.service ∧ ∀ message, result ≠ .ok message) ∧
      (err = none →
        nl'.service = (if (txHeight protocol b).toUInt64 = lastCommittedBlockHeight + 1 then
          nl.service.setLastCommittedBlock b else nl.service) ∧
        ∀ message, result = .ok message →
          (∃ signature others, access.proofNodes b.resultsBlock.blockProof =
            (message.recipientNodeAddress, signature) :: others) ∧
          message.senderNodeAddress = nl.nodeAddress ∧
          message.status = buildStatus (if (txHeight protocol b).toUInt64 = lastCommittedBlockHeight + 1 then
            (txHeight protocol b).toUInt64 else lastCommittedBlockHeight)) := by
  unfold NonLeader.nonLeaderCommitAndReply at replied
  split at replied
  · cases replied
  · next persistence err saved =>
    cases replied
    exact ⟨some err, saved, rfl, fun _ => ⟨rfl, nofun⟩, nofun⟩
  · next persistence saved =>
    refine ⟨none, ?_⟩
    -- the last committed block is taken first; the reply is made only once the signer answered and
    -- the proof has a first signer
    by_cases next : (txHeight protocol b).toUInt64 = lastCommittedBlockHeight + 1
    all_goals
      simp only [next, if_true, if_false] at replied ⊢
      split at replied
      · cases replied
        exact ⟨saved, rfl, fun absurd => absurd rfl |>.elim, fun _ => ⟨rfl, nofun⟩⟩
      · split at replied
        · cases replied
          exact ⟨saved, rfl, fun absurd => absurd rfl |>.elim, fun _ => ⟨rfl, nofun⟩⟩
        · next recipient signature others nodes =>
          cases replied
          exact ⟨saved, rfl, fun absurd => absurd rfl |>.elim,
            fun _ => ⟨rfl, fun _ sent => by cases sent; exact ⟨⟨_, _, nodes⟩, rfl, rfl⟩⟩⟩

theorem toUInt64_ne_zero {a : Nat} (positive : 0 < a) (aLt : a < 2 ^ 64) : a.toUInt64 ≠ 0 := by
  intro zero
  have := congrArg UInt64.toNat zero
  rw [UInt64.toNat_ofNat_of_lt' aLt] at this
  simp only [UInt64.toNat_zero] at this
  omega

/-- A proof whose first signer is the leader sends the reply to the leader. -/
theorem ProvenByLeader.recipient_eq {prev : Option BlockPairContainer} {b : BlockPairContainer}
    (proven : ProvenByLeader protocol access config prev b) {recipient signature : Bytes} {others : List (Bytes × Bytes)}
    (nodes : access.proofNodes b.resultsBlock.blockProof = (recipient, signature) :: others) :
    recipient = config.benchmarkConsensusConstantLeader := by
  obtain ⟨leaderSignature, leaderOthers, leaderNodes, -⟩ := proven.signed
  rw [nodes] at leaderNodes
  exact (Prod.mk.inj (List.cons.inj leaderNodes).1).1

/-- What `saveToBlockStorage` does to the chain: what block storage's commit does, the genesis
block never being the next one. -/
theorem saveToBlockStorage_blocks {bp bp' : InMemoryBlockPersistence} {b : BlockPairContainer} {err : Option String}
    (txLt : txHeight protocol b < 2 ^ 64) (saved : saveToBlockStorage protocol versions bp b = some (bp', err)) :
    bp'.blocks = if validateProtocolVersion versions b = none ∧ txHeight protocol b = bp.blocks.length + 1
      then bp.blocks ++ [b] else bp.blocks := by
  unfold saveToBlockStorage at saved
  split_ifs at saved with genesis
  · cases saved
    have zero : txHeight protocol b = 0 := by
      by_contra positive
      exact toUInt64_ne_zero (Nat.pos_of_ne_zero positive) txLt genesis
    rw [if_neg fun appended => by omega]
  · exact commitBlock_blocks saved

/-- A save of the next block pair that reports no error appended it, and its protocol version is
right. -/
theorem saveToBlockStorage_of_next {bp bp' : InMemoryBlockPersistence} {b : BlockPairContainer}
    (txLt : txHeight protocol b < 2 ^ 64) (saved : saveToBlockStorage protocol versions bp b = some (bp', none))
    (next : txHeight protocol b = bp.blocks.length + 1) :
    validateProtocolVersion versions b = none ∧ bp'.blocks = bp.blocks ++ [b] := by
  have notGenesis : (txHeight protocol b).toUInt64 ≠ 0 := toUInt64_ne_zero (by omega) txLt
  have versionsOk : validateProtocolVersion versions b = none := by
    cases mismatch : validateProtocolVersion versions b with
    | none => rfl
    | some err => simp [saveToBlockStorage, notGenesis, commitBlock, mismatch] at saved
  exact ⟨versionsOk, by rw [saveToBlockStorage_blocks txLt saved, if_pos ⟨versionsOk, next⟩]⟩

theorem saveToBlockStorage_of_appended {bp : InMemoryBlockPersistence} {b : BlockPairContainer}
    (versionsOk : validateProtocolVersion versions b = none) (next : txHeight protocol b = bp.blocks.length + 1)
    (sameHeight : protocol.resultsBlockHeight b.resultsBlock.header = txHeight protocol b)
    (lengthLt : bp.blocks.length + 2 < 2 ^ 64) :
    saveToBlockStorage protocol versions bp b = some (⟨bp.blocks ++ [b]⟩, none) := by
  have notGenesis : (txHeight protocol b).toUInt64 ≠ 0 := toUInt64_ne_zero (by omega) (by omega)
  rw [saveToBlockStorage, if_neg notGenesis]
  exact commitBlock_of_next versionsOk lengthLt next sameHeight

variable (protocol versions access config) in
/-- A validator's chain as benchmark consensus leaves it: well formed, every block pair proven by
the leader against the one stored before it, and the last committed block the chain's top. -/
structure ValidatorChain (nl : NonLeader) : Prop where
  wellFormed : WellFormedChain protocol versions nl.persistence.blocks
  proven : ∀ i b, nl.persistence.blocks[i]? = some b →
    ProvenByLeader protocol access config (nl.persistence.blocks.take i).getLast? b
  top : nl.service.lastCommittedBlock = nl.persistence.blocks.getLast?

theorem validatorChain_newNonLeader (nodeAddress : Bytes) :
    ValidatorChain protocol versions access config (newNonLeader nodeAddress) :=
  ⟨wellFormedChain_nil, fun _ _ stored => by simp [newNonLeader] at stored, rfl⟩

variable {nl nl' : NonLeader}

theorem ValidatorChain.lastCommittedBlockHeight (chain : ValidatorChain protocol versions access config nl) :
    nl.service.lastCommittedBlockHeight protocol = nl.persistence.blocks.length.toUInt64 := by
  rw [Service.lastCommittedBlockHeight, chain.top]
  exact chain.wellFormed.getBlockHeight_getLastBlock

theorem ValidatorChain.of_same (chain : ValidatorChain protocol versions access config nl)
    (blocks : nl'.persistence.blocks = nl.persistence.blocks)
    (lastCommittedBlock : nl'.service.lastCommittedBlock = nl.service.lastCommittedBlock) :
    ValidatorChain protocol versions access config nl' := by
  refine ⟨blocks ▸ chain.wellFormed, blocks ▸ chain.proven, ?_⟩
  rw [lastCommittedBlock, blocks, chain.top]

/-- Appending the next block pair, proven against the chain's top, and taking it as the last
committed one keeps the chain. -/
theorem ValidatorChain.append (chain : ValidatorChain protocol versions access config nl) {b : BlockPairContainer}
    (versionsOk : validateProtocolVersion versions b = none) (next : txHeight protocol b = nl.persistence.blocks.length + 1)
    (proven : ProvenByLeader protocol access config nl.persistence.blocks.getLast? b)
    (blocks : nl'.persistence.blocks = nl.persistence.blocks ++ [b]) (lastCommittedBlock : nl'.service.lastCommittedBlock = some b) :
    ValidatorChain protocol versions access config nl' := by
  refine ⟨blocks ▸ chain.wellFormed.append versionsOk next, fun i b' stored => ?_, ?_⟩
  · rw [blocks] at stored ⊢
    rcases getElem?_append_singleton_cases stored with old | ⟨rfl, rfl⟩
    · have inside : i ≤ nl.persistence.blocks.length := (List.getElem?_eq_some_iff.mp old).1.le
      rw [List.take_append_of_le_length inside]
      exact chain.proven i b' old
    · rwa [List.take_left]
  · rw [lastCommittedBlock, blocks, List.getLast?_append_of_ne_nil _ (List.cons_ne_nil b [])]
    rfl

theorem ite_isSome_and_eq {α : Type} (o : Option α) {p : Prop} [Decidable p] (holds : p) :
    (if o.isSome ∧ p then o else none) = o := by
  cases o <;> simp [holds]

/-- A validator's handler keeps its chain, whatever block pair below `math.MaxUint64` it is handed:
the chain grows only by the next block pair proven against its top, and a reply goes to the leader
with the height of the chain. -/
theorem ValidatorChain.nonLeaderHandleCommit (chain : ValidatorChain protocol versions access config nl)
    (lengthLt : nl.persistence.blocks.length + 1 < 2 ^ 64)
    (rsHeightsLt : ∀ raw, protocol.resultsBlockHeight raw < 2 ^ 64) {b : BlockPairContainer}
    (txLt : txHeight protocol b + 1 < 2 ^ 64) {signed : Except String Bytes} {result : Except String CommittedMessage}
    (handled : nl.nonLeaderHandleCommit protocol versions access config buildStatus b signed = some (nl', result)) :
    ValidatorChain protocol versions access config nl' ∧ nl'.nodeAddress = nl.nodeAddress ∧
      nl.persistence.blocks <+: nl'.persistence.blocks ∧ nl'.persistence.blocks.length + 1 < 2 ^ 64 ∧
      ∀ message, result = .ok message → message.recipientNodeAddress = config.benchmarkConsensusConstantLeader ∧
        message.senderNodeAddress = nl.nodeAddress ∧ message.status = buildStatus nl'.persistence.blocks.length.toUInt64 := by
  have nextIff : (txHeight protocol b).toUInt64 = nl.persistence.blocks.length.toUInt64 + 1 ↔
      txHeight protocol b = nl.persistence.blocks.length + 1 := toUInt64_eq_succ_iff (by omega) lengthLt
  unfold NonLeader.nonLeaderHandleCommit at handled
  dsimp only at handled
  split at handled
  · cases handled
    exact ⟨chain, rfl, List.prefix_refl _, lengthLt, nofun⟩
  · next valid =>
    obtain ⟨sameHeight, proven⟩ := nonLeaderValidateBlock_eq_none valid
    obtain ⟨err, saved, address, refused, accepted⟩ := NonLeader.nonLeaderCommitAndReply_cases handled
    rw [chain.lastCommittedBlockHeight] at proven accepted
    by_cases appended : err = none ∧ txHeight protocol b = nl.persistence.blocks.length + 1
    · -- the next block pair, saved: it is appended and becomes the last committed one
      obtain ⟨rfl, next⟩ := appended
      obtain ⟨versionsOk, stored⟩ := saveToBlockStorage_of_next (by omega) saved next
      obtain ⟨service, replies⟩ := accepted rfl
      rw [if_pos (nextIff.mpr next)] at service replies
      rw [ite_isSome_and_eq _ (nextIff.mpr next), chain.top] at proven
      refine ⟨chain.append versionsOk next proven stored (by rw [service]; rfl), address,
        by rw [stored]; exact List.prefix_append _ _, by rw [stored, List.length_append, List.length_singleton]; omega,
        fun message sent => ?_⟩
      obtain ⟨⟨signature, others, nodes⟩, sender, status⟩ := replies message sent
      refine ⟨proven.recipient_eq nodes, sender, ?_⟩
      rw [status, stored, List.length_append, List.length_singleton, ← next]
    · -- any other block pair leaves the chain and the last committed block as they are
      have unchanged : nl'.persistence.blocks = nl.persistence.blocks := by
        rw [saveToBlockStorage_blocks (by omega) saved]
        split_ifs with both
        · have sameHeight' : protocol.resultsBlockHeight b.resultsBlock.header = txHeight protocol b := by
            rw [← UInt64.toNat_inj, UInt64.toNat_ofNat_of_lt' (show txHeight protocol b < 2 ^ 64 by omega),
              UInt64.toNat_ofNat_of_lt' (rsHeightsLt _)] at sameHeight
            exact sameHeight.symm
          rw [saveToBlockStorage_of_appended both.1 both.2 sameHeight' (by omega)] at saved
          exact absurd ⟨(Prod.mk.inj (Option.some.inj saved)).2.symm, both.2⟩ appended
        · rfl
      have notNext : err = none → txHeight protocol b ≠ nl.persistence.blocks.length + 1 :=
        fun ok next => appended ⟨ok, next⟩
      refine ⟨chain.of_same unchanged ?_, address, by rw [unchanged], by rw [unchanged]; exact lengthLt,
        fun message sent => ?_⟩
      · by_cases ok : err = none
        · rw [(accepted ok).1, if_neg (mt nextIff.mp (notNext ok))]
        · rw [(refused ok).1]
      · by_cases ok : err = none
        · obtain ⟨-, replies⟩ := accepted ok
          rw [if_neg (mt nextIff.mp (notNext ok))] at replies
          obtain ⟨⟨signature, others, nodes⟩, sender, status⟩ := replies message sent
          exact ⟨proven.recipient_eq nodes, sender, by rw [status, unchanged]⟩
        · exact absurd sent ((refused ok).2 message)

end Validator

section Leader

variable {protocol : Protocol} {access : BenchmarkAccess} {config : Config}

/-- A step of the leader other than its vote handler keeps the last committed block pair and its
voters, or clears the voters. -/
theorem Leader.step_voters (l : Leader) {event : LeaderEvent}
    (notVote : ∀ senderNodeAddress signature status, event ≠ .committedVote senderNodeAddress signature status) :
    ((l.step protocol access config event).service.lastCommittedBlock = l.service.lastCommittedBlock ∧
      (l.step protocol access config event).service.lastCommittedBlockVoters = l.service.lastCommittedBlockVoters) ∨
    (l.step protocol access config event).service.lastCommittedBlockVoters = [] := by
  cases event with
  | tick proposal broadcastErr =>
    simp only [Leader.step]
    split
    · obtain ⟨-, same | ⟨blockPair, -, -, proposed⟩⟩ := @Leader.tick_frame protocol config l proposal broadcastErr
      · exact .inl ⟨by rw [same], by rw [same]⟩
      · exact .inr (by rw [proposed]; rfl)
    · exact .inl ⟨rfl, rfl⟩
  | receiveVoted | retryTimeout | contextDone =>
    simp only [Leader.step]
    split <;> exact .inl ⟨rfl, rfl⟩
  | committedVote senderNodeAddress signature status => exact absurd rfl (notVote senderNodeAddress signature status)
  | voteCancelled i => exact .inl ⟨rfl, rfl⟩
  | blockConsensus mode blockPair prevCommittedBlockPair =>
    simp only [Leader.step]
    rcases l.service.handleBlockConsensusFromHandler_service mode blockPair prevCommittedBlockPair with
      same | ⟨newer, -, -, updated⟩
    · exact .inl ⟨by rw [same], by rw [same]⟩
    · exact .inr (by rw [updated]; rfl)

/-- The vote handler keeps the last committed block pair, and a voter it adds sent a status of that
block pair's height. -/
theorem Leader.handleCommittedVote_voters (l : Leader) (senderNodeAddress signature status : Bytes) :
    (l.handleCommittedVote protocol access config senderNodeAddress signature status).service.lastCommittedBlock =
        l.service.lastCommittedBlock ∧
      ∀ v ∈ (l.handleCommittedVote protocol access config senderNodeAddress signature status).service.lastCommittedBlockVoters,
        v ∈ l.service.lastCommittedBlockVoters ∨
          v = senderNodeAddress ∧ access.statusLastCommittedBlockHeight status = l.service.lastCommittedBlockHeight protocol := by
  rcases l.handleCommittedVote_cases senderNodeAddress signature status with same | ⟨⟨-, height, -⟩, added⟩
  · rw [same]
    exact ⟨rfl, fun v member => .inl member⟩
  · rw [added]
    exact ⟨rfl, fun v member => (FirstSeen.mem_note.mp member).imp id fun same => ⟨same, height⟩⟩

end Leader

/-- Some validator with the node address has stored at least `height` block pairs. -/
def Stored (nonLeaders : List NonLeader) (nodeAddress : Bytes) (height : Nat) : Prop :=
  ∃ nl ∈ nonLeaders, nl.nodeAddress = nodeAddress ∧ height ≤ nl.persistence.blocks.length

/-- Replacing a validator by one with the same address and a longer chain keeps what is stored. -/
theorem Stored.set {nonLeaders : List NonLeader} {nodeAddress : Bytes} {height : Nat}
    (stored : Stored nonLeaders nodeAddress height) {i : Nat} {nl nl' : NonLeader} (atIndex : nonLeaders[i]? = some nl)
    (address : nl'.nodeAddress = nl.nodeAddress) (grows : nl.persistence.blocks.length ≤ nl'.persistence.blocks.length) :
    Stored (nonLeaders.set i nl') nodeAddress height := by
  obtain ⟨nl₀, member, sameAddress, within⟩ := stored
  obtain ⟨k, atK⟩ := List.mem_iff_getElem?.mp member
  have inside : i < nonLeaders.length := (List.getElem?_eq_some_iff.mp atIndex).1
  by_cases same : k = i
  · rw [same, atIndex] at atK
    cases atK
    exact ⟨nl', List.mem_of_getElem? (List.getElem?_set_self inside), address.trans sameAddress, within.trans grows⟩
  · exact ⟨nl₀, List.mem_of_getElem? (by rwa [List.getElem?_set_ne (Ne.symm same)]), sameAddress, within⟩

section Network

variable {protocol : Protocol} {versions : Versions} {access : BenchmarkAccess} {config : Config}
  {buildStatus : UInt64 → Bytes}

theorem Network.step_leader (net : Network) {event : LeaderEvent}
    (notVote : ∀ senderNodeAddress signature status, event ≠ .committedVote senderNodeAddress signature status) :
    net.step protocol versions access config buildStatus (.leader event) =
      { net with leader := net.leader.step protocol access config event } := by
  cases event with
  | committedVote senderNodeAddress signature status => exact absurd rfl (notVote senderNodeAddress signature status)
  | _ => rfl

/-- What a step of the network can do: nothing; a step of the leader other than its vote handler;
a validator's handler on the block pair of the event, whose reply, if any, joins the messages
sent; or the leader's vote handler on a message sent to it. -/
theorem Network.step_cases (net : Network) (event : NetworkEvent) :
    net.step protocol versions access config buildStatus event = net ∨
    (∃ leaderEvent, (∀ senderNodeAddress signature status, leaderEvent ≠ .committedVote senderNodeAddress signature status) ∧
      event = .leader leaderEvent ∧
      net.step protocol versions access config buildStatus event =
        { net with leader := net.leader.step protocol access config leaderEvent }) ∨
    (∃ i b signed nl nl' result, event = .nonLeaderCommit i b signed ∧ net.nonLeaders[i]? = some nl ∧
      nl.nonLeaderHandleCommit protocol versions access config buildStatus b signed = some (nl', result) ∧
      ∃ committed, (∀ message ∈ committed, message ∈ net.committed ∨ result = .ok message) ∧
        (∀ message ∈ net.committed, message ∈ committed) ∧
        net.step protocol versions access config buildStatus event =
          { net with nonLeaders := net.nonLeaders.set i nl', committed }) ∨
    (∃ message ∈ net.committed,
      net.step protocol versions access config buildStatus event =
        { net with leader := (net.leader.handleCommittedVote protocol access config message.senderNodeAddress
            message.signature message.status) }) := by
  cases event with
  | leader leaderEvent =>
    by_cases vote : ∃ senderNodeAddress signature status, leaderEvent = .committedVote senderNodeAddress signature status
    · obtain ⟨senderNodeAddress, signature, status, rfl⟩ := vote
      exact .inl rfl
    · simp only [not_exists] at vote
      exact .inr (.inl ⟨leaderEvent, vote, rfl, net.step_leader vote⟩)
  | nonLeaderCommit i blockPair signed =>
    simp only [Network.step]
    split
    · exact .inl rfl
    · next nl atIndex =>
      split
      · exact .inl rfl
      · next nl' message handled =>
        refine .inr (.inr (.inl ⟨i, blockPair, signed, nl, nl', _, rfl, atIndex, handled, _, fun m member => ?_,
          fun m member => List.mem_append_left _ member, rfl⟩))
        rcases List.mem_append.mp member with old | sent
        · exact .inl old
        · exact .inr (by rw [List.mem_singleton.mp sent])
      · next nl' err handled =>
        exact .inr (.inr (.inl ⟨i, blockPair, signed, nl, nl', _, rfl, atIndex, handled, _, fun _ member => .inl member,
          fun _ member => member, rfl⟩))
  | deliverCommitted i =>
    simp only [Network.step]
    split
    · exact .inl rfl
    · next message sent =>
      split
      · exact .inr (.inr (.inr ⟨message, List.mem_of_getElem? sent, rfl⟩))
      · exact .inl rfl

variable (protocol versions access config buildStatus) in
/-- What holds of the validators along every run: each one's chain, below the greatest `uint64`
height, and every reply ever sent goes to the leader with the status of a height its sender has
stored. -/
structure ValidatorsInvariant (net : Network) : Prop where
  validators : ∀ nl ∈ net.nonLeaders, ValidatorChain protocol versions access config nl
  lengthLt : ∀ nl ∈ net.nonLeaders, nl.persistence.blocks.length + 1 < 2 ^ 64
  sent : ∀ message ∈ net.committed, message.recipientNodeAddress = config.benchmarkConsensusConstantLeader ∧
    ∃ height, message.status = buildStatus height.toUInt64 ∧ height < 2 ^ 64 ∧
      Stored net.nonLeaders message.senderNodeAddress height

variable (protocol versions access config buildStatus) in
/-- What holds of the network along every run in which the leader keeps to `Leader.Relies`: the
validators' invariant, the leader's, and every voter of the leader's last committed block pair a
validator that stored its height. -/
structure NetworkInvariant (net : Network) : Prop where
  validators : ValidatorsInvariant protocol versions access config buildStatus net
  leader : QuorumInvariant protocol access config net.leader
  voters : ∀ v ∈ net.leader.service.lastCommittedBlockVoters,
    Stored net.nonLeaders v (net.leader.service.lastCommittedBlockHeight protocol).toNat

theorem validatorsInvariant_newNetwork (genesis : BlockPairContainer) (validators : List Bytes) :
    ValidatorsInvariant protocol versions access config buildStatus (newNetwork genesis validators) where
  validators nl member := by
    obtain ⟨nodeAddress, -, rfl⟩ := List.mem_map.mp member
    exact validatorChain_newNonLeader nodeAddress
  lengthLt nl member := by
    obtain ⟨nodeAddress, -, rfl⟩ := List.mem_map.mp member
    norm_num [newNonLeader]
  sent := nofun

theorem networkInvariant_newNetwork {genesis : BlockPairContainer}
    (genesisBelow : getBlockHeight protocol (some genesis) ≠ blockHeightNone) (validators : List Bytes) :
    NetworkInvariant protocol versions access config buildStatus (newNetwork genesis validators) :=
  ⟨validatorsInvariant_newNetwork genesis validators, quorumInvariant_newLeader genesisBelow, nofun⟩

variable {net : Network}

variable (protocol) in
/-- A `Commit` message of the event hands its validator a block pair below `math.MaxUint64`. At that
height block storage's next height wraps: a validator whose chain is one below it appends the block
pair, is told of a future block, and keeps its last committed block pair. -/
def NetworkEvent.BelowMaxHeight (event : NetworkEvent) : Prop :=
  ∀ i blockPair signed, event = .nonLeaderCommit i blockPair signed → txHeight protocol blockPair + 1 < 2 ^ 64

variable (protocol versions access config buildStatus) in
/-- The networks that steps lead to from `net` when every `Commit` message hands its validator a
block pair below `math.MaxUint64`. -/
def Network.ReachesBelowMax (net : Network) : Network → Prop :=
  Relation.ReflTransGen (fun net net' => ∃ event, net.step protocol versions access config buildStatus event = net' ∧
    event.BelowMaxHeight protocol) net

variable (protocol versions access config buildStatus) in
/-- The networks that steps lead to from `net` when, besides, the leader's steps keep to
`Leader.Relies`. -/
def Network.ReachesAbove (net : Network) : Network → Prop :=
  Relation.ReflTransGen (fun net net' => ∃ event, net.step protocol versions access config buildStatus event = net' ∧
    event.BelowMaxHeight protocol ∧ ∀ leaderEvent, event = .leader leaderEvent → net.leader.Relies protocol leaderEvent) net

/-- Steps of the leader leave the validators and the messages sent. -/
theorem ValidatorsInvariant.with_leader (inv : ValidatorsInvariant protocol versions access config buildStatus net)
    (leader : Leader) : ValidatorsInvariant protocol versions access config buildStatus { net with leader } :=
  ⟨inv.validators, inv.lengthLt, inv.sent⟩

theorem NetworkInvariant.leaderStep (inv : NetworkInvariant protocol versions access config buildStatus net)
    {event : LeaderEvent}
    (notVote : ∀ senderNodeAddress signature status, event ≠ .committedVote senderNodeAddress signature status)
    (relies : net.leader.Relies protocol event) :
    NetworkInvariant protocol versions access config buildStatus
      { net with leader := net.leader.step protocol access config event } := by
  refine ⟨inv.validators.with_leader _, inv.leader.step event relies, fun v voter => ?_⟩
  dsimp only at voter ⊢
  rcases net.leader.step_voters notVote with ⟨sameBlock, sameVoters⟩ | cleared
  · rw [sameVoters] at voter
    rw [Service.lastCommittedBlockHeight, sameBlock]
    exact inv.voters v voter
  · rw [cleared] at voter
    cases voter

theorem NetworkInvariant.deliverCommitted (inv : NetworkInvariant protocol versions access config buildStatus net)
    (statusRoundTrip : ∀ height, access.statusLastCommittedBlockHeight (buildStatus height) = height)
    {message : CommittedMessage} (member : message ∈ net.committed) :
    NetworkInvariant protocol versions access config buildStatus
      { net with leader := (net.leader.handleCommittedVote protocol access config message.senderNodeAddress
          message.signature message.status) } := by
  obtain ⟨sameBlock, joined⟩ :=
    net.leader.handleCommittedVote_voters message.senderNodeAddress message.signature message.status
  refine ⟨inv.validators.with_leader _, inv.leader.handleCommittedVote _ _ _, fun v voter => ?_⟩
  dsimp only at voter ⊢
  rw [Service.lastCommittedBlockHeight, sameBlock, ← Service.lastCommittedBlockHeight]
  rcases joined v voter with old | ⟨rfl, height⟩
  · exact inv.voters v old
  · -- the vote's status is that of a height its sender stored, which the leader found its own
    obtain ⟨-, stored, status, storedLt, storedChain⟩ := inv.validators.sent message member
    rw [status, statusRoundTrip] at height
    rw [← height, UInt64.toNat_ofNat_of_lt' storedLt]
    exact storedChain

section Heights

variable (rsHeightsLt : ∀ raw, protocol.resultsBlockHeight raw < 2 ^ 64)

include rsHeightsLt

/-- A validator's handler on a block pair below `math.MaxUint64` keeps the validators' invariant,
and what the validators have stored. -/
theorem ValidatorsInvariant.nonLeaderCommit (inv : ValidatorsInvariant protocol versions access config buildStatus net)
    {i : Nat} {nl nl' : NonLeader} (atIndex : net.nonLeaders[i]? = some nl) {b : BlockPairContainer}
    (txLt : txHeight protocol b + 1 < 2 ^ 64) {signed : Except String Bytes} {result : Except String CommittedMessage}
    (handled : nl.nonLeaderHandleCommit protocol versions access config buildStatus b signed = some (nl', result))
    {committed : List CommittedMessage} (sending : ∀ message ∈ committed, message ∈ net.committed ∨ result = .ok message) :
    ValidatorsInvariant protocol versions access config buildStatus
        { net with nonLeaders := net.nonLeaders.set i nl', committed } ∧
      ∀ {v height}, Stored net.nonLeaders v height → Stored (net.nonLeaders.set i nl') v height := by
  have member := List.mem_of_getElem? atIndex
  obtain ⟨chain', address, grows, lengthLt', replies⟩ :=
    (inv.validators nl member).nonLeaderHandleCommit (inv.lengthLt nl member) rsHeightsLt txLt handled
  have inside : i < net.nonLeaders.length := (List.getElem?_eq_some_iff.mp atIndex).1
  have keeps : ∀ {v height}, Stored net.nonLeaders v height → Stored (net.nonLeaders.set i nl') v height :=
    fun stored => stored.set atIndex address grows.length_le
  refine ⟨⟨fun nl'' member => ?_, fun nl'' member => ?_, fun message member => ?_⟩, keeps⟩
  · rcases List.mem_or_eq_of_mem_set member with old | rfl
    · exact inv.validators nl'' old
    · exact chain'
  · rcases List.mem_or_eq_of_mem_set member with old | rfl
    · exact inv.lengthLt nl'' old
    · exact lengthLt'
  · rcases sending message member with old | sent
    · obtain ⟨toLeader, height, status, heightLt, stored⟩ := inv.sent message old
      exact ⟨toLeader, height, status, heightLt, keeps stored⟩
    · obtain ⟨toLeader, sender, status⟩ := replies message sent
      refine ⟨toLeader, nl'.persistence.blocks.length, status, by omega, ?_⟩
      exact ⟨nl', List.mem_of_getElem? (List.getElem?_set_self inside), address.trans sender.symm, le_refl _⟩

theorem ValidatorsInvariant.step (inv : ValidatorsInvariant protocol versions access config buildStatus net)
    {event : NetworkEvent} (below : event.BelowMaxHeight protocol) :
    ValidatorsInvariant protocol versions access config buildStatus
      (net.step protocol versions access config buildStatus event) := by
  rcases net.step_cases event with same | ⟨_, _, _, stepped⟩ |
      ⟨i, b, signed, nl, nl', result, rfl, atIndex, handled, committed, sending, -, stepped⟩ | ⟨_, _, stepped⟩
  · rwa [same]
  · rw [stepped]
    exact inv.with_leader _
  · rw [stepped]
    exact (inv.nonLeaderCommit rsHeightsLt atIndex (below i b signed rfl) handled sending).1
  · rw [stepped]
    exact inv.with_leader _

theorem NetworkInvariant.step (inv : NetworkInvariant protocol versions access config buildStatus net)
    (statusRoundTrip : ∀ height, access.statusLastCommittedBlockHeight (buildStatus height) = height)
    {event : NetworkEvent} (below : event.BelowMaxHeight protocol)
    (relies : ∀ leaderEvent, event = .leader leaderEvent → net.leader.Relies protocol leaderEvent) :
    NetworkInvariant protocol versions access config buildStatus
      (net.step protocol versions access config buildStatus event) := by
  rcases net.step_cases event with same | ⟨leaderEvent, notVote, rfl, stepped⟩ |
      ⟨i, b, signed, nl, nl', result, rfl, atIndex, handled, committed, sending, -, stepped⟩ | ⟨message, member, stepped⟩
  · rwa [same]
  · rw [stepped]
    exact inv.leaderStep notVote (relies leaderEvent rfl)
  · rw [stepped]
    obtain ⟨validators', keeps⟩ :=
      inv.validators.nonLeaderCommit rsHeightsLt atIndex (below i b signed rfl) handled sending
    exact ⟨validators', inv.leader, fun v voter => keeps (inv.voters v voter)⟩
  · rw [stepped]
    exact inv.deliverCommitted statusRoundTrip member

theorem ValidatorsInvariant.reachesBelowMax (inv : ValidatorsInvariant protocol versions access config buildStatus net)
    {net' : Network} (run : net.ReachesBelowMax protocol versions access config buildStatus net') :
    ValidatorsInvariant protocol versions access config buildStatus net' := by
  induction run with
  | refl => exact inv
  | tail _ step ih =>
    obtain ⟨event, rfl, below⟩ := step
    exact ih.step rsHeightsLt below

theorem NetworkInvariant.reachesAbove (inv : NetworkInvariant protocol versions access config buildStatus net)
    (statusRoundTrip : ∀ height, access.statusLastCommittedBlockHeight (buildStatus height) = height)
    {net' : Network} (run : net.ReachesAbove protocol versions access config buildStatus net') :
    NetworkInvariant protocol versions access config buildStatus net' := by
  induction run with
  | refl => exact inv
  | tail _ step ih =>
    obtain ⟨event, rfl, below, relies⟩ := step
    exact ih.step rsHeightsLt statusRoundTrip below relies

end Heights

/-- Benchmark consensus crypto as in `acceptingAccess`, with statuses whose length is their height. -/
def unaryStatusAccess : BenchmarkAccess :=
  { acceptingAccess with statusLastCommittedBlockHeight := fun status => status.length.toUInt64 }

def unaryStatus (height : UInt64) : Bytes :=
  List.replicate height.toNat 0

theorem unaryStatus_roundTrip (height : UInt64) :
    unaryStatusAccess.statusLastCommittedBlockHeight (unaryStatus height) = height := by
  simp [unaryStatusAccess, unaryStatus]

/-- Over every run of the benchmark consensus network in which no `Commit` message hands a
validator a block pair at `math.MaxUint64`, whatever other block pairs the validators are handed and
whatever gossip delivers: every validator stores a well formed chain of block pairs that the leader
proved one by one against the block pair before, with the chain's top as its last committed block
pair, and every reply ever sent goes to the leader with the status of a height that its sender has
stored. -/
theorem network_validators_store_leader_chains
    (rsHeightsLt : ∀ raw, protocol.resultsBlockHeight raw < 2 ^ 64) {genesis : BlockPairContainer}
    {validators : List Bytes} {net : Network}
    (run : (newNetwork genesis validators).ReachesBelowMax protocol versions access config buildStatus net) :
    (∀ nl ∈ net.nonLeaders, ValidatorChain protocol versions access config nl) ∧
      ∀ message ∈ net.committed, message.recipientNodeAddress = config.benchmarkConsensusConstantLeader ∧
        ∃ height, message.status = buildStatus height.toUInt64 ∧ Stored net.nonLeaders message.senderNodeAddress height := by
  have inv := (validatorsInvariant_newNetwork genesis validators).reachesBelowMax rsHeightsLt run
  refine ⟨inv.validators, fun message member => ?_⟩
  obtain ⟨toLeader, height, status, -, stored⟩ := inv.sent message member
  exact ⟨toLeader, height, status, stored⟩

/-- The network after validator `[2]` handled the commit of the leader's first block pair. -/
def committedNetwork : Network :=
  ⟨newLeader (numberedBlock 1), [⟨[2], ⟨some (numberedBlock 1), blockHeightNone, [], false⟩, ⟨[numberedBlock 1]⟩⟩],
    [⟨[1], [0], [2], []⟩]⟩

theorem network_validators_store_leader_chains_after_commit :
    (∀ nl ∈ committedNetwork.nonLeaders, ValidatorChain firstByteProtocol versionOne unaryStatusAccess twoValidators nl) ∧
      ∀ message ∈ committedNetwork.committed, message.recipientNodeAddress = twoValidators.benchmarkConsensusConstantLeader ∧
        ∃ height, message.status = unaryStatus height.toUInt64 ∧ Stored committedNetwork.nonLeaders message.senderNodeAddress height :=
  have run : (newNetwork (numberedBlock 1) [[2]]).ReachesBelowMax firstByteProtocol versionOne unaryStatusAccess twoValidators
      unaryStatus committedNetwork :=
    .single ⟨.nonLeaderCommit 0 (numberedBlock 1) (.ok []), rfl, fun _ _ _ committed => by cases committed; decide⟩
  network_validators_store_leader_chains firstByteProtocol_results_heights_lt run

/-- Whenever the leader's last committed block pair counts as voted through, the condition on which
its next tick proposes a new one, its voters are distinct genesis validators, each of which has
stored a chain of at least that block pair's height, proven by the leader block by block, and with
the leader they make up the required quorum. This holds over every interleaving of the leader's
round loop and block storage, the validators' handlers on any block pairs below `math.MaxUint64`,
and gossip handing their replies to the leader in any order, any number of times or never, as long
as no block pair the leader takes or proposes is at the height `blockHeightNone` stands for. -/
theorem leader_proposes_after_quorum_stored
    (rsHeightsLt : ∀ raw, protocol.resultsBlockHeight raw < 2 ^ 64)
    (statusRoundTrip : ∀ height, access.statusLastCommittedBlockHeight (buildStatus height) = height)
    {genesis : BlockPairContainer} (genesisBelow : getBlockHeight protocol (some genesis) ≠ blockHeightNone)
    {validators : List Bytes} {net : Network}
    (run : (newNetwork genesis validators).ReachesAbove protocol versions access config buildStatus net)
    (votedThrough : net.leader.service.lastSuccessfullyVotedBlock = net.leader.service.lastCommittedBlockHeight protocol) :
    requiredQuorumSize config ≤ net.leader.service.lastCommittedBlockVoters.length + 1 ∧
      net.leader.service.lastCommittedBlockVoters.Nodup ∧
      ∀ v ∈ net.leader.service.lastCommittedBlockVoters, v ∈ config.genesisValidatorNodes ∧
        ∃ nl ∈ net.nonLeaders, nl.nodeAddress = v ∧ ValidatorChain protocol versions access config nl ∧
          (net.leader.service.lastCommittedBlockHeight protocol).toNat ≤ nl.persistence.blocks.length := by
  have inv := (networkInvariant_newNetwork genesisBelow validators).reachesAbove rsHeightsLt statusRoundTrip run
  have reached := inv.leader.reachedQuorum votedThrough
  refine ⟨inv.leader.quorum reached, inv.leader.votersNodup, fun v voter => ?_⟩
  obtain ⟨nl, member, address, stored⟩ := inv.voters v voter
  exact ⟨(inv.leader.voters v voter).1, nl, member, address, inv.validators.validators nl member, stored⟩

/-- The network once validator `[2]` stored the leader's first block pair, its vote reached the
leader, and the round loop received the voted height. -/
def votedNetwork : Network :=
  ⟨votedLeader, committedNetwork.nonLeaders, committedNetwork.committed⟩

theorem leader_proposes_after_quorum_stored_of_two :
    getBlockHeight firstByteProtocol (some (numberedBlock 1)) ≠ blockHeightNone ∧
    requiredQuorumSize twoValidators ≤ votedNetwork.leader.service.lastCommittedBlockVoters.length + 1 ∧
      votedNetwork.leader.service.lastCommittedBlockVoters.Nodup ∧
      ∀ v ∈ votedNetwork.leader.service.lastCommittedBlockVoters, v ∈ twoValidators.genesisValidatorNodes ∧
        ∃ nl ∈ votedNetwork.nonLeaders, nl.nodeAddress = v ∧
          ValidatorChain firstByteProtocol versionOne unaryStatusAccess twoValidators nl ∧
          (votedNetwork.leader.service.lastCommittedBlockHeight firstByteProtocol).toNat ≤ nl.persistence.blocks.length :=
  have genesisBelow : getBlockHeight firstByteProtocol (some (numberedBlock 1)) ≠ blockHeightNone := by decide
  have run : (newNetwork (numberedBlock 1) [[2]]).ReachesAbove firstByteProtocol versionOne unaryStatusAccess twoValidators
      unaryStatus votedNetwork :=
    .tail (.tail (.tail (.single ⟨.nonLeaderCommit 0 (numberedBlock 1) (.ok []), rfl,
        fun _ _ _ committed => by cases committed; decide, nofun⟩)
      ⟨.deliverCommitted 0, rfl, nofun, nofun⟩)
      ⟨.leader (.tick none none), rfl, nofun, fun _ ticked => by cases ticked; exact ⟨nofun, nofun⟩⟩)
      ⟨.leader (.receiveVoted 0), rfl, nofun, fun _ received => by cases received; exact ⟨nofun, nofun⟩⟩
  ⟨genesisBelow, leader_proposes_after_quorum_stored firstByteProtocol_results_heights_lt unaryStatus_roundTrip
    genesisBelow run rfl⟩

end Network

end OrbsNetwork.ConsensusAlgo
