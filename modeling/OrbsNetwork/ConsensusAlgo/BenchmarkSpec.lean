import OrbsNetwork.ConsensusAlgo.Benchmark
import OrbsNetwork.BlockStorage.NodeSyncSpec

/-! Benchmark consensus accepts only block pairs the constant leader signed over the chain before
them, and its leader proposes a block pair only once a quorum voted for the one before. -/

namespace OrbsNetwork.ConsensusAlgo

open BlockStorage

section Validate

variable {protocol : Protocol} {access : BenchmarkAccess} {config : Config}

variable (protocol access config) in
/-- What benchmark consensus asks of a block pair: proofs of its type, the hashes of the block
pair before it when one is given, and the constant leader as first signer, over the block's
reference. -/
@[mk_iff]
structure ProvenByLeader (prevCommittedBlockPair : Option BlockPairContainer) (blockPair : BlockPairContainer) : Prop where
  transactionsProofType :
    access.transactionsProofType blockPair.transactionsBlock.blockProof = transactionsProofTypeBenchmarkConsensus
  resultsProofType : access.resultsProofType blockPair.resultsBlock.blockProof = resultsProofTypeBenchmarkConsensus
  prevHashes : ∀ prev, prevCommittedBlockPair = some prev →
    access.transactionsPrevBlockHashPtr blockPair.transactionsBlock.header = calcTransactionsBlockHash access prev.transactionsBlock ∧
      access.resultsPrevBlockHashPtr blockPair.resultsBlock.header = calcResultsBlockHash access prev.resultsBlock
  signed : ∃ signature others, access.proofNodes blockPair.resultsBlock.blockProof =
      (config.benchmarkConsensusConstantLeader, signature) :: others ∧
    access.verifyNodeSignature config.benchmarkConsensusConstantLeader (signedDataForBlockProof protocol access blockPair)
      signature = none

theorem validateBlockConsensus_eq_none_iff {prev : Option BlockPairContainer} {blockPair : BlockPairContainer} :
    validateBlockConsensus protocol access config (some blockPair) prev = none ↔ ProvenByLeader protocol access config prev blockPair := by
  rw [provenByLeader_iff]
  unfold validateBlockConsensus
  -- the checks run in turn; what is left to split is the signer and the verdict on its signature
  cases nodes : access.proofNodes blockPair.resultsBlock.blockProof with
  | nil => cases prev <;> simp [nodes] <;> split_ifs <;> simp_all
  | cons node others =>
    obtain ⟨sender, signature⟩ := node
    cases verified : access.verifyNodeSignature sender (signedDataForBlockProof protocol access blockPair) signature <;>
      cases prev <;> simp [nodes, verified] <;> split_ifs <;> simp_all

end Validate

section Leader

variable {protocol : Protocol} {access : BenchmarkAccess} {config : Config}

theorem blockHeightNone_toNat : blockHeightNone.toNat = 2 ^ 64 - 1 := by
  rw [blockHeightNone, UInt64.toNat_ofNat_of_lt' (by norm_num)]

/-- No height is above the sentinel `blockHeightNone`, which is `math.MaxUint64`. -/
theorem blockHeightNone_not_lt (height : UInt64) : ¬ blockHeightNone < height := by
  rw [UInt64.lt_iff_toNat_lt, blockHeightNone_toNat]
  have := height.toNat_lt
  omega

/-- While the validators times the percentage stay below `2^53`, the float64 ceiling is the exact
ceiling of the quorum. -/
theorem requiredQuorumSize_of_lt
    (small : config.genesisValidatorNodes.length * config.benchmarkConsensusRequiredQuorumPercentage.toNat < 2 ^ 53) :
    requiredQuorumSize config =
      (config.genesisValidatorNodes.length * config.benchmarkConsensusRequiredQuorumPercentage.toNat + 99) / 100 := by
  have percentageLt : config.benchmarkConsensusRequiredQuorumPercentage.toNat < 2 ^ 53 :=
    (UInt32.toNat_lt _).trans (by norm_num)
  have product : Binary64.mul (Binary64.ofNat config.genesisValidatorNodes.length)
      (Binary64.ofNat config.benchmarkConsensusRequiredQuorumPercentage.toNat) =
        config.genesisValidatorNodes.length * config.benchmarkConsensusRequiredQuorumPercentage.toNat := by
    rw [Binary64.ofNat_of_lt percentageLt]
    rcases Nat.eq_zero_or_pos config.benchmarkConsensusRequiredQuorumPercentage.toNat with zero | positive
    · -- no percentage makes the product zero whatever float64 makes of the validators
      rw [zero, Nat.mul_zero, Binary64.mul_of_lt (by rw [Nat.mul_zero]; norm_num), Nat.mul_zero]
    · rw [Binary64.ofNat_of_lt ((Nat.le_mul_of_pos_right _ positive).trans_lt small), Binary64.mul_of_lt small]
  rw [requiredQuorumSize, product, Binary64.ceilDiv_of_lt (by norm_num) small, Nat.add_sub_assoc (by norm_num)]

variable (protocol) in
/-- A height whose votes went through, as far as the service can tell: one below its last
committed block pair, or that block pair's once its voters reached the quorum. -/
def Service.VotedThrough (s : Service) (height : UInt64) : Prop :=
  height < s.lastCommittedBlockHeight protocol ∨
    height = s.lastCommittedBlockHeight protocol ∧ s.lastCommittedBlockVotersReachedQuorum = true

variable (protocol access config) in
/-- A voter as `leaderValidateVote` lets it in: a genesis validator that signed a status of the
last committed height. -/
def ValidVoter (s : Service) (senderNodeAddress : Bytes) : Prop :=
  senderNodeAddress ∈ config.genesisValidatorNodes ∧ ∃ signature status,
    access.statusLastCommittedBlockHeight status = s.lastCommittedBlockHeight protocol ∧
      access.verifyNodeSignature senderNodeAddress status signature = none

variable (protocol access config) in
/-- The leader's invariant: the voters of the last committed block pair are distinct valid
voters, its quorum flag is set only with enough of them, and every height sent or received on
`successfullyVotedBlocks` was voted through. The last height received is the sentinel
`blockHeightNone` only while nothing was voted through, and then the last committed block pair is
below that height. -/
structure QuorumInvariant (l : Leader) : Prop where
  voters : ∀ v ∈ l.service.lastCommittedBlockVoters, ValidVoter protocol access config l.service v
  votersNodup : l.service.lastCommittedBlockVoters.Nodup
  quorum : l.service.lastCommittedBlockVotersReachedQuorum = true →
    requiredQuorumSize config ≤ l.service.lastCommittedBlockVoters.length + 1
  pending : ∀ height ∈ l.pendingVoted, l.service.VotedThrough protocol height
  voted : (l.service.lastSuccessfullyVotedBlock = blockHeightNone ∧
      l.service.lastCommittedBlockHeight protocol ≠ blockHeightNone) ∨
    l.service.VotedThrough protocol l.service.lastSuccessfullyVotedBlock

theorem Service.VotedThrough.le {s : Service} {height : UInt64} (through : s.VotedThrough protocol height) :
    height ≤ s.lastCommittedBlockHeight protocol := by
  rcases through with below | ⟨rfl, -⟩
  · exact UInt64.le_of_lt below
  · exact UInt64.le_refl _

theorem Service.VotedThrough.setLastCommittedBlock {s : Service} {height : UInt64} {blockPair : BlockPairContainer}
    (through : s.VotedThrough protocol height)
    (above : s.lastCommittedBlockHeight protocol < getBlockHeight protocol (some blockPair)) :
    (s.setLastCommittedBlock blockPair).VotedThrough protocol height :=
  .inl (UInt64.lt_of_le_of_lt through.le above)

theorem Service.VotedThrough.mono {s s' : Service} {height : UInt64} (through : s.VotedThrough protocol height)
    (same : s'.lastCommittedBlockHeight protocol = s.lastCommittedBlockHeight protocol)
    (reached : s.lastCommittedBlockVotersReachedQuorum = true → s'.lastCommittedBlockVotersReachedQuorum = true) :
    s'.VotedThrough protocol height := by
  rw [Service.VotedThrough, same]
  rcases through with below | ⟨atTop, quorum⟩
  · exact .inl below
  · exact .inr ⟨atTop, reached quorum⟩

theorem QuorumInvariant.of_subset {l l' : Leader} (inv : QuorumInvariant protocol access config l)
    (service : l'.service = l.service) (pendingVoted : ∀ height ∈ l'.pendingVoted, height ∈ l.pendingVoted) :
    QuorumInvariant protocol access config l' := by
  obtain ⟨s, p, loop⟩ := l'
  dsimp only at service pendingVoted
  subst service
  exact ⟨inv.voters, inv.votersNodup, inv.quorum, fun height pending => inv.pending height (pendingVoted height pending),
    inv.voted⟩

/-- A newer last committed block pair keeps the invariant: it has no voters yet, every height
voted through is below it, and it is below the sentinel while nothing was voted through. -/
theorem QuorumInvariant.setLastCommittedBlock {l l' : Leader} {blockPair : BlockPairContainer}
    (inv : QuorumInvariant protocol access config l)
    (above : l.service.lastCommittedBlockHeight protocol < getBlockHeight protocol (some blockPair))
    (topBelow : l.service.lastSuccessfullyVotedBlock = blockHeightNone →
      getBlockHeight protocol (some blockPair) ≠ blockHeightNone)
    (service : l'.service = l.service.setLastCommittedBlock blockPair) (pendingVoted : l'.pendingVoted = l.pendingVoted) :
    QuorumInvariant protocol access config l' where
  voters := by simp [service, Service.setLastCommittedBlock]
  votersNodup := by simp [service, Service.setLastCommittedBlock]
  quorum := by simp [service, Service.setLastCommittedBlock]
  pending height pending := by
    rw [service]
    exact (inv.pending height (pendingVoted ▸ pending)).setLastCommittedBlock above
  voted := by
    rw [service]
    exact inv.voted.imp (fun ⟨unvoted, _⟩ => ⟨unvoted, topBelow unvoted⟩) fun through =>
      through.setLastCommittedBlock above

/-- A tick leaves the handlers blocked on their sends, and changes the service only by proposing
when the last committed block pair was voted through. -/
theorem Leader.tick_frame (l : Leader) (proposal : Option BlockPairContainer) (broadcastErr : Option String) :
    (l.tick protocol config proposal broadcastErr).pendingVoted = l.pendingVoted ∧
      ((l.tick protocol config proposal broadcastErr).service = l.service ∨
        ∃ blockPair, proposal = some blockPair ∧
          l.service.lastSuccessfullyVotedBlock = l.service.lastCommittedBlockHeight protocol ∧
          (l.tick protocol config proposal broadcastErr).service = l.service.setLastCommittedBlock blockPair) := by
  unfold Leader.tick
  by_cases proposing : l.service.lastSuccessfullyVotedBlock = l.service.lastCommittedBlockHeight protocol
  · cases proposal with
    | none => simp [proposing]
    | some blockPair =>
      simp only [proposing, if_true, Option.map_some]
      split <;> (try split) <;> simp
  · simp only [proposing, if_false]
    split <;> (try split) <;> simp

theorem Leader.step_tick_of_ticking {l : Leader} (ticking : l.loop = .ticking) {proposal : Option BlockPairContainer}
    {broadcastErr : Option String} :
    l.step protocol access config (.tick proposal broadcastErr) = l.tick protocol config proposal broadcastErr := by
  simp only [Leader.step, ticking]

theorem Leader.tick_service_of_votedThrough (l : Leader) {blockPair : BlockPairContainer} {broadcastErr : Option String}
    (votedThrough : l.service.lastSuccessfullyVotedBlock = l.service.lastCommittedBlockHeight protocol) :
    (l.tick protocol config (some blockPair) broadcastErr).service = l.service.setLastCommittedBlock blockPair := by
  unfold Leader.tick
  simp only [votedThrough, if_true, Option.map_some]
  split <;> (try split) <;> rfl

/-- `HandleBlockConsensus` changes the service only by taking a block pair of a greater height. -/
theorem Service.handleBlockConsensusFromHandler_service (s : Service) (mode : HandleBlockConsensusMode)
    (blockPair prevCommittedBlockPair : Option BlockPairContainer) :
    (s.handleBlockConsensusFromHandler protocol access config mode blockPair prevCommittedBlockPair).2 = s ∨
      ∃ newer, blockPair = some newer ∧ s.lastCommittedBlockHeight protocol < getBlockHeight protocol (some newer) ∧
        (s.handleBlockConsensusFromHandler protocol access config mode blockPair prevCommittedBlockPair).2 =
          s.setLastCommittedBlock newer := by
  unfold Service.handleBlockConsensusFromHandler
  dsimp only
  -- a refused block pair, a mode that does not update and one of no greater height leave the service
  split
  · exact .inl rfl
  · split_ifs with updating
    · cases blockPair with
      | none => exact .inl rfl
      | some newer =>
        dsimp only
        split_ifs with newerHeight
        · exact .inr ⟨newer, rfl, newerHeight, rfl⟩
        · exact .inl rfl
    · exact .inl rfl

theorem leaderValidateVote_eq_none {senderNodeAddress signature status : Bytes} {height : UInt64}
    (valid : leaderValidateVote access config senderNodeAddress signature status height = none) :
    senderNodeAddress ∈ config.genesisValidatorNodes ∧ access.statusLastCommittedBlockHeight status = height ∧
      access.verifyNodeSignature senderNodeAddress status signature = none := by
  unfold leaderValidateVote at valid
  dsimp only at valid
  split_ifs at valid with wrongHeight validator
  split at valid
  · contradiction
  · exact ⟨validator, not_not.mp wrongHeight, by assumption⟩

theorem Service.leaderAddVote_eq (s : Service) (senderNodeAddress : Bytes) :
    s.leaderAddVote config senderNodeAddress =
      let voters := FirstSeen.note s.lastCommittedBlockVoters senderNodeAddress
      let enough := decide (requiredQuorumSize config ≤ voters.length + 1) && !s.lastCommittedBlockVotersReachedQuorum
      (enough, { s with
        lastCommittedBlockVoters := voters
        lastCommittedBlockVotersReachedQuorum := s.lastCommittedBlockVotersReachedQuorum || enough }) := by
  unfold Service.leaderAddVote
  dsimp only
  split_ifs with enough <;> cases reached : s.lastCommittedBlockVotersReachedQuorum <;> simp_all

/-- What the vote handler can do: leave the leader, or, on a valid vote, note the voter, set the
quorum flag the first time the voters reach the quorum, and then send the height. -/
theorem Leader.handleCommittedVote_cases (l : Leader) (senderNodeAddress signature status : Bytes) :
    l.handleCommittedVote protocol access config senderNodeAddress signature status = l ∨
      (senderNodeAddress ∈ config.genesisValidatorNodes ∧
        access.statusLastCommittedBlockHeight status = l.service.lastCommittedBlockHeight protocol ∧
        access.verifyNodeSignature senderNodeAddress status signature = none) ∧
      let voters := FirstSeen.note l.service.lastCommittedBlockVoters senderNodeAddress
      let enough := decide (requiredQuorumSize config ≤ voters.length + 1) && !l.service.lastCommittedBlockVotersReachedQuorum
      l.handleCommittedVote protocol access config senderNodeAddress signature status =
        { service := { l.service with
            lastCommittedBlockVoters := voters
            lastCommittedBlockVotersReachedQuorum := l.service.lastCommittedBlockVotersReachedQuorum || enough }
          pendingVoted := if enough then l.pendingVoted ++ [l.service.lastCommittedBlockHeight protocol] else l.pendingVoted
          loop := l.loop } := by
  unfold Leader.handleCommittedVote
  dsimp only
  split
  · exact .inl rfl
  · next valid =>
    refine .inr ⟨leaderValidateVote_eq_none valid, ?_⟩
    rw [Service.leaderAddVote_eq]
    dsimp only
    split <;> simp_all

theorem QuorumInvariant.tick {l : Leader} (inv : QuorumInvariant protocol access config l)
    {proposal : Option BlockPairContainer} {broadcastErr : Option String}
    (above : ∀ blockPair, proposal = some blockPair →
      l.service.lastCommittedBlockHeight protocol < getBlockHeight protocol (some blockPair)) :
    QuorumInvariant protocol access config (l.tick protocol config proposal broadcastErr) := by
  obtain ⟨pendingVoted, same | ⟨blockPair, rfl, proposing, proposed⟩⟩ :=
    @Leader.tick_frame protocol config l proposal broadcastErr
  · exact inv.of_subset same fun _ => pendingVoted ▸ id
  · -- a proposal is above the last committed height, so that height is not the sentinel
    have topBelow : l.service.lastSuccessfullyVotedBlock = blockHeightNone →
        getBlockHeight protocol (some blockPair) ≠ blockHeightNone := by
      intro unvoted
      have overSentinel := above blockPair rfl
      rw [← proposing, unvoted] at overSentinel
      exact absurd overSentinel (blockHeightNone_not_lt _)
    exact inv.setLastCommittedBlock (above blockPair rfl) topBelow proposed pendingVoted

theorem QuorumInvariant.receiveVoted {l : Leader} (inv : QuorumInvariant protocol access config l) (i : Nat) :
    QuorumInvariant protocol access config (l.step protocol access config (.receiveVoted i)) := by
  simp only [Leader.step]
  split
  · next _ _ height _ received =>
    refine ⟨inv.voters, inv.votersNodup, inv.quorum,
      fun h pending => inv.pending h (List.mem_of_mem_eraseIdx pending), ?_⟩
    exact .inr (inv.pending height (List.mem_of_getElem? received))
  · exact inv

/-- A vote handler keeps the invariant: a valid vote joins the voters, and the height it sends
when the vote brings the quorum is voted through. -/
theorem QuorumInvariant.handleCommittedVote {l : Leader} (inv : QuorumInvariant protocol access config l)
    (senderNodeAddress signature status : Bytes) :
    QuorumInvariant protocol access config
      (l.handleCommittedVote protocol access config senderNodeAddress signature status) := by
  rcases l.handleCommittedVote_cases senderNodeAddress signature status with same | ⟨⟨member, height, signed⟩, added⟩
  · rw [same]
    exact inv
  rw [added]
  have voters : ∀ v ∈ FirstSeen.note l.service.lastCommittedBlockVoters senderNodeAddress,
      ValidVoter protocol access config l.service v := by
    intro v joined
    rcases FirstSeen.mem_note.mp joined with old | rfl
    · exact inv.voters v old
    · exact ⟨member, signature, status, height, signed⟩
  have nodup := FirstSeen.nodup_note (a := senderNodeAddress) inv.votersNodup
  have grows := @FirstSeen.length_le_note Bytes _ l.service.lastCommittedBlockVoters senderNodeAddress
  cases enough : (decide (requiredQuorumSize config ≤
      (FirstSeen.note l.service.lastCommittedBlockVoters senderNodeAddress).length + 1) &&
      !l.service.lastCommittedBlockVotersReachedQuorum)
  · simp only [Bool.or_false]
    exact ⟨voters, nodup, fun reached => (inv.quorum reached).trans (Nat.add_le_add_right grows 1),
      fun h pending => (inv.pending h pending).mono rfl id, inv.voted.imp id fun through => through.mono rfl id⟩
  · obtain ⟨enoughVotes, -⟩ : requiredQuorumSize config ≤
        (FirstSeen.note l.service.lastCommittedBlockVoters senderNodeAddress).length + 1 ∧
        l.service.lastCommittedBlockVotersReachedQuorum = false := by simpa using enough
    simp only [Bool.or_true, if_true]
    refine ⟨voters, nodup, fun _ => enoughVotes, fun h pending => ?_,
      inv.voted.imp id fun through => through.mono rfl fun _ => rfl⟩
    rcases List.mem_append.mp pending with old | sent
    · exact (inv.pending h old).mono rfl fun _ => rfl
    · rw [List.mem_singleton.mp sent]
      exact .inr ⟨rfl, rfl⟩

variable (protocol) in
/-- What the leader's environment keeps to in a run: the consensus context builds every proposed
block pair above the last committed one, as it does at `lastCommittedBlockHeight + 1`, and block
storage hands the leader no block pair at the height that the sentinel `blockHeightNone` stands
for. -/
def Leader.Relies (l : Leader) (event : LeaderEvent) : Prop :=
  (∀ proposal broadcastErr, event = .tick (some proposal) broadcastErr →
      l.service.lastCommittedBlockHeight protocol < getBlockHeight protocol (some proposal)) ∧
    ∀ mode blockPair prevCommittedBlockPair, event = .blockConsensus mode (some blockPair) prevCommittedBlockPair →
      getBlockHeight protocol (some blockPair) ≠ blockHeightNone

theorem QuorumInvariant.step {l : Leader} (inv : QuorumInvariant protocol access config l) (event : LeaderEvent)
    (relies : l.Relies protocol event) : QuorumInvariant protocol access config (l.step protocol access config event) := by
  cases event with
  | tick proposal broadcastErr =>
    simp only [Leader.step]
    split
    · exact inv.tick fun blockPair proposed => relies.1 blockPair broadcastErr (by rw [proposed])
    · exact inv
  | receiveVoted i => exact inv.receiveVoted i
  | retryTimeout | contextDone =>
    simp only [Leader.step]
    split <;> exact inv.of_subset rfl fun _ => id
  | committedVote senderNodeAddress signature status => exact inv.handleCommittedVote senderNodeAddress signature status
  | voteCancelled i => exact inv.of_subset rfl fun _ => List.mem_of_mem_eraseIdx
  | blockConsensus mode blockPair prevCommittedBlockPair =>
    rcases l.service.handleBlockConsensusFromHandler_service mode blockPair prevCommittedBlockPair with
      same | ⟨newer, rfl, newerHeight, updated⟩
    · exact inv.of_subset same fun _ => id
    · exact inv.setLastCommittedBlock newerHeight (fun _ => relies.2 mode newer prevCommittedBlockPair rfl) updated rfl

variable (protocol access config) in
/-- The leaders that steps lead to from `l` when the environment keeps to `Leader.Relies`. -/
def Leader.ReachesAbove (l : Leader) : Leader → Prop :=
  Relation.ReflTransGen (fun l l' => ∃ event, l.step protocol access config event = l' ∧ l.Relies protocol event) l

theorem QuorumInvariant.reachesAbove {l l' : Leader} (inv : QuorumInvariant protocol access config l)
    (run : l.ReachesAbove protocol access config l') : QuorumInvariant protocol access config l' := by
  induction run with
  | refl => exact inv
  | tail _ step ih =>
    obtain ⟨event, rfl, relies⟩ := step
    exact ih.step event relies

theorem quorumInvariant_newLeader {lastCommittedBlock : BlockPairContainer}
    (genesisBelow : getBlockHeight protocol (some lastCommittedBlock) ≠ blockHeightNone) :
    QuorumInvariant protocol access config (newLeader lastCommittedBlock) :=
  ⟨nofun, List.nodup_nil, nofun, nofun, .inl ⟨rfl, genesisBelow⟩⟩

/-- A last committed block pair that counts as voted through has reached its quorum. -/
theorem QuorumInvariant.reachedQuorum {l : Leader} (inv : QuorumInvariant protocol access config l)
    (votedThrough : l.service.lastSuccessfullyVotedBlock = l.service.lastCommittedBlockHeight protocol) :
    l.service.lastCommittedBlockVotersReachedQuorum = true := by
  rcases inv.voted with ⟨unvoted, topBelow⟩ | below | ⟨-, reached⟩
  · exact absurd (votedThrough.symm.trans unvoted) topBelow
  · exact absurd votedThrough (UInt64.ne_of_lt below)
  · exact reached

/-- Benchmark consensus over headers whose first byte is their height, with proofs of its type
that the node `[1]` signed and crypto that accepts every signature. -/
def acceptingAccess : BenchmarkAccess where
  transactionsPrevBlockHashPtr := fun _ => []
  resultsPrevBlockHashPtr := fun _ => []
  transactionsProofType := fun _ => transactionsProofTypeBenchmarkConsensus
  resultsProofType := fun _ => resultsProofTypeBenchmarkConsensus
  proofNodes := fun _ => [([1], [])]
  blockRef := fun _ _ => []
  statusLastCommittedBlockHeight := fun status => (status.headD 0).toUInt64
  calcSha256 := fun _ => []
  verifyNodeSignature := fun _ _ _ => none

theorem twoValidators_nodup : ([[1], [2]] : List Bytes).Nodup := by decide

/-- The leader `[1]` and one more validator, all of which must vote. -/
def twoValidators : Config := ⟨[1], [[1], [2]], twoValidators_nodup, [1], 100⟩

theorem oneValidator_nodup : ([[1]] : List Bytes).Nodup := by decide

def oneValidator : Config := ⟨[1], [[1]], oneValidator_nodup, [1], 100⟩

/-- The leader never proposes a block pair without a quorum for the one before: whenever its last
committed block pair was voted through, which is when its next tick proposes, the voters of that
block pair are distinct genesis validators that each signed a status of its height, and with the
leader they make up the required quorum. This holds however the round loop, the vote handlers and
block storage's calls interleave, as long as no block pair the leader starts from or block storage
hands it is at the sentinel height `blockHeightNone`. -/
theorem leader_proposes_after_quorum {lastCommittedBlock : BlockPairContainer}
    (genesisBelow : getBlockHeight protocol (some lastCommittedBlock) ≠ blockHeightNone) {l : Leader}
    (run : (newLeader lastCommittedBlock).ReachesAbove protocol access config l)
    (votedThrough : l.service.lastSuccessfullyVotedBlock = l.service.lastCommittedBlockHeight protocol) :
    requiredQuorumSize config ≤ l.service.lastCommittedBlockVoters.length + 1 ∧ l.service.lastCommittedBlockVoters.Nodup ∧
      ∀ v ∈ l.service.lastCommittedBlockVoters, ValidVoter protocol access config l.service v := by
  have inv := (quorumInvariant_newLeader genesisBelow).reachesAbove run
  exact ⟨inv.quorum (inv.reachedQuorum votedThrough), inv.votersNodup, inv.voters⟩

/-- The leader after its first tick, the second validator's vote and the loop's receiving it. -/
def votedLeader : Leader := ⟨⟨some (numberedBlock 1), 1, [[2]], true⟩, [], .ticking⟩

theorem leader_proposes_after_quorum_of_two :
    getBlockHeight firstByteProtocol (some (numberedBlock 1)) ≠ blockHeightNone ∧
    requiredQuorumSize twoValidators ≤ votedLeader.service.lastCommittedBlockVoters.length + 1 ∧
      votedLeader.service.lastCommittedBlockVoters.Nodup ∧
      ∀ v ∈ votedLeader.service.lastCommittedBlockVoters,
        ValidVoter firstByteProtocol acceptingAccess twoValidators votedLeader.service v :=
  have genesisBelow : getBlockHeight firstByteProtocol (some (numberedBlock 1)) ≠ blockHeightNone := by decide
  have run : (newLeader (numberedBlock 1)).ReachesAbove firstByteProtocol acceptingAccess twoValidators votedLeader :=
    .tail (.tail (.single ⟨.tick none none, rfl, nofun, nofun⟩) ⟨.committedVote [2] [] [1], rfl, nofun, nofun⟩)
      ⟨.receiveVoted 0, rfl, nofun, nofun⟩
  ⟨genesisBelow, leader_proposes_after_quorum genesisBelow run rfl⟩

/-- The sentinel `blockHeightNone` is also a height: once block storage hands a leader that has
voted nothing through a newer block pair at height `2^64 - 1`, that block pair counts as voted
through although it has no voter, and the next tick proposes the block pair after it. -/
theorem leader_proposes_unvoted_at_max_height {l : Leader}
    (unvoted : l.service.lastSuccessfullyVotedBlock = blockHeightNone) (ticking : l.loop = .ticking)
    {blockPair : BlockPairContainer} (atSentinel : getBlockHeight protocol (some blockPair) = blockHeightNone)
    (newer : l.service.lastCommittedBlockHeight protocol < blockHeightNone)
    (prevCommittedBlockPair : Option BlockPairContainer) (proposal : BlockPairContainer) (broadcastErr : Option String) :
    let updated := l.step protocol access config (.blockConsensus .updateOnly (some blockPair) prevCommittedBlockPair)
    updated.service.lastCommittedBlock = some blockPair ∧ updated.service.lastCommittedBlockVoters = [] ∧
      updated.service.lastCommittedBlockVotersReachedQuorum = false ∧
      updated.service.lastSuccessfullyVotedBlock = updated.service.lastCommittedBlockHeight protocol ∧
      (updated.step protocol access config (.tick (some proposal) broadcastErr)).service.lastCommittedBlock =
        some proposal := by
  intro updated
  -- an updating mode takes a block pair of a greater height without checking it
  have taken : updated = { l with service := l.service.setLastCommittedBlock blockPair } := by
    have greater : (protocol.transactionsBlockHeight blockPair.transactionsBlock.header).toUInt64 >
        l.service.lastCommittedBlockHeight protocol := by
      rw [← atSentinel] at newer
      exact newer
    simp [updated, Leader.step, Service.handleBlockConsensusFromHandler, greater]
  have votedThrough : updated.service.lastSuccessfullyVotedBlock = updated.service.lastCommittedBlockHeight protocol := by
    rw [taken]
    exact unvoted.trans atSentinel.symm
  refine ⟨by rw [taken]; rfl, by rw [taken]; rfl, by rw [taken]; rfl, votedThrough, ?_⟩
  have stillTicking : updated.loop = .ticking := by rw [taken]; exact ticking
  rw [Leader.step_tick_of_ticking stillTicking, Leader.tick_service_of_votedThrough updated votedThrough]
  rfl

/-- A protocol whose transactions block headers hold the height in big-endian bytes. -/
def bigEndianProtocol : Protocol :=
  { firstByteProtocol with transactionsBlockHeight := fun raw => raw.foldl (fun n byte => 256 * n + byte.toNat) 0 }

/-- A block pair at height `math.MaxUint64`. -/
def maxHeightBlock : BlockPairContainer :=
  ⟨⟨List.replicate 8 255, [], [], []⟩, ⟨List.replicate 8 255, [], [], []⟩⟩

theorem leader_proposes_unvoted_at_max_height_of_two :
    getBlockHeight bigEndianProtocol (some maxHeightBlock) = blockHeightNone ∧
      (newLeader (numberedBlock 1)).service.lastCommittedBlockHeight bigEndianProtocol < blockHeightNone ∧
      let updated := (newLeader (numberedBlock 1)).step bigEndianProtocol acceptingAccess twoValidators
        (.blockConsensus .updateOnly (some maxHeightBlock) none)
      updated.service.lastCommittedBlock = some maxHeightBlock ∧ updated.service.lastCommittedBlockVoters = [] ∧
        updated.service.lastCommittedBlockVotersReachedQuorum = false ∧
        updated.service.lastSuccessfullyVotedBlock = updated.service.lastCommittedBlockHeight bigEndianProtocol ∧
        (updated.step bigEndianProtocol acceptingAccess twoValidators (.tick (some (numberedBlock 2)) none)).service.lastCommittedBlock =
          some (numberedBlock 2) :=
  have atSentinel : getBlockHeight bigEndianProtocol (some maxHeightBlock) = blockHeightNone := by decide
  have newer : (newLeader (numberedBlock 1)).service.lastCommittedBlockHeight bigEndianProtocol < blockHeightNone := by
    decide
  ⟨atSentinel, newer, leader_proposes_unvoted_at_max_height rfl rfl atSentinel newer none (numberedBlock 2) none⟩

theorem Leader.handleCommittedVote_frame (l : Leader) (senderNodeAddress signature status : Bytes) :
    (l.handleCommittedVote protocol access config senderNodeAddress signature status).loop = l.loop ∧
      (l.handleCommittedVote protocol access config senderNodeAddress signature status).service.lastSuccessfullyVotedBlock =
        l.service.lastSuccessfullyVotedBlock ∧
      (l.handleCommittedVote protocol access config senderNodeAddress signature status).service.lastCommittedBlock =
        l.service.lastCommittedBlock := by
  rcases l.handleCommittedVote_cases senderNodeAddress signature status with same | ⟨-, added⟩
  · rw [same]
    exact ⟨rfl, rfl, rfl⟩
  · rw [added]
    exact ⟨rfl, rfl, rfl⟩

/-- Once the leader has a last committed block pair it keeps one: every step either leaves it or
takes another. -/
theorem Leader.step_lastCommittedBlock_isSome {l : Leader} (present : l.service.lastCommittedBlock.isSome)
    (event : LeaderEvent) : (l.step protocol access config event).service.lastCommittedBlock.isSome := by
  cases event with
  | tick proposal broadcastErr =>
    simp only [Leader.step]
    split
    · rcases (l.tick_frame proposal broadcastErr).2 with same | ⟨blockPair, -, -, set⟩
      · rw [same]
        exact present
      · rw [set]
        rfl
    · exact present
  | receiveVoted | retryTimeout | contextDone =>
    simp only [Leader.step]
    split <;> exact present
  | committedVote senderNodeAddress signature status =>
    obtain ⟨-, -, kept⟩ := @Leader.handleCommittedVote_frame protocol access config l senderNodeAddress signature status
    show (l.handleCommittedVote protocol access config senderNodeAddress signature status).service.lastCommittedBlock.isSome
    rw [kept]
    exact present
  | voteCancelled => exact present
  | blockConsensus mode blockPair prevCommittedBlockPair =>
    show (l.service.handleBlockConsensusFromHandler protocol access config mode blockPair
      prevCommittedBlockPair).2.lastCommittedBlock.isSome
    rcases l.service.handleBlockConsensusFromHandler_service mode blockPair prevCommittedBlockPair with
      same | ⟨newer, -, -, updated⟩
    · rw [same]
      exact present
    · rw [updated]
      rfl

theorem Leader.Reaches.lastCommittedBlock_isSome {l l' : Leader} (present : l.service.lastCommittedBlock.isSome)
    (run : l.Reaches protocol access config l') : l'.service.lastCommittedBlock.isSome := by
  induction run with
  | refl => exact present
  | tail _ step ih =>
    obtain ⟨event, rfl⟩ := step
    exact Leader.step_lastCommittedBlock_isSome ih event

/-- With a single genesis validator a tick whose broadcast succeeds sends the height of the block
pair it broadcast on `successfullyVotedBlocks`. -/
theorem Leader.tick_of_single (single : config.genesisValidatorNodes.length = 1) {l : Leader}
    (present : l.service.lastCommittedBlock.isSome) {proposal : Option BlockPairContainer}
    (proposes : proposal.isSome ∨ l.service.lastSuccessfullyVotedBlock ≠ l.service.lastCommittedBlockHeight protocol) :
    (l.tick protocol config proposal none).loop =
        .sendingVoted ((l.tick protocol config proposal none).service.lastCommittedBlockHeight protocol) ∧
      (l.tick protocol config proposal none).service.lastSuccessfullyVotedBlock = l.service.lastSuccessfullyVotedBlock := by
  unfold Leader.tick
  by_cases proposing : l.service.lastSuccessfullyVotedBlock = l.service.lastCommittedBlockHeight protocol
  · obtain ⟨blockPair, rfl⟩ := Option.isSome_iff_exists.mp (proposes.resolve_right (not_not.mpr proposing))
    simp only [proposing, if_true, Option.map_some, Service.setLastCommittedBlock, single, and_self]
  · obtain ⟨blockPair, committed⟩ := Option.isSome_iff_exists.mp present
    simp only [proposing, if_false, committed, single]
    exact ⟨rfl, rfl⟩

/-- Once the round loop blocks on its send, nothing moves it on: the send is not in a `select`,
and the loop is the only receiver. -/
theorem Leader.step_of_sendingVoted {l : Leader} {height : UInt64} (blocked : l.loop = .sendingVoted height)
    (event : LeaderEvent) :
    (l.step protocol access config event).loop = .sendingVoted height ∧
      (l.step protocol access config event).service.lastSuccessfullyVotedBlock = l.service.lastSuccessfullyVotedBlock := by
  cases event with
  | tick | receiveVoted | retryTimeout | contextDone => simp [Leader.step, blocked]
  | committedVote senderNodeAddress signature status =>
    obtain ⟨loop, voted, -⟩ := @Leader.handleCommittedVote_frame protocol access config l senderNodeAddress signature status
    exact ⟨loop.trans blocked, voted⟩
  | voteCancelled => exact ⟨blocked, rfl⟩
  | blockConsensus mode blockPair prevCommittedBlockPair =>
    refine ⟨blocked, ?_⟩
    rcases l.service.handleBlockConsensusFromHandler_service mode blockPair prevCommittedBlockPair with
      same | ⟨newer, -, -, updated⟩
    · exact congrArg Service.lastSuccessfullyVotedBlock same
    · exact (congrArg Service.lastSuccessfullyVotedBlock updated :)

theorem Leader.Reaches.of_sendingVoted {l l' : Leader} {height : UInt64} (blocked : l.loop = .sendingVoted height)
    (run : l.Reaches protocol access config l') :
    l'.loop = .sendingVoted height ∧ l'.service.lastSuccessfullyVotedBlock = l.service.lastSuccessfullyVotedBlock := by
  induction run with
  | refl => exact ⟨blocked, rfl⟩
  | tail _ step ih =>
    obtain ⟨event, rfl⟩ := step
    obtain ⟨loop, voted⟩ := Leader.step_of_sendingVoted ih.1 event
    exact ⟨loop, voted.trans ih.2⟩

/-- With a single genesis validator the leader's round loop blocks in every tick whose broadcast
succeeds: the tick sends the height on the unbuffered `successfullyVotedBlocks`, which only the
loop itself receives. In every run after it the loop stays blocked, even when its context ends,
no further block pair is voted through, and the leader proposes nothing more. -/
theorem single_validator_round_loop_blocks (single : config.genesisValidatorNodes.length = 1)
    {lastCommittedBlock : BlockPairContainer} {l : Leader}
    (reached : (newLeader lastCommittedBlock).Reaches protocol access config l) (ticking : l.loop = .ticking)
    {proposal : Option BlockPairContainer}
    (proposes : proposal.isSome ∨ l.service.lastSuccessfullyVotedBlock ≠ l.service.lastCommittedBlockHeight protocol)
    {l' : Leader} (run : (l.step protocol access config (.tick proposal none)).Reaches protocol access config l') :
    l'.loop = .sendingVoted ((l.step protocol access config (.tick proposal none)).service.lastCommittedBlockHeight protocol) ∧
      l'.service.lastSuccessfullyVotedBlock = l.service.lastSuccessfullyVotedBlock := by
  have present : l.service.lastCommittedBlock.isSome := reached.lastCommittedBlock_isSome rfl
  rw [Leader.step_tick_of_ticking ticking] at run ⊢
  obtain ⟨blocked, unvoted⟩ := Leader.tick_of_single single present proposes
  obtain ⟨loop, voted⟩ := Leader.Reaches.of_sendingVoted blocked run
  exact ⟨loop, voted.trans unvoted⟩

/-- The leader after a tick whose broadcast failed and the retry timeout that followed it. -/
def retriedLeader : Leader :=
  ((newLeader (numberedBlock 1)).step firstByteProtocol acceptingAccess oneValidator
    (.tick none (some "broadcast failed"))).step firstByteProtocol acceptingAccess oneValidator .retryTimeout

theorem single_validator_round_loop_blocks_after_retry :
    oneValidator.genesisValidatorNodes.length = 1 ∧
      (retriedLeader.step firstByteProtocol acceptingAccess oneValidator (.tick none none)).loop =
        .sendingVoted ((retriedLeader.step firstByteProtocol acceptingAccess oneValidator
          (.tick none none)).service.lastCommittedBlockHeight firstByteProtocol) ∧
      (retriedLeader.step firstByteProtocol acceptingAccess oneValidator
        (.tick none none)).service.lastSuccessfullyVotedBlock = retriedLeader.service.lastSuccessfullyVotedBlock :=
  have reached : (newLeader (numberedBlock 1)).Reaches firstByteProtocol acceptingAccess oneValidator retriedLeader :=
    .tail (.single ⟨.tick none (some "broadcast failed"), rfl⟩) ⟨.retryTimeout, rfl⟩
  ⟨rfl, single_validator_round_loop_blocks rfl reached rfl (.inr (by decide)) .refl⟩

end Leader

section Sync

variable {protocol : Protocol} {access : BenchmarkAccess} {config : Config} {versions : Versions}
  {syncConfig : BlockSyncConfig} {blockTypeBlockPair : Nat}

theorem ProvenByLeader.of_notifyConsensusAlgos {prev : Option BlockPairContainer} {blockPair : BlockPairContainer}
    (accepted : notifyConsensusAlgos [benchmarkHandler protocol access config] prev blockPair .verifyAndUpdate false = none) :
    ProvenByLeader protocol access config prev blockPair := by
  rw [← validateBlockConsensus_eq_none_iff]
  simpa [notifyConsensusAlgos, benchmarkHandler] using accepted

/-- A node whose consensus algorithm is benchmark consensus, syncing from an empty chain, stores
only block pairs the leader signed over the chain before them: each carries benchmark proofs whose
first signer is the constant leader with a valid signature, and points to the hashes of the block
pair stored before it. This holds whatever the peers send and however sync interleaves with the
commits of the consensus algorithm, when that commits only block pairs it accepts and the context
does not end during a validation. -/
theorem benchmark_sync_chain_proven (heightsLt : ∀ raw, protocol.transactionsBlockHeight raw < 2 ^ 64) {node : Node}
    (run : (newBlockSync ⟨[]⟩).ReachesAccepting protocol versions syncConfig blockTypeBlockPair
      [benchmarkHandler protocol access config] node) :
    ∀ i blockPair, node.persistence.blocks[i]? = some blockPair →
      ProvenByLeader protocol access config (node.persistence.blocks.take i).getLast? blockPair := by
  have start : SyncInvariant protocol versions [benchmarkHandler protocol access config] (newBlockSync ⟨[]⟩) :=
    ⟨wellFormedChain_nil, linked_nil _, by simp [Validated, newBlockSync]⟩
  intro i blockPair stored
  exact .of_notifyConsensusAlgos ((start.reachesAccepting heightsLt run).linked i blockPair stored)

/-- A node that committed one block pair the leader signed. -/
def syncedNode : Node :=
  (newBlockSync ⟨[]⟩).step firstByteProtocol versionOne batchOfTen 1
    [benchmarkHandler firstByteProtocol acceptingAccess oneValidator] (.commitBlock (numberedBlock 1))

theorem benchmark_sync_chain_proven_first :
    ProvenByLeader firstByteProtocol acceptingAccess oneValidator (syncedNode.persistence.blocks.take 0).getLast?
      (numberedBlock 1) :=
  have run : (newBlockSync ⟨[]⟩).ReachesAccepting firstByteProtocol versionOne batchOfTen 1
      [benchmarkHandler firstByteProtocol acceptingAccess oneValidator] syncedNode :=
    .single ⟨.commitBlock (numberedBlock 1), rfl, fun _ committed => by cases committed; decide, nofun⟩
  benchmark_sync_chain_proven firstByteProtocol_heights_lt run 0 (numberedBlock 1) rfl

end Sync

end OrbsNetwork.ConsensusAlgo
