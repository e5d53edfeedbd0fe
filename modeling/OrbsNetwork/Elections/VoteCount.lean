import OrbsNetwork.Elections.TallySpec
import Mathlib.Algebra.Order.BigOperators.Group.List
import Mathlib.Algebra.Order.Group.Nat

/-! What `_calculateVotes` counts, said with chains of delegation: a delegator's stake goes to the
guardian its chain of agents reaches, and a guardian's votes to each candidate it lists. -/

namespace OrbsNetwork.Elections

namespace State

variable (s : State)

section Chains

/-- A delegator by index that is not a guardian passes its stake to its agent, unless it names
itself. -/
def Delegates (d a : Address) : Prop :=
  d ∈ s.delegatorList ∧ d ∉ s.guardianList ∧ s.delegatorAgent d = a ∧ d ≠ a

/-- The chain of agents from `d` reaches `g`. -/
def Reaches (d g : Address) : Prop := Relation.TransGen s.Delegates d g

/-- The guardians whose votes count: those with a vote block recorded. -/
def votingGuardians : List Address := s.guardianList.filter fun g => s.guardianVoteBlockNumber g ≠ 0

open Classical in
/-- A guardian's votes: its own stake and the stake of each delegator whose chain reaches it. -/
noncomputable def voteOf (g : Address) : Nat :=
  (s.guardianStake g).toNat + ∑ d ∈ s.delegatorList.toFinset.filter (s.Reaches · g), (s.delegatorStake d).toNat

/-- The votes of all the voting guardians. -/
noncomputable def totalVote : Nat := (s.votingGuardians.map s.voteOf).sum

/-- A candidate's votes: those of each voting guardian, once for each time the guardian lists it. -/
noncomputable def candidateVote (c : Address) : Nat :=
  (s.votingGuardians.map fun g => (s.getCandidates g).count c * s.voteOf g).sum

/-- The votes `_calculateVotes` is to return: the total and each voting guardian's accumulated stake
are the guardians' votes, each delegator whose chain reaches a voting guardian takes part once with
its stake, and each candidate has the votes of the guardians that list it. -/
structure TallyCorrect (votes : Votes) : Prop where
  total : votes.totalVotes.toNat = s.totalVote
  accumulatedKeys : votes.guardiansAccumulatedStakes.keys = s.votingGuardians
  accumulated : ∀ g ∈ s.votingGuardians, (votes.guardiansAccumulatedStakes.get? g).map UInt64.toNat = some (s.voteOf g)
  participates : ∀ d ∉ s.guardianList, d ∈ votes.participants ↔ ∃ g ∈ s.votingGuardians, s.Reaches d g
  once : ∀ d ∉ s.guardianList, (∃ g ∈ s.votingGuardians, s.Reaches d g) →
    votes.participants.count d = 1 ∧ votes.participantStakes d = some (s.delegatorStake d)
  candidates : ∀ c, (votes.candidateVotes c).map UInt64.toNat =
    if ∃ g ∈ s.votingGuardians, c ∈ s.getCandidates g then some (s.candidateVote c) else none

variable {s}

theorem mem_votingGuardians {g : Address} :
    g ∈ s.votingGuardians ↔ g ∈ s.guardianList ∧ s.guardianVoteBlockNumber g ≠ 0 := by
  simp [votingGuardians]

theorem voteOf_le_totalVote {g : Address} (voting : g ∈ s.votingGuardians) : s.voteOf g ≤ s.totalVote :=
  List.le_sum_of_mem (List.mem_map_of_mem voting)

theorem Reaches.not_guardian {d g : Address} (reaches : s.Reaches d g) : d ∉ s.guardianList := by
  obtain ⟨_, first, -⟩ := Relation.TransGen.head'_iff.mp reaches
  exact first.2.1

theorem Reaches.mem {d g : Address} (reaches : s.Reaches d g) : d ∈ s.delegatorList := by
  obtain ⟨_, first, -⟩ := Relation.TransGen.head'_iff.mp reaches
  exact first.1

end Chains

section Walk

/-- The delegators `_calculateVotes` collects, with their stakes. -/
def collected : List Address × (Address → Option UInt64) := s.collectDelegatorsStake s.getGuardians

/-- The walk `_calculateVotes` makes below a guardian, with the fuel it gives the recursion. -/
def tallyWalk (g : Address) : List Address :=
  InTree.walk s.collected.1 s.delegatorAgent (s.collected.1.length + 1) g

/-- What `_calculateVotes` returns when no sum overflows: the votes of the voting guardians,
cast in turn, each with the walk below it. -/
def tallied : Votes := castSoFar s s.collected.2 s.tallyWalk s.votingGuardians

variable {s}

theorem mem_collected {a : Address} : a ∈ s.collected.1 ↔ a ∈ s.delegatorList ∧ a ∉ s.guardianList :=
  s.collectDelegatorsStake_collected.2 a

theorem collected_nodup : s.collected.1.Nodup := s.collectDelegatorsStake_collected.1.nodup

theorem collected_stake (a : Address) :
    s.collected.2 a = if a ∈ s.collected.1 then some (s.delegatorStake a) else none :=
  s.collectDelegatorsStake_collected.1.stakes a

theorem step_iff_delegates {d a : Address} :
    InTree.Step s.collected.1 s.delegatorAgent d a ↔ s.Delegates d a := by
  rw [InTree.Step, Delegates, mem_collected, and_assoc]

theorem below_iff_reaches {d g : Address} : InTree.Below s.collected.1 s.delegatorAgent d g ↔ s.Reaches d g := by
  have same : InTree.Step s.collected.1 s.delegatorAgent = s.Delegates := by
    funext d a
    exact propext step_iff_delegates
  rw [InTree.Below, Reaches, same]

/-- A guardian passes its stake to no one: the tally starts from the roots of the forest. -/
theorem guardian_root {g : Address} (guardian : g ∈ s.guardianList) (y : Address) :
    ¬InTree.Step s.collected.1 s.delegatorAgent g y :=
  fun step => (step_iff_delegates.mp step).2.1 guardian

theorem fits_tallyWalk {g : Address} (guardian : g ∈ s.guardianList) :
    InTree.Fits s.collected.1 s.delegatorAgent (s.collected.1.length + 1) g :=
  InTree.fits_length_succ (InTree.not_below_self_of_root (guardian_root guardian))

theorem mem_tallyWalk {g d : Address} (guardian : g ∈ s.guardianList) : d ∈ s.tallyWalk g ↔ s.Reaches d g := by
  rw [tallyWalk, InTree.mem_walk_iff (fits_tallyWalk guardian), below_iff_reaches]

theorem not_mem_tallyWalk {a : Address} (guardian : a ∈ s.guardianList) (g : Address) : a ∉ s.tallyWalk g :=
  fun member => (mem_collected.mp (InTree.mem_of_mem_walk member)).2 guardian

theorem nodup_tallyWalk {g : Address} (guardian : g ∈ s.guardianList) : (s.tallyWalk g).Nodup :=
  InTree.nodup_walk collected_nodup (fits_tallyWalk guardian) (InTree.not_below_self_of_root (guardian_root guardian))

/-- The chain of agents from a delegator reaches one guardian at most. -/
theorem Reaches.unique {d g₁ g₂ : Address} (reaches₁ : s.Reaches d g₁) (reaches₂ : s.Reaches d g₂)
    (guardian₁ : g₁ ∈ s.guardianList) (guardian₂ : g₂ ∈ s.guardianList) : g₁ = g₂ :=
  InTree.eq_of_below_of_below (guardian_root guardian₁) (guardian_root guardian₂)
    (below_iff_reaches.mpr reaches₁) (below_iff_reaches.mpr reaches₂)

/-- A guardian's votes as the tally adds them up are its votes. -/
theorem accumulated_eq_voteOf {g : Address} (guardian : g ∈ s.guardianList) :
    accumulated s s.collected.2 s.tallyWalk g = s.voteOf g := by
  classical
  have walkSum := InTree.sum_walk (fun d => ((s.collected.2 d).getD 0).toNat) collected_nodup
    (fits_tallyWalk guardian) (InTree.not_below_self_of_root (guardian_root guardian))
  -- the nodes below `g` are the delegators by index whose chain reaches it
  have below : InTree.descendants s.collected.1 s.delegatorAgent g = s.delegatorList.toFinset.filter (s.Reaches · g) := by
    ext d
    rw [InTree.mem_descendants, below_iff_reaches, Finset.mem_filter, List.mem_toFinset, mem_collected]
    exact ⟨fun ⟨⟨member, _⟩, reaches⟩ => ⟨member, reaches⟩,
      fun ⟨member, reaches⟩ => ⟨⟨member, reaches.not_guardian⟩, reaches⟩⟩
  rw [accumulated, voteOf, stakeSum, tallyWalk, walkSum, below]
  congr 1
  refine Finset.sum_congr rfl fun d member => ?_
  obtain ⟨delegator, reaches⟩ := Finset.mem_filter.mp member
  rw [collected_stake, if_pos (mem_collected.mpr ⟨List.mem_toFinset.mp delegator, reaches.not_guardian⟩),
    Option.getD_some]

theorem sum_accumulated_votingGuardians :
    (s.votingGuardians.map (accumulated s s.collected.2 s.tallyWalk)).sum = s.totalVote := by
  rw [totalVote]
  congr 1
  exact List.map_congr_left fun g member => accumulated_eq_voteOf (mem_votingGuardians.mp member).1

theorem candidateSum_votingGuardians (c : Address) :
    candidateSum s s.collected.2 s.tallyWalk s.votingGuardians c = s.candidateVote c := by
  rw [candidateSum, candidateVote]
  congr 1
  refine List.map_congr_left fun g member => ?_
  rw [accumulated_eq_voteOf (mem_votingGuardians.mp member).1]

end Walk

section Refinement

variable {s}

/-- `_calculateVotes` returns the votes of the voting guardians and writes each one's weight and
the total, when no sum overflows. -/
theorem calculateVotes_eq (fits : TallyFits s s.collected.2 s.tallyWalk s.votingGuardians) :
    calculateVotes s = some (s.tallied, { s with
      guardianVoteWeight := fun a => (s.tallied.guardiansAccumulatedStakes.get? a).getD (s.guardianVoteWeight a)
      totalVotingWeight := s.tallied.totalVotes }) := by
  have stakes : ∀ g ∈ s.guardianList,
      s.collectGuardiansStake g = none ∨ s.collectGuardiansStake g = some (s.guardianStake g) := by
    intro g _
    rw [collectGuardiansStake_apply]
    split_ifs
    · exact .inr rfl
    · exact .inl rfl
  have voting : (s.guardianList.filter fun g => (s.collectGuardiansStake g).isSome) = s.votingGuardians :=
    List.filter_congr fun g guardian => by
      by_cases silent : s.guardianVoteBlockNumber g = 0 <;> simp [collectGuardiansStake_apply, guardian, silent]
  have recurse : ∀ g ∈ s.guardianList, (s.collectGuardiansStake g).isSome → ∀ participants participantStakes,
      calculateOneGuardianVoteRecursive (s.findGuardianDelegators s.collected.1) s.collected.2
          (s.collected.1.length + 1) g participants participantStakes =
        tally s.collected.2 0 (s.tallyWalk g) participants participantStakes := by
    intro g guardian _ participants participantStakes
    -- a guardian is not a collected delegator, so the recursion starts it with no stake
    have unstaked : (s.collected.2 g).getD 0 = 0 := by
      rw [collected_stake, if_neg fun member => (mem_collected.mp member).2 guardian, Option.getD_none]
    rw [calculateOneGuardianVoteRecursive_eq s.collected.2 (s.findGuardianDelegators_getD s.collected.1)
      (fits_tallyWalk guardian), unstaked]
    rfl
  have loop := foldlM_castGuardianVote s s.collected.2 s.tallyWalk (s.collected.1.length + 1) s.collectGuardiansStake
    (s.findGuardianDelegators s.collected.1) s.guardianList [] stakes recurse (by rwa [voting, List.nil_append])
  rw [voting, List.nil_append] at loop
  have start : castSoFar s s.collected.2 s.tallyWalk [] = ⟨fun _ => none, 0, [], fun _ => none, .empty⟩ := rfl
  rw [start] at loop
  show guardiansCastVotes s (s.collected.1.length + 1) s.collectGuardiansStake (s.findGuardianDelegators s.collected.1)
    s.collected.2 = _
  rw [guardiansCastVotes, loop]
  rfl

end Refinement

section Tallied

variable {s}

theorem guardian_of_voting {g : Address} (voting : g ∈ s.votingGuardians) : g ∈ s.guardianList :=
  (mem_votingGuardians.mp voting).1

theorem mem_cons_tallyWalk {g e : Address} (guardian : g ∈ s.guardianList) :
    e ∈ g :: s.tallyWalk g ↔ e = g ∨ s.Reaches e g := by
  rw [List.mem_cons, mem_tallyWalk guardian]

/-- The parts of the walk that start at two guardians meet only when the guardians are one. -/
theorem eq_of_mem_cons_tallyWalk {g₁ g₂ e : Address} (guardian₁ : g₁ ∈ s.guardianList)
    (guardian₂ : g₂ ∈ s.guardianList) (in₁ : e ∈ g₁ :: s.tallyWalk g₁) (in₂ : e ∈ g₂ :: s.tallyWalk g₂) :
    g₁ = g₂ := by
  rcases (mem_cons_tallyWalk guardian₁).mp in₁ with rfl | reaches₁ <;>
    rcases (mem_cons_tallyWalk guardian₂).mp in₂ with rfl | reaches₂
  · rfl
  · exact absurd guardian₁ reaches₂.not_guardian
  · exact absurd guardian₂ reaches₁.not_guardian
  · exact reaches₁.unique reaches₂ guardian₁ guardian₂

theorem tallied_participants : s.tallied.participants = s.votingGuardians.flatMap fun g => g :: s.tallyWalk g := rfl

theorem mem_tallied_participants {a : Address} :
    a ∈ s.tallied.participants ↔ a ∈ s.votingGuardians ∨ ∃ g ∈ s.votingGuardians, s.Reaches a g := by
  rw [tallied_participants, List.mem_flatMap]
  constructor
  · rintro ⟨g, voting, inPart⟩
    rcases (mem_cons_tallyWalk (guardian_of_voting voting)).mp inPart with rfl | reaches
    · exact .inl voting
    · exact .inr ⟨g, voting, reaches⟩
  · rintro (voting | ⟨g, voting, reaches⟩)
    · exact ⟨a, voting, List.mem_cons_self⟩
    · exact ⟨g, voting, (mem_cons_tallyWalk (guardian_of_voting voting)).mpr (.inr reaches)⟩

/-- With distinct guardians, no one takes part twice. -/
theorem tallied_participants_nodup (distinct : s.guardianList.Nodup) : s.tallied.participants.Nodup := by
  rw [tallied_participants, List.nodup_flatMap]
  refine ⟨fun g voting => ?_, ?_⟩
  · have guardian := guardian_of_voting voting
    exact List.nodup_cons.mpr ⟨not_mem_tallyWalk guardian g, nodup_tallyWalk guardian⟩
  · refine (distinct.filter _).pairwise_of_forall_ne fun g₁ voting₁ g₂ voting₂ apart e in₁ in₂ => apart ?_
    exact eq_of_mem_cons_tallyWalk (guardian_of_voting voting₁) (guardian_of_voting voting₂) in₁ in₂

/-- One turn of the fold `castSoFar` makes for the participants' stakes. -/
def stakesStep (stakes : Address → Option UInt64) (g : Address) : Address → Option UInt64 :=
  withStakes s.collected.2 (Function.update stakes g (some (s.guardianStake g))) (s.tallyWalk g)

/-- A guardian's stake as a participant is its own, from the turn it votes on: no walk meets it. -/
theorem foldl_stakesStep_of_guardian (done : List Address) (stakes : Address → Option UInt64) {a : Address}
    (guardian : a ∈ s.guardianList) :
    done.foldl s.stakesStep stakes a = if a ∈ done then some (s.guardianStake a) else stakes a := by
  induction done generalizing stakes with
  | nil => simp
  | cons g done ih =>
    rw [List.foldl_cons, ih, stakesStep, withStakes, if_neg (not_mem_tallyWalk guardian g)]
    by_cases later : a ∈ done
    · simp [later]
    · by_cases here : a = g <;> simp [later, here]

/-- A delegator's stake as a participant is its collected stake, once a walk has met it. -/
theorem foldl_stakesStep_of_not_guardian {done : List Address} (guardians : ∀ g ∈ done, g ∈ s.guardianList)
    (stakes : Address → Option UInt64) {a : Address} (outside : a ∉ s.guardianList) :
    done.foldl s.stakesStep stakes a =
      if a ∈ done.flatMap s.tallyWalk then some ((s.collected.2 a).getD 0) else stakes a := by
  induction done generalizing stakes with
  | nil => simp
  | cons g done ih =>
    have apart : a ≠ g := fun same => outside (same ▸ guardians g List.mem_cons_self)
    rw [List.foldl_cons, ih fun g' member => guardians g' (List.mem_cons_of_mem g member), stakesStep, withStakes]
    by_cases later : a ∈ done.flatMap s.tallyWalk
    · simp [later]
    · by_cases here : a ∈ s.tallyWalk g <;> simp [later, here, apart]

open Classical in
theorem tallied_participantStakes (a : Address) :
    s.tallied.participantStakes a =
      if a ∈ s.votingGuardians then some (s.guardianStake a)
      else if ∃ g ∈ s.votingGuardians, s.Reaches a g then some (s.delegatorStake a) else none := by
  have fold : s.tallied.participantStakes = s.votingGuardians.foldl s.stakesStep fun _ => none := rfl
  by_cases guardian : a ∈ s.guardianList
  · have unreached : ¬∃ g ∈ s.votingGuardians, s.Reaches a g := fun ⟨_, _, reaches⟩ => reaches.not_guardian guardian
    rw [fold, foldl_stakesStep_of_guardian _ _ guardian, if_neg unreached]
  · have silent : a ∉ s.votingGuardians := fun voting => guardian (guardian_of_voting voting)
    have met : a ∈ s.votingGuardians.flatMap s.tallyWalk ↔ ∃ g ∈ s.votingGuardians, s.Reaches a g := by
      rw [List.mem_flatMap]
      exact exists_congr fun g => and_congr_right fun voting => mem_tallyWalk (guardian_of_voting voting)
    rw [fold, foldl_stakesStep_of_not_guardian (fun g => guardian_of_voting) _ guardian, if_neg silent]
    by_cases reached : ∃ g ∈ s.votingGuardians, s.Reaches a g
    · obtain ⟨g, voting, reaches⟩ := reached
      rw [if_pos (met.mpr ⟨g, voting, reaches⟩), if_pos ⟨g, voting, reaches⟩, collected_stake,
        if_pos (mem_collected.mpr ⟨reaches.mem, guardian⟩), Option.getD_some]
    · rw [if_neg (fun member => reached (met.mp member)), if_neg reached]

theorem tallied_accumulated_get? (g : Address) :
    s.tallied.guardiansAccumulatedStakes.get? g =
      if g ∈ s.votingGuardians then some (UInt64.ofNat (accumulated s s.collected.2 s.tallyWalk g)) else none := by
  rw [tallied, castSoFar, OrderedMap.get?_foldl_set (fun g => UInt64.ofNat (accumulated s s.collected.2 s.tallyWalk g)),
    OrderedMap.get?_empty]
  -- the two sides decide membership through different equality tests on addresses
  by_cases voting : g ∈ s.votingGuardians <;> simp [voting]

theorem tallied_accumulated_keys (distinct : s.guardianList.Nodup) :
    s.tallied.guardiansAccumulatedStakes.keys = s.votingGuardians := by
  have fresh : ((OrderedMap.empty : OrderedMap Address UInt64).keys ++ s.votingGuardians).Nodup := by
    rw [OrderedMap.keys_empty, List.nil_append]
    exact distinct.filter _
  rw [tallied, castSoFar, OrderedMap.keys_foldl_set _ _ _ fresh, OrderedMap.keys_empty, List.nil_append]

section Fits

variable (fits : s.totalVote < 2 ^ 64 ∧ ∀ c, s.candidateVote c < 2 ^ 64)
include fits

theorem tallyFits_votingGuardians : TallyFits s s.collected.2 s.tallyWalk s.votingGuardians where
  total := by rw [sum_accumulated_votingGuardians]; exact fits.1
  candidates c := by rw [candidateSum_votingGuardians]; exact fits.2 c

theorem voteOf_lt {g : Address} (voting : g ∈ s.votingGuardians) : s.voteOf g < 2 ^ 64 :=
  calc s.voteOf g
      ≤ s.totalVote := voteOf_le_totalVote voting
    _ < 2 ^ 64 := fits.1

/-- Without overflow, the tally's votes are the guardians' votes. -/
theorem tallied_correct (distinct : s.guardianList.Nodup) : s.TallyCorrect s.tallied where
  total := by
    rw [tallied, castSoFar, UInt64.toNat_ofNat_of_lt' (tallyFits_votingGuardians fits).total,
      sum_accumulated_votingGuardians]
  accumulatedKeys := tallied_accumulated_keys distinct
  accumulated g voting := by
    rw [tallied_accumulated_get?, if_pos voting, Option.map_some, accumulated_eq_voteOf (guardian_of_voting voting),
      UInt64.toNat_ofNat_of_lt' (voteOf_lt fits voting)]
  participates d outside := by
    rw [mem_tallied_participants]
    exact or_iff_right fun voting => outside (guardian_of_voting voting)
  once d outside reached := by
    have silent : d ∉ s.votingGuardians := fun voting => outside (guardian_of_voting voting)
    refine ⟨List.count_eq_one_of_mem (tallied_participants_nodup distinct) (mem_tallied_participants.mpr (.inr reached)), ?_⟩
    rw [tallied_participantStakes, if_neg silent, if_pos reached]
  candidates c := by
    by_cases listed : ∃ g ∈ s.votingGuardians, c ∈ s.getCandidates g
    · have sum := candidateSum_votingGuardians (s := s) c
      simp only [tallied, castSoFar, if_pos (List.mem_flatMap.mpr listed), if_pos listed, Option.map_some]
      rw [UInt64.toNat_ofNat_of_lt' ((tallyFits_votingGuardians fits).candidates c), sum]
    · simp only [tallied, castSoFar, if_neg (fun member => listed (List.mem_flatMap.mp member)), if_neg listed,
        Option.map_none]

end Fits

/-- For distinct guardians, any delegators, any agents and any stakes with which no sum overflows,
`_calculateVotes` returns: as the total, the votes of the voting guardians, each guardian's votes
being its stake and that of the delegators whose chain reaches it; each voting guardian's votes as
its accumulated stake; each such delegator once among the participants, with its stake; and for
each candidate the votes of each voting guardian that lists it, as many times as it lists it. -/
theorem calculateVotes_tally (distinct : s.guardianList.Nodup)
    (fits : s.totalVote < 2 ^ 64 ∧ ∀ c, s.candidateVote c < 2 ^ 64) :
    ∃ votes s', calculateVotes s = some (votes, s') ∧ s.TallyCorrect votes :=
  ⟨s.tallied, _, calculateVotes_eq (tallyFits_votingGuardians fits), tallied_correct fits distinct⟩

/-- A state whose one guardian `g` has voted with `stake` for `candidates`, with no delegators. -/
def soleGuardian (g : Address) (stake : UInt64) (candidates : List Address) : State :=
  { initial with
    numberOfGuardians := 1
    guardianAtIndex := fun _ => g
    guardian := fun _ => 1
    guardianStake := fun _ => stake
    guardianVoteBlockNumber := fun _ => 1
    guardianCandidates := fun _ => candidatesBytes candidates }

/-- The state in which guardian `[1, ..]`, with stake 5, has voted for `[2, ..]`, and delegator
`[3, ..]`, with stake 7, delegates to `[4, ..]`, with stake 11, which delegates to the guardian. -/
def delegationChain : State :=
  { soleGuardian (Vector.replicate 20 1) 5 [Vector.replicate 20 2] with
    guardian := fun a => if a = Vector.replicate 20 1 then 1 else 0
    numberOfDelegators := 2
    delegatorAtIndex := fun i => if i = 0 then Vector.replicate 20 3 else Vector.replicate 20 4
    delegatorAgent := fun a => if a = Vector.replicate 20 3 then Vector.replicate 20 4 else Vector.replicate 20 1
    delegatorStake := fun a => if a = Vector.replicate 20 3 then 7 else 11 }

theorem calculateVotes_tally_delegationChain :
    delegationChain.guardianList.Nodup ∧
      (delegationChain.totalVote < 2 ^ 64 ∧ ∀ c, delegationChain.candidateVote c < 2 ^ 64) ∧
      ∃ votes s', calculateVotes delegationChain = some (votes, s') ∧ delegationChain.TallyCorrect votes := by
  have distinct : delegationChain.guardianList.Nodup := by decide
  have voting : delegationChain.votingGuardians = [Vector.replicate 20 1] := by decide
  have votes : accumulated delegationChain delegationChain.collected.2 delegationChain.tallyWalk
      (Vector.replicate 20 1) = 23 := by
    decide
  have fits : delegationChain.totalVote < 2 ^ 64 ∧ ∀ c, delegationChain.candidateVote c < 2 ^ 64 := by
    refine ⟨?_, fun c => ?_⟩
    · rw [← sum_accumulated_votingGuardians, voting, List.map_singleton, List.sum_singleton, votes]
      norm_num
    · have once := List.count_le_length (a := c) (l := [Vector.replicate 20 2])
      rw [← candidateSum_votingGuardians, candidateSum, voting, List.map_singleton, List.sum_singleton, votes]
      simp only [getCandidates, delegationChain, soleGuardian, getCandidatesOf_candidatesBytes] at once ⊢
      simp only [List.length_singleton] at once
      omega
  exact ⟨distinct, fits, calculateVotes_tally distinct fits⟩

/-- A guardian that lists a candidate twice gives it its votes twice: a guardian with 5 votes
gives 10 to the candidate it lists twice. -/
theorem calculateVotes_counts_candidate_twice :
    (calculateVotes (soleGuardian (Vector.replicate 20 1) 5 [Vector.replicate 20 2, Vector.replicate 20 2])).map
        (fun result => (result.1.guardiansAccumulatedStakes.get? (Vector.replicate 20 1),
          result.1.candidateVotes (Vector.replicate 20 2))) =
      some (some 5, some 10) := by
  decide

end Tallied

end State

end OrbsNetwork.Elections
