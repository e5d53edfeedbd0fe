import OrbsNetwork.Elections.Tally
import OrbsNetwork.Library.InTree

namespace OrbsNetwork.Elections

open CheckedArith

namespace State

variable (s : State)

section Collect

theorem foldl_collectGuardianStake (l : List Address) (m : Address → Option UInt64) (a : Address) :
    l.foldl s.collectGuardianStake m a =
      if a ∈ l ∧ s.guardianVoteBlockNumber a ≠ 0 then some (s.guardianStake a) else m a := by
  induction l generalizing m with
  | nil => simp
  | cons g l ih =>
    rw [List.foldl_cons, ih, collectGuardianStake]
    by_cases here : a = g
    · subst here
      by_cases voted : s.guardianVoteBlockNumber a ≠ 0 <;> simp [voted]
    · by_cases voted : s.guardianVoteBlockNumber g ≠ 0 <;> simp [voted, here]

theorem collectGuardiansStake_apply (a : Address) :
    s.collectGuardiansStake a =
      if a ∈ s.guardianList ∧ s.guardianVoteBlockNumber a ≠ 0 then some (s.guardianStake a) else none :=
  s.foldl_collectGuardianStake _ _ a

/-- What `_collectDelegatorsStake` has collected so far: distinct delegators, each with its stake. -/
structure Collected (collected : List Address × (Address → Option UInt64)) : Prop where
  nodup : collected.1.Nodup
  stakes : ∀ a, collected.2 a = if a ∈ collected.1 then some (s.delegatorStake a) else none

theorem collectDelegatorStake_collected (guardians : Address → Bool) {collected : List Address × (Address → Option UInt64)}
    (before : s.Collected collected) (delegator : Address) :
    s.Collected (s.collectDelegatorStake guardians collected delegator) ∧
      ∀ a, a ∈ (s.collectDelegatorStake guardians collected delegator).1 ↔
        a ∈ collected.1 ∨ (a = delegator ∧ guardians delegator = false) := by
  obtain ⟨delegators, delegatorStakes⟩ := collected
  obtain ⟨nodup, stakes⟩ := before
  dsimp only at nodup stakes
  unfold collectDelegatorStake
  by_cases guardian : guardians delegator = true
  · simp only [guardian, Bool.not_true, Bool.false_eq_true, ↓reduceIte]
    exact ⟨⟨nodup, stakes⟩, fun a => by simp⟩
  · have outside : guardians delegator = false := by simpa using guardian
    by_cases fresh : (delegatorStakes delegator).isNone = true
    · have absent : delegator ∉ delegators := by
        intro present
        rw [stakes delegator, if_pos present] at fresh
        exact absurd fresh (by simp)
      simp only [outside, Bool.not_false, fresh, ↓reduceIte]
      refine ⟨⟨List.nodup_append.mpr ⟨nodup, List.nodup_singleton _, ?_⟩, fun a => ?_⟩, fun a => ?_⟩
      · intro a member b single same
        have atDelegator : a = delegator := same.trans (List.mem_singleton.mp single)
        exact absent (atDelegator ▸ member)
      · by_cases here : a = delegator
        · subst here
          simp
        · simp [stakes a, here]
      · simp
    · have present : delegator ∈ delegators := by
        by_contra absent
        rw [stakes delegator, if_neg absent] at fresh
        exact fresh rfl
      simp only [outside, Bool.not_false, fresh, Bool.false_eq_true, ↓reduceIte]
      refine ⟨⟨nodup, stakes⟩, fun a => ⟨.inl, ?_⟩⟩
      rintro (member | ⟨rfl, -⟩)
      · exact member
      · exact present

theorem foldl_collectDelegatorStake (guardians : Address → Bool) (l : List Address)
    {collected : List Address × (Address → Option UInt64)} (before : s.Collected collected) :
    s.Collected (l.foldl (s.collectDelegatorStake guardians) collected) ∧
      ∀ a, a ∈ (l.foldl (s.collectDelegatorStake guardians) collected).1 ↔
        a ∈ collected.1 ∨ (a ∈ l ∧ guardians a = false) := by
  induction l generalizing collected with
  | nil => exact ⟨before, fun a => by simp⟩
  | cons delegator l ih =>
    obtain ⟨step, stepMembers⟩ := s.collectDelegatorStake_collected guardians before delegator
    obtain ⟨after, members⟩ := ih step
    refine ⟨after, fun a => ?_⟩
    rw [List.foldl_cons, members, stepMembers]
    constructor
    · rintro ((member | ⟨rfl, outside⟩) | ⟨member, outside⟩)
      · exact .inl member
      · exact .inr ⟨List.mem_cons_self, outside⟩
      · exact .inr ⟨List.mem_cons_of_mem _ member, outside⟩
    · rintro (member | ⟨member, outside⟩)
      · exact .inl (.inl member)
      · rcases List.mem_cons.mp member with rfl | later
        · exact .inl (.inr ⟨rfl, outside⟩)
        · exact .inr ⟨later, outside⟩

/-- `_collectDelegatorsStake` collects each delegator by index that is not a guardian, once,
with its stake. -/
theorem collectDelegatorsStake_collected :
    s.Collected (s.collectDelegatorsStake s.getGuardians) ∧
      ∀ a, a ∈ (s.collectDelegatorsStake s.getGuardians).1 ↔ a ∈ s.delegatorList ∧ a ∉ s.guardianList := by
  have empty : s.Collected ([], fun _ => none) := ⟨List.nodup_nil, fun a => by simp⟩
  obtain ⟨collected, members⟩ := s.foldl_collectDelegatorStake s.getGuardians s.delegatorList empty
  refine ⟨collected, fun a => ?_⟩
  rw [collectDelegatorsStake, members]
  simp [getGuardians]

theorem foldl_findGuardianDelegator (l : List Address) (m : Address → Option (List Address)) (x : Address) :
    (l.foldl s.findGuardianDelegator m x).getD [] =
      (m x).getD [] ++ l.filter fun d => s.delegatorAgent d = x ∧ d ≠ x := by
  induction l generalizing m with
  | nil => simp
  | cons d l ih =>
    rw [List.foldl_cons, ih, findGuardianDelegator]
    by_cases named : s.delegatorAgent d ≠ d
    · by_cases here : x = s.delegatorAgent d
      · subst here
        simp [named, Ne.symm named]
      · simp [named, here, Ne.symm here]
    · have self : s.delegatorAgent d = d := by simpa using named
      simp [self]

/-- The delegators `_findGuardianDelegators` lists under an agent are its children in the forest
of delegations. -/
theorem findGuardianDelegators_getD (delegators : List Address) (x : Address) :
    (s.findGuardianDelegators delegators x).getD [] = InTree.children delegators s.delegatorAgent x := by
  rw [findGuardianDelegators, foldl_findGuardianDelegator]
  rfl

end Collect

end State

section Recursion

variable (delegatorStakes : Address → Option UInt64)

/-- The stakes of `met` added up, a missing stake as zero. -/
def stakeSum (met : List Address) : Nat := (met.map fun d => ((delegatorStakes d).getD 0).toNat).sum

/-- The participants' stakes once each of `met` is added with its stake. -/
def withStakes (participantStakes : Address → Option UInt64) (met : List Address) : Address → Option UInt64 :=
  fun a => if a ∈ met then some ((delegatorStakes a).getD 0) else participantStakes a

/-- What the recursion below a node returns when it meets `met`: the node's votes `start` with
the stakes of all it meets, when that fits in 64 bits, and the participants and their stakes
with those it met added. -/
def tally (start : UInt64) (met participants : List Address) (participantStakes : Address → Option UInt64) :
    Option (UInt64 × List Address × (Address → Option UInt64)) :=
  if start.toNat + stakeSum delegatorStakes met < 2 ^ 64 then
    some (UInt64.ofNat (start.toNat + stakeSum delegatorStakes met), participants ++ met,
      withStakes delegatorStakes participantStakes met)
  else none

section Lemmas

variable {start : UInt64} {met participants : List Address} {participantStakes : Address → Option UInt64}

@[simp] theorem stakeSum_nil : stakeSum delegatorStakes [] = 0 := rfl

@[simp] theorem stakeSum_cons (d : Address) (met : List Address) :
    stakeSum delegatorStakes (d :: met) = ((delegatorStakes d).getD 0).toNat + stakeSum delegatorStakes met := by
  simp [stakeSum]

@[simp] theorem stakeSum_append (met met' : List Address) :
    stakeSum delegatorStakes (met ++ met') = stakeSum delegatorStakes met + stakeSum delegatorStakes met' := by
  simp [stakeSum]

theorem withStakes_append (met met' : List Address) :
    withStakes delegatorStakes (withStakes delegatorStakes participantStakes met) met' =
      withStakes delegatorStakes participantStakes (met ++ met') := by
  funext a
  by_cases later : a ∈ met' <;> by_cases earlier : a ∈ met <;> simp [withStakes, later, earlier]

theorem withStakes_singleton (d : Address) :
    withStakes delegatorStakes participantStakes [d] =
      Function.update participantStakes d (some ((delegatorStakes d).getD 0)) := by
  funext a
  by_cases here : a = d
  · subst here
    simp [withStakes]
  · simp [withStakes, here]

theorem tally_of_lt (fits : start.toNat + stakeSum delegatorStakes met < 2 ^ 64) :
    tally delegatorStakes start met participants participantStakes =
      some (UInt64.ofNat (start.toNat + stakeSum delegatorStakes met), participants ++ met,
        withStakes delegatorStakes participantStakes met) := if_pos fits

theorem tally_of_le (overflow : 2 ^ 64 ≤ start.toNat + stakeSum delegatorStakes met) :
    tally delegatorStakes start met participants participantStakes = none := if_neg (by omega)

theorem tally_nil : tally delegatorStakes start [] participants participantStakes =
    some (start, participants, participantStakes) := by
  have unchanged : withStakes delegatorStakes participantStakes [] = participantStakes := by
    funext a
    simp [withStakes]
  rw [tally_of_lt delegatorStakes (by simpa using UInt64.toNat_lt start)]
  simp [unchanged]

end Lemmas

/-- The loop over a node's delegators, when the call below each delegate returns what it meets
there: it meets each delegate and then what lies below it. -/
theorem foldlM_castDelegateVote
    {recurse : Address → List Address → (Address → Option UInt64) →
      Option (UInt64 × List Address × (Address → Option UInt64))}
    (below : Address → List Address) (l : List Address)
    (each : ∀ d ∈ l, ∀ participants participantStakes, recurse d participants participantStakes =
      tally delegatorStakes ((delegatorStakes d).getD 0) (below d) participants participantStakes)
    (start : UInt64) (participants : List Address) (participantStakes : Address → Option UInt64) :
    l.foldlM (castDelegateVote delegatorStakes recurse) (start, participants, participantStakes) =
      tally delegatorStakes start (l.flatMap fun d => d :: below d) participants participantStakes := by
  induction l generalizing start participants participantStakes with
  | nil => exact (tally_nil delegatorStakes).symm
  | cons d l ih =>
    have later : ∀ d' ∈ l, _ := fun d' member => each d' (List.mem_cons_of_mem d member)
    -- the votes below `d`, `d` included, and those of the delegates after it
    have whole : stakeSum delegatorStakes ((d :: l).flatMap fun d => d :: below d) =
        (((delegatorStakes d).getD 0).toNat + stakeSum delegatorStakes (below d)) +
          stakeSum delegatorStakes (l.flatMap fun d => d :: below d) := by
      simp [Nat.add_assoc]
    rw [List.foldlM_cons, castDelegateVote, each d List.mem_cons_self]
    by_cases fitsBelow : ((delegatorStakes d).getD 0).toNat + stakeSum delegatorStakes (below d) < 2 ^ 64
    · rw [tally_of_lt delegatorStakes fitsBelow]
      simp only [Option.bind_eq_bind, Option.bind_some]
      cases added : add start (UInt64.ofNat (((delegatorStakes d).getD 0).toNat + stakeSum delegatorStakes (below d))) with
      | none =>
        have overflow := add_eq_none_iff.mp added
        rw [UInt64.toNat_ofNat_of_lt' fitsBelow] at overflow
        rw [Option.bind_none, Option.bind_none, tally_of_le delegatorStakes (by rw [whole]; omega)]
      | some sum =>
        obtain ⟨-, value⟩ := add_eq_some_iff.mp added
        rw [UInt64.toNat_ofNat_of_lt' fitsBelow] at value
        simp only [Option.bind_some, Option.pure_def]
        rw [ih later sum, tally, tally, value, whole, ← withStakes_singleton, withStakes_append, withStakes_append,
          List.flatMap_cons]
        simp only [Nat.add_assoc, List.append_assoc, List.cons_append, List.nil_append]
    · rw [tally_of_le delegatorStakes (by omega), tally_of_le delegatorStakes (by rw [whole]; omega)]
      rfl

section Walk

variable {delegators : List Address} {agent : Address → Address} {guardianToDelegators : Address → Option (List Address)}

/-- Below a node whose walk the fuel lasts, `_calculateOneGuardianVoteRecursive` meets the nodes
of that walk, in its order: its votes are the node's stake and theirs. -/
theorem calculateOneGuardianVoteRecursive_eq
    (listed : ∀ x, (guardianToDelegators x).getD [] = InTree.children delegators agent x)
    {fuel : Nat} {x : Address} (fits : InTree.Fits delegators agent fuel x)
    (participants : List Address) (participantStakes : Address → Option UInt64) :
    calculateOneGuardianVoteRecursive guardianToDelegators delegatorStakes fuel x participants participantStakes =
      tally delegatorStakes ((delegatorStakes x).getD 0) (InTree.walk delegators agent fuel x)
        participants participantStakes := by
  induction fuel generalizing x participants participantStakes with
  | zero => exact fits.elim
  | succ fuel ih =>
    have loop := foldlM_castDelegateVote delegatorStakes (InTree.walk delegators agent fuel)
      (InTree.children delegators agent x) (fun d child => ih (fits d child))
      ((delegatorStakes x).getD 0) participants participantStakes
    rw [calculateOneGuardianVoteRecursive]
    -- with no delegators listed, the match returns what the loop over none would
    cases listedAt : guardianToDelegators x with
    | none =>
      have none : InTree.children delegators agent x = [] := by rw [← listed x, listedAt]; rfl
      rw [InTree.walk, none, List.flatMap_nil, tally_nil]
    | some l =>
      have some : l = InTree.children delegators agent x := by rw [← listed x, listedAt]; rfl
      rw [some]
      exact loop

/-- More fuel than the walk below `x` needs changes nothing: the fuel bounds the recursion and
never cuts it short. -/
theorem calculateOneGuardianVoteRecursive_of_le
    (listed : ∀ x, (guardianToDelegators x).getD [] = InTree.children delegators agent x)
    {fuel fuel' : Nat} {x : Address} (fits : InTree.Fits delegators agent fuel x) (more : fuel ≤ fuel')
    (participants : List Address) (participantStakes : Address → Option UInt64) :
    calculateOneGuardianVoteRecursive guardianToDelegators delegatorStakes fuel' x participants participantStakes =
      calculateOneGuardianVoteRecursive guardianToDelegators delegatorStakes fuel x participants participantStakes := by
  obtain ⟨fits', same⟩ := InTree.walk_of_le fits more
  rw [calculateOneGuardianVoteRecursive_eq delegatorStakes listed fits',
    calculateOneGuardianVoteRecursive_eq delegatorStakes listed fits, same]

end Walk

end Recursion

section Candidates

/-- The loop over a guardian's candidates adds its stake to each candidate once for each time the
candidate is listed, when no sum overflows. -/
theorem foldlM_addCandidateVote (stake : UInt64) (candidates : List Address) (candidateVotes : Address → Option UInt64)
    (bound : ∀ c ∈ candidates, ((candidateVotes c).getD 0).toNat + candidates.count c * stake.toNat < 2 ^ 64) :
    candidates.foldlM (addCandidateVote stake) candidateVotes =
      some fun c => if c ∈ candidates then
        some (UInt64.ofNat (((candidateVotes c).getD 0).toNat + candidates.count c * stake.toNat))
      else candidateVotes c := by
  induction candidates generalizing candidateVotes with
  | nil => rfl
  | cons first later ih =>
    have atFirst := bound first List.mem_cons_self
    rw [List.count_cons_self, Nat.succ_mul] at atFirst
    obtain ⟨sum, added⟩ : ∃ sum, add ((candidateVotes first).getD 0) stake = some sum :=
      Option.ne_none_iff_exists'.mp (fun overflow => by have := add_eq_none_iff.mp overflow; omega)
    obtain ⟨-, value⟩ := add_eq_some_iff.mp added
    let updated := Function.update candidateVotes first (some sum)
    -- the candidates after the first see the first one's sum already added
    have bound' : ∀ c ∈ later, ((updated c).getD 0).toNat + later.count c * stake.toNat < 2 ^ 64 := by
      intro c member
      have whole := bound c (List.mem_cons_of_mem first member)
      by_cases here : c = first
      · subst here
        simp only [updated, Function.update_self, Option.getD_some, value]
        rw [List.count_cons_self, Nat.succ_mul] at whole
        omega
      · simp only [updated, Function.update_of_ne here]
        rwa [List.count_cons_of_ne (Ne.symm here)] at whole
    rw [List.foldlM_cons, addCandidateVote, added]
    simp only [Option.bind_eq_bind, Option.bind_some, Option.pure_def]
    rw [ih updated bound']
    congr 1
    funext c
    by_cases here : c = first
    · subst here
      by_cases again : c ∈ later
      · simp only [again, ↓reduceIte, updated, Function.update_self, Option.getD_some, value, List.mem_cons_self,
          List.count_cons_self]
        rw [Nat.succ_mul, Nat.add_assoc, Nat.add_comm stake.toNat]
      · simp only [again, ↓reduceIte, updated, Function.update_self, List.mem_cons_self, List.count_cons_self,
          List.count_eq_zero_of_not_mem again]
        rw [Nat.zero_add, Nat.one_mul, ← value, UInt64.ofNat_toNat]
    · simp [updated, here, List.count_cons_of_ne (Ne.symm here)]

end Candidates

section Cast

variable (s : State) (delegatorStakes : Address → Option UInt64) (below : Address → List Address)

/-- A voting guardian's votes once the walk below it is done: its own stake and the stakes met. -/
def accumulated (g : Address) : Nat := (s.guardianStake g).toNat + stakeSum delegatorStakes (below g)

/-- The votes a candidate gets from the guardians `done`: each guardian's votes as many times as
it lists the candidate. -/
def candidateSum (done : List Address) (c : Address) : Nat :=
  (done.map fun g => (s.getCandidates g).count c * accumulated s delegatorStakes below g).sum

/-- What the loop of `_guardiansCastVotes` holds once the voting guardians `done` have cast their
votes, each with the walk `below` it. -/
def castSoFar (done : List Address) : Votes where
  candidateVotes c := if c ∈ done.flatMap s.getCandidates then
      some (UInt64.ofNat (candidateSum s delegatorStakes below done c))
    else none
  totalVotes := UInt64.ofNat (done.map (accumulated s delegatorStakes below)).sum
  participants := done.flatMap fun g => g :: below g
  participantStakes := done.foldl (fun stakes g =>
    withStakes delegatorStakes (Function.update stakes g (some (s.guardianStake g))) (below g)) fun _ => none
  guardiansAccumulatedStakes :=
    done.foldl (fun m g => m.set g (UInt64.ofNat (accumulated s delegatorStakes below g))) .empty

/-- No sum the tally of the guardians `done` makes overflows. -/
structure TallyFits (done : List Address) : Prop where
  total : (done.map (accumulated s delegatorStakes below)).sum < 2 ^ 64
  candidates : ∀ c, candidateSum s delegatorStakes below done c < 2 ^ 64

theorem TallyFits.of_append {done later : List Address} (fits : TallyFits s delegatorStakes below (done ++ later)) :
    TallyFits s delegatorStakes below done := by
  obtain ⟨total, candidates⟩ := fits
  refine ⟨?_, fun c => ?_⟩
  · rw [List.map_append, List.sum_append] at total
    omega
  · have whole := candidates c
    rw [candidateSum, List.map_append, List.sum_append] at whole
    rw [candidateSum]
    omega

theorem candidateSum_append_singleton (done : List Address) (g c : Address) :
    candidateSum s delegatorStakes below (done ++ [g]) c =
      candidateSum s delegatorStakes below done c + (s.getCandidates g).count c * accumulated s delegatorStakes below g := by
  simp [candidateSum]

/-- The votes a candidate has so far, a missing one as zero. -/
theorem castSoFar_candidateVotes_getD {done : List Address} (fits : TallyFits s delegatorStakes below done) (c : Address) :
    (((castSoFar s delegatorStakes below done).candidateVotes c).getD 0).toNat = candidateSum s delegatorStakes below done c := by
  simp only [castSoFar]
  split_ifs with listed
  · rw [Option.getD_some, UInt64.toNat_ofNat_of_lt' (fits.candidates c)]
  · have none : ∀ g ∈ done, (s.getCandidates g).count c = 0 := fun g member =>
      List.count_eq_zero_of_not_mem fun listedByG => listed (List.mem_flatMap.mpr ⟨g, member, listedByG⟩)
    rw [Option.getD_none, UInt64.toNat_zero, candidateSum, eq_comm]
    refine List.sum_eq_zero fun n member => ?_
    obtain ⟨g, inDone, rfl⟩ := List.mem_map.mp member
    rw [none g inDone, Nat.zero_mul]

variable (fuel : Nat) (guardianStakes : Address → Option UInt64) (guardianDelegators : Address → Option (List Address))

/-- A guardian that does not vote leaves the loop as it was. -/
theorem castGuardianVote_of_none {votes : Votes} {g : Address} (silent : guardianStakes g = none) :
    castGuardianVote s fuel guardianStakes guardianDelegators delegatorStakes votes g = some votes := by
  rw [castGuardianVote, silent]

/-- A voting guardian, with the walk below it, casts its votes, when they fit. -/
theorem castGuardianVote_of_some {done : List Address} {g : Address} (voted : guardianStakes g = some (s.guardianStake g))
    (recurse : ∀ participants participantStakes,
      calculateOneGuardianVoteRecursive guardianDelegators delegatorStakes fuel g participants participantStakes =
        tally delegatorStakes 0 (below g) participants participantStakes)
    (fits : TallyFits s delegatorStakes below (done ++ [g])) :
    castGuardianVote s fuel guardianStakes guardianDelegators delegatorStakes (castSoFar s delegatorStakes below done) g =
      some (castSoFar s delegatorStakes below (done ++ [g])) := by
  have before := fits.of_append
  have ownTotal : (done.map (accumulated s delegatorStakes below)).sum + accumulated s delegatorStakes below g < 2 ^ 64 := by
    simpa using fits.total
  have delegated : (0 : UInt64).toNat + stakeSum delegatorStakes (below g) < 2 ^ 64 := by
    unfold accumulated at ownTotal
    rw [UInt64.toNat_zero]
    omega
  obtain ⟨stake, addedStake⟩ :
      ∃ stake, add (s.guardianStake g) (UInt64.ofNat ((0 : UInt64).toNat + stakeSum delegatorStakes (below g))) = some stake := by
    refine Option.ne_none_iff_exists'.mp fun overflow => ?_
    have := add_eq_none_iff.mp overflow
    rw [UInt64.toNat_ofNat_of_lt' delegated, UInt64.toNat_zero] at this
    unfold accumulated at ownTotal
    omega
  have stakeValue : stake.toNat = accumulated s delegatorStakes below g := by
    obtain ⟨-, value⟩ := add_eq_some_iff.mp addedStake
    rw [value, UInt64.toNat_ofNat_of_lt' delegated, UInt64.toNat_zero, Nat.zero_add, accumulated]
  have totalBefore := UInt64.toNat_ofNat_of_lt' before.total
  obtain ⟨total, addedTotal⟩ : ∃ total, add (castSoFar s delegatorStakes below done).totalVotes stake = some total := by
    refine Option.ne_none_iff_exists'.mp fun overflow => ?_
    have := add_eq_none_iff.mp overflow
    simp only [castSoFar] at this
    omega
  have totalValue : total.toNat = (done.map (accumulated s delegatorStakes below)).sum + accumulated s delegatorStakes below g := by
    obtain ⟨-, value⟩ := add_eq_some_iff.mp addedTotal
    simp only [castSoFar] at value
    omega
  -- each candidate of `g` gets `g`'s votes as many times as `g` lists it
  have bound : ∀ c ∈ s.getCandidates g,
      (((castSoFar s delegatorStakes below done).candidateVotes c).getD 0).toNat +
        (s.getCandidates g).count c * stake.toNat < 2 ^ 64 := by
    intro c _
    rw [castSoFar_candidateVotes_getD s delegatorStakes below before, stakeValue,
      ← candidateSum_append_singleton]
    exact fits.candidates c
  rw [castGuardianVote, voted]
  simp only [Option.bind_eq_bind]
  rw [recurse, tally_of_lt delegatorStakes delegated]
  simp only [Option.bind_some]
  rw [addedStake]
  simp only [Option.bind_some]
  rw [addedTotal]
  simp only [Option.bind_some]
  rw [foldlM_addCandidateVote stake _ _ bound]
  simp only [Option.bind_some, Option.pure_def, Option.some.injEq]
  have stakeEq : stake = UInt64.ofNat (accumulated s delegatorStakes below g) := by
    rw [← stakeValue, UInt64.ofNat_toNat]
  have totalEq : total = UInt64.ofNat ((done ++ [g]).map (accumulated s delegatorStakes below)).sum := by
    rw [List.map_append, List.sum_append, List.map_singleton, List.sum_singleton, ← totalValue, UInt64.ofNat_toNat]
  have candidatesEq : (fun c => if c ∈ s.getCandidates g then
        some (UInt64.ofNat ((((castSoFar s delegatorStakes below done).candidateVotes c).getD 0).toNat +
          (s.getCandidates g).count c * stake.toNat))
      else (castSoFar s delegatorStakes below done).candidateVotes c) =
        (castSoFar s delegatorStakes below (done ++ [g])).candidateVotes := by
    funext c
    by_cases listedByG : c ∈ s.getCandidates g
    · have listed : c ∈ (done ++ [g]).flatMap s.getCandidates := by simp [listedByG]
      rw [if_pos listedByG, castSoFar_candidateVotes_getD s delegatorStakes below before, stakeValue,
        ← candidateSum_append_singleton]
      simp only [castSoFar, if_pos listed]
    · have same : candidateSum s delegatorStakes below (done ++ [g]) c = candidateSum s delegatorStakes below done c := by
        rw [candidateSum_append_singleton, List.count_eq_zero_of_not_mem listedByG, Nat.zero_mul, Nat.add_zero]
      simp [castSoFar, listedByG, same]
  rw [candidatesEq, stakeEq, totalEq]
  simp only [castSoFar, List.flatMap_append, List.flatMap_cons, List.flatMap_nil, List.foldl_append, List.foldl_cons,
    List.foldl_nil, List.append_nil, List.append_assoc, List.singleton_append]

/-- The loop of `_guardiansCastVotes` over the guardians `l` after the voting guardians `done`:
those of `l` that vote cast their votes in turn, when no sum overflows. -/
theorem foldlM_castGuardianVote (l done : List Address)
    (stakes : ∀ g ∈ l, guardianStakes g = none ∨ guardianStakes g = some (s.guardianStake g))
    (recurse : ∀ g ∈ l, (guardianStakes g).isSome → ∀ participants participantStakes,
      calculateOneGuardianVoteRecursive guardianDelegators delegatorStakes fuel g participants participantStakes =
        tally delegatorStakes 0 (below g) participants participantStakes)
    (fits : TallyFits s delegatorStakes below (done ++ l.filter fun g => (guardianStakes g).isSome)) :
    l.foldlM (castGuardianVote s fuel guardianStakes guardianDelegators delegatorStakes)
        (castSoFar s delegatorStakes below done) =
      some (castSoFar s delegatorStakes below (done ++ l.filter fun g => (guardianStakes g).isSome)) := by
  induction l generalizing done with
  | nil => simp
  | cons g l ih =>
    have stakes' := fun g' member => stakes g' (List.mem_cons_of_mem g member)
    have recurse' := fun g' member => recurse g' (List.mem_cons_of_mem g member)
    rw [List.foldlM_cons]
    rcases stakes g List.mem_cons_self with silent | voted
    · have skipped : (g :: l).filter (fun g => (guardianStakes g).isSome) = l.filter fun g => (guardianStakes g).isSome :=
        List.filter_cons_of_neg (by simp [silent])
      rw [skipped] at fits ⊢
      rw [castGuardianVote_of_none s delegatorStakes fuel guardianStakes guardianDelegators silent]
      simp only [Option.bind_eq_bind, Option.bind_some]
      exact ih done stakes' recurse' fits
    · have kept : (g :: l).filter (fun g => (guardianStakes g).isSome) = g :: l.filter fun g => (guardianStakes g).isSome :=
        List.filter_cons_of_pos (by simp [voted])
      rw [kept, List.append_cons] at fits ⊢
      rw [castGuardianVote_of_some s delegatorStakes below fuel guardianStakes guardianDelegators voted
        (recurse g List.mem_cons_self (by simp [voted])) fits.of_append]
      simp only [Option.bind_eq_bind, Option.bind_some]
      exact ih (done ++ [g]) stakes' recurse' fits

end Cast

end OrbsNetwork.Elections
