import OrbsNetwork.Committee.Order
import OrbsNetwork.Library.WeightedDraw

namespace OrbsNetwork.Committee

open WeightedDraw

section State

variable (readUint32 : Bytes → UInt32)

/-- The weights of a committee, position by position. -/
def weightsOf (addresses : List Bytes) : List Int :=
  addresses.map (absoluteWeight readUint32)

theorem absoluteWeight_pos (address : Bytes) : 0 < absoluteWeight readUint32 address := by
  unfold absoluteWeight
  rw [Nat.one_shiftLeft]
  exact Int.natCast_pos.mpr (Nat.two_pow_pos _)

theorem weightsOf_pos (addresses : List Bytes) : ∀ w ∈ weightsOf readUint32 addresses, 0 < w := by
  intro w member
  obtain ⟨address, _, rfl⟩ := List.mem_map.mp member
  exact absoluteWeight_pos readUint32 address

/-- A reputation is at most the maximum, so a weight is at most `1 << 6`. -/
theorem absoluteWeight_le (address : Bytes) : absoluteWeight readUint32 address ≤ 64 := by
  have exponent : (getMaxReputation - getReputation readUint32 address).toNat ≤ 6 := by
    dsimp only [getReputation]
    generalize getMisses readUint32 address = currMiss
    -- the three branches of the reputation, with the constants unfolded only after the split
    split_ifs with tolerated capped
    · decide
    · unfold toleranceLevel at tolerated
      unfold reputationBottomCap at capped
      unfold getMaxReputation reputationBottomCap toleranceLevel
      simp [UInt32.le_iff_toNat_le, UInt32.lt_iff_toNat_lt, UInt32.toNat_sub] at *
      omega
    · decide
  have power : 2 ^ (getMaxReputation - getReputation readUint32 address).toNat ≤ 2 ^ 6 :=
    Nat.pow_le_pow_right (by omega) exponent
  unfold absoluteWeight
  rw [Nat.one_shiftLeft]
  omega

theorem weightsOf_sum_le (addresses : List Bytes) :
    (weightsOf readUint32 addresses).sum ≤ 64 * addresses.length := by
  induction addresses with
  | nil => simp [weightsOf]
  | cons address addresses ih =>
    have head := absoluteWeight_le readUint32 address
    simp only [weightsOf, List.map_cons, List.sum_cons, List.length_cons] at ih ⊢
    omega

/-- Every committee of fewer than `2^26` members weighs less than `2^32`. -/
theorem weightsOf_sum_lt {addresses : List Bytes} (short : addresses.length < 2 ^ 26) :
    (weightsOf readUint32 addresses).sum < 2 ^ 32 := by
  have bound := weightsOf_sum_le readUint32 addresses
  omega

/-- The loop of `_calculateAccumulatedWeightArray` from running totals: the accumulated weights of
a committee with nothing drawn, and their sum. -/
theorem foldl_accumulatedWeights (addresses : List Bytes) (accumulatedWeights : List Int) (totalWeight : Int) :
    addresses.foldl (fun (accumulatedWeights, totalWeight) address =>
        let totalWeight := totalWeight + absoluteWeight readUint32 address
        (accumulatedWeights ++ [totalWeight], totalWeight)) (accumulatedWeights, totalWeight) =
      (accumulatedWeights ++ maskedPrefixSums totalWeight (weightsOf readUint32 addresses)
          (List.replicate addresses.length false),
        totalWeight + (weightsOf readUint32 addresses).sum) := by
  induction addresses generalizing accumulatedWeights totalWeight with
  | nil => simp [weightsOf, maskedPrefixSums]
  | cons address addresses ih =>
    simp only [List.foldl_cons, ih, weightsOf, List.map_cons, List.length_cons, List.replicate_succ,
      maskedPrefixSums, Bool.false_eq_true, if_false, List.append_assoc, List.singleton_append, List.sum_cons,
      Prod.mk.injEq, true_and]
    omega

theorem calculateAccumulatedWeightArray_eq (addresses : List Bytes) :
    calculateAccumulatedWeightArray readUint32 addresses =
      (maskedPrefixSums 0 (weightsOf readUint32 addresses) (List.replicate addresses.length false),
        (weightsOf readUint32 addresses).sum) := by
  simp [calculateAccumulatedWeightArray, foldl_accumulatedWeights]

end State

/-- With a hash's worth of bytes and a total weight that fits a `uint32`, the draw is between one
and the total. -/
theorem getRandomWeight_bounds {random : Bytes} {maxWeight : Int} (long : 32 ≤ random.length)
    (positive : 0 < maxWeight) (small : maxWeight < 2 ^ 32) :
    ∃ curr, getRandomWeight random maxWeight = some curr ∧ 0 < curr ∧ curr ≤ maxWeight := by
  have rest : 4 ≤ (random.drop 28).length := by simp; omega
  obtain ⟨b0, b1, b2, b3, tail, split⟩ : ∃ b0 b1 b2 b3 tail, random.drop 28 = b0 :: b1 :: b2 :: b3 :: tail := by
    match random.drop 28, rest with
    | b0 :: b1 :: b2 :: b3 :: tail, _ => exact ⟨b0, b1, b2, b3, tail, rfl⟩
  have modulus : (UInt32.ofInt maxWeight).toNat = maxWeight.toNat := by
    have reduced : maxWeight % 2 ^ 32 = maxWeight := Int.emod_eq_of_lt (by omega) small
    rw [UInt32.ofInt, reduced, UInt32.toNat_ofNat_of_lt' (show maxWeight.toNat < 4294967296 by omega)]
  have nonzero : UInt32.ofInt maxWeight ≠ 0 := by
    intro zero
    rw [zero, UInt32.toNat_zero] at modulus
    omega
  refine ⟨(littleEndianUint32 b0 b1 b2 b3 % UInt32.ofInt maxWeight).toNat + 1, ?_, by omega, ?_⟩
  · simp only [getRandomWeight, split, if_neg nonzero]
  · have below : (littleEndianUint32 b0 b1 b2 b3 % UInt32.ofInt maxWeight).toNat < maxWeight.toNat := by
      rw [UInt32.toNat_mod, modulus]
      exact Nat.mod_lt _ (by omega)
    omega

/-- `uint32(maxWeight)` is the modulus of the draw: when it wraps to zero the draw panics. -/
theorem getRandomWeight_of_wrap {random : Bytes} {maxWeight : Int} (wraps : UInt32.ofInt maxWeight = 0) :
    getRandomWeight random maxWeight = none := by
  unfold getRandomWeight
  split
  · simp [wraps]
  · rfl

section Order

variable {calcSha256 : Bytes → Bytes} {readUint32 : Bytes → UInt32}

/-- The state of `_orderList` after the positions marked in `taken` were drawn: the accumulated
weights are the running sums of the weights left (zero at the drawn positions), the total is the
weight left, and the addresses ordered so far followed by those left are the committee. -/
structure Drawn (readUint32 : Bytes → UInt32) (addresses : List Bytes) (s : OrderState) (taken : List Bool) :
    Prop where
  length : taken.length = addresses.length
  accumulated : s.accumulatedWeights = maskedPrefixSums 0 (weightsOf readUint32 addresses) taken
  total : s.totalWeight = untakenWeight (weightsOf readUint32 addresses) taken
  ordered : (s.orderedCommitteeAddresses ++ untaken addresses taken).Perm addresses

theorem drawn_start (addresses : List Bytes) (seed : Bytes) :
    let weighted := calculateAccumulatedWeightArray readUint32 addresses
    Drawn readUint32 addresses ⟨seed, weighted.1, weighted.2, []⟩ (List.replicate addresses.length false) := by
  have lengths : (weightsOf readUint32 addresses).length = addresses.length := List.length_map _
  refine ⟨List.length_replicate, ?_, ?_, ?_⟩
  · simp [calculateAccumulatedWeightArray_eq]
  · simp only [calculateAccumulatedWeightArray_eq]
    rw [← lengths, untakenWeight_replicate_false]
  · simp [untaken_replicate_false]

/-- A round whose draw names position `i`: that address is appended and its weight removed. -/
theorem orderRound_of_findIdx? {addresses : List Bytes} {s : OrderState} {curr : Int} {i : Nat}
    (drew : getRandomWeight (nextRandom calcSha256 s.random) s.totalWeight = some curr)
    (found : s.accumulatedWeights.findIdx? (fun accumulated => !decide (curr > accumulated)) = some i) :
    let currWeight := absoluteWeight readUint32 (addresses.getD i [])
    orderRound calcSha256 readUint32 addresses s = some
      { random := nextRandom calcSha256 s.random
        accumulatedWeights := removeAt s.accumulatedWeights i currWeight
        totalWeight := s.totalWeight - currWeight
        orderedCommitteeAddresses := s.orderedCommitteeAddresses ++ [addresses.getD i []] } := by
  simp only [orderRound, drew, Option.map_some, found, removeAt_eq_mapIdx]

/-- One round draws a position not yet drawn, when one is left, the total fits a `uint32` and the
hash has 32 bytes. -/
theorem Drawn.round (hashLength : ∀ b, (calcSha256 b).length = 32) {addresses : List Bytes} {s : OrderState}
    {taken : List Bool} (drawn : Drawn readUint32 addresses s taken) (left : 0 < (untaken addresses taken).length)
    (small : s.totalWeight < 2 ^ 32) :
    ∃ s' i, orderRound calcSha256 readUint32 addresses s = some s' ∧ taken[i]? = some false ∧
      i < addresses.length ∧ Drawn readUint32 addresses s' (taken.set i true) := by
  have ⟨length, accumulated, total, ordered⟩ := drawn
  have weights := weightsOf_pos readUint32 addresses
  have lengths : (weightsOf readUint32 addresses).length = addresses.length := List.length_map _
  have positive : 0 < s.totalWeight := by
    rw [total]
    refine untakenWeight_pos weights ?_
    simpa [weightsOf, untaken_map] using left
  have long : 32 ≤ (nextRandom calcSha256 s.random).length := by rw [nextRandom, hashLength]
  obtain ⟨curr, drew, low, high⟩ := getRandomWeight_bounds long positive small
  obtain ⟨i, found, free, within⟩ := findIdx?_maskedPrefixSums (Int.le_refl 0) weights (lengths.trans length.symm)
    low (by rw [← total]; omega)
  rw [← accumulated] at found
  have withinWeights := within
  rw [lengths] at within
  have weightAt : (weightsOf readUint32 addresses)[i] = absoluteWeight readUint32 (addresses.getD i []) := by
    simp [weightsOf, within]
  refine ⟨_, i, orderRound_of_findIdx? drew found, free, within, ?_⟩
  refine ⟨by rw [List.length_set, length], ?_, ?_, ?_⟩
  · dsimp only
    rw [accumulated, ← weightAt,
      removeAt_maskedPrefixSums (Int.le_refl 0) weights free withinWeights]
  · dsimp only
    rw [total, untakenWeight_set free withinWeights, weightAt]
  · dsimp only
    rw [List.getD_eq_getElem?_getD, List.getElem?_eq_getElem within, Option.getD_some, List.append_assoc,
      List.singleton_append]
    exact ((untaken_set_perm addresses free within).append_left _).trans ordered

/-- The rounds left draw every position left, as long as the weight of the committee fits a
`uint32`: the ordered addresses are then the committee in some order. -/
theorem Drawn.rounds (hashLength : ∀ b, (calcSha256 b).length = 32) {addresses : List Bytes}
    (fits : (weightsOf readUint32 addresses).sum < 2 ^ 32) (rounds : Nat) {s : OrderState} {taken : List Bool}
    (drawn : Drawn readUint32 addresses s taken) (left : (untaken addresses taken).length = rounds) :
    ∃ s', orderRounds calcSha256 readUint32 addresses rounds s = some s' ∧
      s'.orderedCommitteeAddresses.Perm addresses := by
  -- induction on the rounds left, with the invariant carried from each round to the next
  induction rounds generalizing s taken with
  | zero =>
    rw [List.length_eq_zero_iff] at left
    exact ⟨s, rfl, by simpa [left] using drawn.ordered⟩
  | succ rounds ih =>
    have small : s.totalWeight < 2 ^ 32 := by
      rw [drawn.total]
      exact lt_of_le_of_lt (untakenWeight_le_sum (weightsOf_pos readUint32 addresses) taken) fits
    obtain ⟨s', i, round, free, within, drawn'⟩ := drawn.round hashLength (by omega) small
    have left' := length_untaken_set addresses free within
    obtain ⟨s'', run, ordered⟩ := ih drawn' (by omega)
    exact ⟨s'', by simp only [orderRounds, round, Option.bind_some, run], ordered⟩

/-- The first round panics when the weight of a nonempty committee is a multiple of `2^32`. -/
theorem orderList_of_wrap {addresses : List Bytes} (nonempty : addresses ≠ []) (seed : Bytes)
    (wraps : UInt32.ofInt (weightsOf readUint32 addresses).sum = 0) :
    orderList calcSha256 readUint32 addresses seed = none := by
  obtain ⟨rounds, length⟩ : ∃ rounds, addresses.length = rounds + 1 :=
    Nat.exists_eq_add_one.mpr (List.length_pos_iff.mpr nonempty)
  simp only [orderList, length, orderRounds, orderRound, calculateAccumulatedWeightArray_eq,
    getRandomWeight_of_wrap wraps, Option.map_none, Option.bind_none]

theorem orderList_is_permutation (hashLength : ∀ b, (calcSha256 b).length = 32) (addresses : List Bytes)
    (seed : Bytes) (fits : (weightsOf readUint32 addresses).sum < 2 ^ 32) :
    ∃ ordered, orderList calcSha256 readUint32 addresses seed = some ordered ∧ ordered.Perm addresses := by
  obtain ⟨s, run, ordered⟩ := Drawn.rounds hashLength fits addresses.length (drawn_start addresses seed)
    (by rw [untaken_replicate_false])
  exact ⟨s.orderedCommitteeAddresses, by simp only [orderList, run, Option.map_some], ordered⟩

theorem orderList_is_permutation_three :
    (weightsOf (fun _ => 0) [[1], [2], [3]]).sum < 2 ^ 32 ∧
      ∃ ordered, orderList (fun _ => List.replicate 32 0) (fun _ => 0) [[1], [2], [3]] [] = some ordered ∧
        ordered.Perm [[1], [2], [3]] := by
  have fits : (weightsOf (fun _ => 0) [[1], [2], [3]]).sum < 2 ^ 32 := by decide
  exact ⟨fits, orderList_is_permutation (fun _ => List.length_replicate) [[1], [2], [3]] [] fits⟩

end Order

/-- With no misses in state every member weighs 64, so `2^26` members weigh `2^32`, which
`uint32` wraps to zero: ordering such a committee panics on its first draw, whatever the hash and
the seed. -/
theorem orderList_huge_committee (calcSha256 : Bytes → Bytes) (seed : Bytes) :
    orderList calcSha256 (fun _ => 0) (List.replicate (2 ^ 26) [1]) seed = none := by
  have weight : absoluteWeight (fun _ => 0) [1] = 64 := by decide
  have total : (weightsOf (fun _ => 0) (List.replicate (2 ^ 26) [1])).sum = 2 ^ 32 := by
    simp only [weightsOf, List.map_replicate, weight, List.sum_replicate]
    decide
  -- the list is never built: only its length and its weight are used
  have nonempty : List.replicate (2 ^ 26) ([1] : Bytes) ≠ [] := by
    rw [Ne, List.replicate_eq_nil_iff]
    decide
  refine orderList_of_wrap nonempty seed ?_
  rw [total]
  decide

/-- A committee of `2^26` copies of one address, under the hash that returns 32 zero bytes and the
empty seed. -/
theorem huge_committee_panics :
    orderList (fun _ => List.replicate 32 0) (fun _ => 0) (List.replicate (2 ^ 26) [1]) [] = none :=
  orderList_huge_committee _ _

end OrbsNetwork.Committee
