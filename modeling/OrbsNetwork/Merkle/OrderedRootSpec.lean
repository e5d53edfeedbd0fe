import OrbsNetwork.Merkle.OrderedTree
import OrbsNetwork.Library.PairTree
import Mathlib.Data.List.GetD

namespace OrbsNetwork.Merkle

open PairTree

section OrderedRootSpec

variable {calcSha256 : Bytes → Bytes}

theorem eq_of_getD_eq {a b : List Bytes} (length : a.length = b.length)
    (same : ∀ m < a.length, a.getD m [] = b.getD m []) : a = b :=
  List.ext_getElem length fun m inA inB => by
    rw [← List.getD_eq_getElem _ [] inA, ← List.getD_eq_getElem _ [] inB, same m inA]

theorem getD_set (l : List Bytes) (i m : Nat) (x : Bytes) :
    (l.set i x).getD m [] = if i = m ∧ m < l.length then x else l.getD m [] := by
  by_cases here : i = m
  · subst here
    by_cases inside : i < l.length <;> simp [List.getD_eq_getElem?_getD, inside]
  · simp [List.getD_eq_getElem?_getD, here]

theorem getD_take_of_lt {l : List Bytes} {size m : Nat} (below : m < size) :
    (l.take size).getD m [] = l.getD m [] := by
  simp [List.getD_eq_getElem?_getD, below]

theorem length_collapsePairs (inPlace : Bool) (src : List Bytes) (j pairs : Nat) (dst : List Bytes) :
    (collapsePairs calcSha256 inPlace src j pairs dst).length = dst.length := by
  induction pairs generalizing j dst with
  | zero => rfl
  | succ pairs ih =>
    rw [collapsePairs, ih, List.length_set]

/-- The pair loop from pair `t` on: every pair still to come is hashed into its slot, and a slot
read in place is only overwritten after it was read, so each pair is read as `orig` holds it. -/
theorem collapsePairs_getD (inPlace : Bool) (src orig : List Bytes) (t pairs : Nat) (dst : List Bytes)
    (reads : ∀ i, 2 * t ≤ i → (if inPlace then dst else src).getD i [] = orig.getD i []) (m : Nat) :
    (collapsePairs calcSha256 inPlace src (2 * t + 1) pairs dst).getD m [] =
      if t ≤ m ∧ m < t + pairs ∧ m < dst.length then
        hashTwo calcSha256 (orig.getD (2 * m) []) (orig.getD (2 * m + 1) [])
      else dst.getD m [] := by
  induction pairs generalizing t dst with
  | zero => rw [collapsePairs, if_neg (by omega)]
  | succ pairs ih =>
    rw [collapsePairs, show 2 * t + 1 + 2 = 2 * (t + 1) + 1 by omega]
    simp only [show (2 * t + 1) / 2 = t by omega, show 2 * t + 1 - 1 = 2 * t by omega]
    have written : hashTwo calcSha256 ((if inPlace then dst else src).getD (2 * t) [])
        ((if inPlace then dst else src).getD (2 * t + 1) []) =
        hashTwo calcSha256 (orig.getD (2 * t) []) (orig.getD (2 * t + 1) []) := by
      rw [reads _ le_rfl, reads _ (by omega)]
    rw [written]
    -- the slot written now lies below every entry the later pairs read
    have reads' : ∀ i, 2 * (t + 1) ≤ i → (if inPlace then dst.set t
        (hashTwo calcSha256 (orig.getD (2 * t) []) (orig.getD (2 * t + 1) [])) else src).getD i [] =
        orig.getD i [] := by
      intro i far
      cases inPlace with
      | false => simpa using reads i (by omega)
      | true =>
        rw [if_pos rfl, getD_set, if_neg (by omega)]
        simpa using reads i (by omega)
    rw [ih (t + 1) _ reads', getD_set, List.length_set]
    by_cases here : t = m
    · subst here
      simp
    · simp only [here, false_and, if_false]
      split_ifs <;> first | rfl | omega

theorem collapseOneLevel_snd (inPlace : Bool) (src dst : List Bytes) (size : Nat) :
    (calculateOrderedTreeRootCollapseOneLevel calcSha256 inPlace src dst size).2 = (size + 1) / 2 := by
  unfold calculateOrderedTreeRootCollapseOneLevel
  dsimp only
  split_ifs <;> omega

theorem length_collapseOneLevel (inPlace : Bool) (src dst : List Bytes) (size : Nat) :
    (calculateOrderedTreeRootCollapseOneLevel calcSha256 inPlace src dst size).1.length = dst.length := by
  unfold calculateOrderedTreeRootCollapseOneLevel
  dsimp only
  split_ifs <;> simp [length_collapsePairs]

/-- What one call of `calculateOrderedTreeRootCollapseOneLevel` leaves in each slot of `dst`: the
hashed pairs, then the carried odd entry, read from `src`, or from `dst` itself in place. -/
theorem collapseOneLevel_getD (inPlace : Bool) (src dst : List Bytes) (size m : Nat) :
    (calculateOrderedTreeRootCollapseOneLevel calcSha256 inPlace src dst size).1.getD m [] =
      if m < size / 2 ∧ m < dst.length then
        hashTwo calcSha256 ((if inPlace then dst else src).getD (2 * m) [])
          ((if inPlace then dst else src).getD (2 * m + 1) [])
      else if size % 2 ≠ 0 ∧ m = size / 2 ∧ m < dst.length then (if inPlace then dst else src).getD (size - 1) []
      else dst.getD m [] := by
  have loop := @collapsePairs_getD calcSha256 inPlace src (if inPlace then dst else src) 0
    (size / 2) dst (fun _ _ => rfl)
  simp only [Nat.mul_zero, Nat.zero_add, Nat.zero_le, true_and] at loop
  -- the last entry is read after the loop, from a slot the loop did not write
  have unread : (if inPlace then collapsePairs calcSha256 inPlace src 1 (size / 2) dst else src).getD
      (size - 1) [] = (if inPlace then dst else src).getD (size - 1) [] := by
    cases inPlace with
    | false => rfl
    | true =>
      rw [if_pos rfl, loop, if_neg (by omega)]
      rfl
  unfold calculateOrderedTreeRootCollapseOneLevel
  dsimp only
  by_cases odd : size % 2 ≠ 0
  · rw [if_pos odd, getD_set, length_collapsePairs, unread, loop]
    split_ifs <;> first | rfl | omega
  · rw [if_neg odd, loop]
    split_ifs <;> first | rfl | omega

/-- One call of `calculateOrderedTreeRootCollapseOneLevel` leaves in the first half of `dst` the
next level of the first `size` entries it reads, in place or not. -/
theorem collapseOneLevel_take (inPlace : Bool) (src dst : List Bytes) (size : Nat)
    (inside : size ≤ (if inPlace then dst else src).length) (room : (size + 1) / 2 ≤ dst.length) :
    (calculateOrderedTreeRootCollapseOneLevel calcSha256 inPlace src dst size).1.take
        (calculateOrderedTreeRootCollapseOneLevel calcSha256 inPlace src dst size).2 =
      pairUp (hashTwo calcSha256) ((if inPlace then dst else src).take size) := by
  apply eq_of_getD_eq
  · rw [List.length_take, collapseOneLevel_snd, length_collapseOneLevel, length_pairUp, List.length_take]
    omega
  intro m below
  rw [List.length_take, collapseOneLevel_snd] at below
  rw [getD_take_of_lt (by rw [collapseOneLevel_snd]; omega), collapseOneLevel_getD, getD_pairUp,
    List.length_take, Nat.min_eq_left inside]
  by_cases pair : 2 * m + 1 < size
  · rw [if_pos (by omega), if_pos pair, getD_take_of_lt (by omega), getD_take_of_lt pair]
  · rw [if_neg (by omega), if_pos (by omega), if_neg pair, getD_take_of_lt (by omega),
      show size - 1 = 2 * m by omega]

/-- The in-place rounds compute the next levels from the one the buffer starts with. -/
theorem collapseRounds_take (rounds : Nat) (nodes level : List Bytes) (size : Nat)
    (start : nodes.take size = level) (room : size ≤ nodes.length) :
    (collapseRounds calcSha256 rounds (nodes, size)).1.take (collapseRounds calcSha256 rounds (nodes, size)).2 =
      (pairUp (hashTwo calcSha256))^[rounds] level ∧
    (collapseRounds calcSha256 rounds (nodes, size)).2 ≤ (collapseRounds calcSha256 rounds (nodes, size)).1.length := by
  induction rounds generalizing nodes level size with
  | zero => exact ⟨start, room⟩
  | succ rounds ih =>
    rw [collapseRounds, Function.iterate_succ_apply]
    have next := @collapseOneLevel_take calcSha256 true nodes nodes size room (by omega)
    simp only [if_true, start] at next
    apply ih _ _ _ next
    rw [collapseOneLevel_snd, length_collapseOneLevel]
    omega

theorem getD_zero_of_take {nodes level : List Bytes} {size : Nat} (taken : nodes.take size = level)
    (room : size ≤ nodes.length) (nonempty : 0 < level.length) : nodes.getD 0 [] = level.getD 0 [] := by
  have started : 0 < size := by
    rw [← taken, List.length_take] at nonempty
    omega
  rw [← taken, getD_take_of_lt started]

/-- With one value there is no round in place, and the first round only carries the value. -/
theorem iterate_pred_pairUp (values : List Bytes) :
    ((pairUp (hashTwo calcSha256))^[ceilLog2 values.length - 1] (pairUp (hashTwo calcSha256) values)).getD 0 [] =
      ((pairUp (hashTwo calcSha256))^[ceilLog2 values.length] values).getD 0 [] := by
  rw [← Function.iterate_succ_apply]
  cases rounds : ceilLog2 values.length with
  | succ rounds => rfl
  | zero =>
    have single : values.length ≤ 1 := by
      by_contra many
      have positive := Nat.clog_pos (b := 2) (by omega) (Nat.lt_of_not_le many)
      rw [ceilLog2] at rounds
      omega
    match values, single with
    | [], _ => rfl
    | [_], _ => rfl

/-- `CalculateOrderedTreeRoot` computes the tree of the whole list, read top-down by blocks of
`2^d` entries. -/
theorem calculateOrderedTreeRoot_eq_blockFold (values : List Bytes) (nonempty : values ≠ []) :
    calculateOrderedTreeRoot calcSha256 values =
      blockFold (hashTwo calcSha256) values [] (ceilLog2 values.length) 0 := by
  have positive : 0 < values.length := List.length_pos_iff.mpr nonempty
  unfold calculateOrderedTreeRoot
  rw [if_neg (by omega)]
  dsimp only
  -- the first round reads the values and writes a buffer of half their number plus one
  have first := @collapseOneLevel_take calcSha256 false values
    (List.replicate (values.length / 2 + 1) []) values.length le_rfl (by simp; omega)
  simp only [Bool.false_eq_true, if_false, List.take_length] at first
  have room : (calculateOrderedTreeRootCollapseOneLevel calcSha256 false values
      (List.replicate (values.length / 2 + 1) []) values.length).2 ≤
      (calculateOrderedTreeRootCollapseOneLevel calcSha256 false values
        (List.replicate (values.length / 2 + 1) []) values.length).1.length := by
    rw [collapseOneLevel_snd, length_collapseOneLevel, List.length_replicate]
    omega
  obtain ⟨rounds, roundsRoom⟩ := collapseRounds_take (ceilLog2 values.length - 1) _ _ _ first room
  have left : 0 < ((pairUp (hashTwo calcSha256))^[ceilLog2 values.length - 1]
      (pairUp (hashTwo calcSha256) values)).length := by
    rw [← Function.iterate_succ_apply, lt_length_iterate_pairUp]
    simpa using positive
  rw [getD_zero_of_take rounds roundsRoom left, iterate_pred_pairUp,
    getD_iterate_pairUp _ _ _ _ (by simpa using positive)]

end OrderedRootSpec

end OrbsNetwork.Merkle
