import Mathlib

/-! A binary tree over a list, built bottom-up: each level combines neighbours in pairs and
carries an odd last entry up unchanged. -/

namespace PairTree

variable {α : Type*}

section Levels

variable (combine : α → α → α)

/-- One level: neighbours combined in pairs, an odd last entry carried. -/
def pairUp : List α → List α
  | a :: b :: rest => combine a b :: pairUp rest
  | rest => rest

/-- The tree over block `a` of level `d` of `xs`, read top-down. -/
def blockFold (xs : List α) (default : α) : Nat → Nat → α
  | 0, a => xs.getD a default
  | d + 1, a =>
    if (2 * a + 1) * 2 ^ d < xs.length then
      combine (blockFold xs default d (2 * a)) (blockFold xs default d (2 * a + 1))
    else blockFold xs default d (2 * a)

variable {combine}

theorem double_mul_two_pow (a d : Nat) : 2 * a * 2 ^ d = a * 2 ^ (d + 1) := by
  rw [Nat.pow_succ, Nat.mul_comm 2 a, Nat.mul_assoc, Nat.mul_comm 2]

theorem blockFold_succ_of_lt {xs : List α} {default : α} {d a : Nat} (upper : (2 * a + 1) * 2 ^ d < xs.length) :
    blockFold combine xs default (d + 1) a =
      combine (blockFold combine xs default d (2 * a)) (blockFold combine xs default d (2 * a + 1)) := by
  rw [blockFold, if_pos upper]

theorem blockFold_succ_of_le {xs : List α} {default : α} {d a : Nat} (empty : xs.length ≤ (2 * a + 1) * 2 ^ d) :
    blockFold combine xs default (d + 1) a = blockFold combine xs default d (2 * a) := by
  rw [blockFold, if_neg (by omega)]

theorem length_pairUp (xs : List α) : (pairUp combine xs).length = (xs.length + 1) / 2 := by
  fun_induction pairUp combine xs with
  | case1 a b rest ih =>
    simp only [List.length_cons, ih]
    omega
  | case2 rest notPair =>
    rcases rest with _ | ⟨x, _ | ⟨y, rest⟩⟩
    · simp
    · simp
    · exact absurd rfl (notPair x y rest)

/-- Entry `a` of a level: the pair at `2a` and `2a + 1` combined, or the entry at `2a` carried. -/
theorem getD_pairUp (xs : List α) (default : α) (a : Nat) :
    (pairUp combine xs).getD a default =
      if 2 * a + 1 < xs.length then combine (xs.getD (2 * a) default) (xs.getD (2 * a + 1) default)
      else xs.getD (2 * a) default := by
  fun_induction pairUp combine xs generalizing a with
  | case1 x y rest ih =>
    cases a with
    | zero => simp
    | succ a =>
      have index : 2 * (a + 1) = 2 * a + 2 := by omega
      simp only [List.getD_cons_succ, ih, index, List.length_cons]
      simp only [show 2 * a + 2 + 1 = 2 * a + 1 + 2 by omega]
      split_ifs <;> first | rfl | omega
  | case2 rest notPair =>
    rcases rest with _ | ⟨x, _ | ⟨y, rest⟩⟩
    · simp
    · cases a with
      | zero => simp
      | succ a => simp [show 2 * (a + 1) = 2 * a + 1 + 1 by omega]
    · exact absurd rfl (notPair x y rest)

/-- After `d` levels an entry `a` is left exactly when its block starts inside the list. -/
theorem lt_length_iterate_pairUp (xs : List α) (d a : Nat) :
    a < ((pairUp combine)^[d] xs).length ↔ a * 2 ^ d < xs.length := by
  induction d generalizing a with
  | zero => simp
  | succ d ih =>
    rw [Function.iterate_succ_apply', length_pairUp]
    have half : a < (((pairUp combine)^[d] xs).length + 1) / 2 ↔ 2 * a < ((pairUp combine)^[d] xs).length := by
      omega
    rw [half, ih, double_mul_two_pow]

/-- The bottom-up levels compute the top-down tree of each block. -/
theorem getD_iterate_pairUp (xs : List α) (default : α) (d a : Nat) (inside : a * 2 ^ d < xs.length) :
    ((pairUp combine)^[d] xs).getD a default = blockFold combine xs default d a := by
  induction d generalizing a with
  | zero => rfl
  | succ d ih =>
    have lower : 2 * a * 2 ^ d < xs.length := by
      rwa [double_mul_two_pow]
    rw [Function.iterate_succ_apply', getD_pairUp, ih (2 * a) lower]
    by_cases upper : (2 * a + 1) * 2 ^ d < xs.length
    · rw [if_pos ((lt_length_iterate_pairUp xs d _).mpr upper), ih (2 * a + 1) upper,
        blockFold_succ_of_lt upper]
    · rw [if_neg (fun below => upper ((lt_length_iterate_pairUp xs d _).mp below)),
        blockFold_succ_of_le (Nat.le_of_not_lt upper)]

end Levels

section Keys

/-- The number a list of bits spells, the most significant first. -/
def bitsValue : List Bool → Nat
  | [] => 0
  | b :: bs => b.toNat * 2 ^ bs.length + bitsValue bs

@[simp] theorem bitsValue_nil : bitsValue [] = 0 := rfl

@[simp] theorem bitsValue_cons (b : Bool) (bs : List Bool) :
    bitsValue (b :: bs) = b.toNat * 2 ^ bs.length + bitsValue bs := rfl

@[simp] theorem bitsValue_replicate_false (d : Nat) : bitsValue (List.replicate d false) = 0 := by
  induction d with
  | zero => rfl
  | succ d ih => simp [List.replicate_succ, ih]

theorem bitsValue_lt (bs : List Bool) : bitsValue bs < 2 ^ bs.length := by
  induction bs with
  | nil => simp
  | cons b bs ih =>
    have bit : b.toNat ≤ 1 := Bool.toNat_le b
    rw [bitsValue_cons, List.length_cons, Nat.pow_succ]
    have top : b.toNat * 2 ^ bs.length ≤ 2 ^ bs.length := by
      simpa using Nat.mul_le_mul_right (2 ^ bs.length) bit
    omega

/-- Two keys of one length that spell the same number are the same key. -/
theorem eq_of_bitsValue_eq {bs cs : List Bool} (length : bs.length = cs.length)
    (same : bitsValue bs = bitsValue cs) : bs = cs := by
  induction bs generalizing cs with
  | nil => exact (List.length_eq_zero_iff.mp length.symm).symm
  | cons b bs ih =>
    cases cs with
    | nil => simp at length
    | cons c cs =>
      simp only [List.length_cons, Nat.add_right_cancel_iff] at length
      have lowB := bitsValue_lt bs
      have lowC := bitsValue_lt cs
      rw [bitsValue_cons, bitsValue_cons, length] at same
      rw [length] at lowB
      have bits : b = c := by
        cases b <;> cases c <;> simp at same ⊢ <;> omega
      subst bits
      rw [ih length (by omega)]

/-- The bits of `i` from bit `k - 1` down to bit `0` spell `i mod 2^k`. -/
theorem bitsValue_map_testBit (i k : Nat) :
    bitsValue ((List.range k).map fun j => i.testBit (k - 1 - j)) = i % 2 ^ k := by
  induction k with
  | zero => simp [Nat.mod_one]
  | succ k ih =>
    -- the top bit comes first, and below it the bits of `i` from bit `k - 1` down
    have shifted : ((fun j => i.testBit (k + 1 - 1 - j)) ∘ Nat.succ) = fun j => i.testBit (k - 1 - j) := by
      funext j
      simp only [Function.comp_apply]
      congr 1
      omega
    rw [List.range_succ_eq_map, List.map_cons, List.map_map, shifted, bitsValue_cons, ih, List.length_map,
      List.length_range, Nat.add_sub_cancel, Nat.sub_zero, Nat.toNat_testBit, Nat.mod_pow_succ,
      Nat.mul_comm, Nat.add_comm]

end Keys

end PairTree
