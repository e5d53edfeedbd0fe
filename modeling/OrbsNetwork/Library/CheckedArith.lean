import Mathlib

/-! Arithmetic on 64-bit words that fails, as `none`, where the exact result does not fit or the
divisor is zero. -/

namespace CheckedArith

def add (x y : UInt64) : Option UInt64 :=
  if x.toNat + y.toNat < 2 ^ 64 then some (x + y) else none

def sub (x y : UInt64) : Option UInt64 :=
  if y ≤ x then some (x - y) else none

def mul (x y : UInt64) : Option UInt64 :=
  if x.toNat * y.toNat < 2 ^ 64 then some (x * y) else none

def div (x y : UInt64) : Option UInt64 :=
  if y = 0 then none else some (x / y)

def mod (x y : UInt64) : Option UInt64 :=
  if y = 0 then none else some (x % y)

section Lemmas

variable {x y z : UInt64}

theorem add_eq_some_iff : add x y = some z ↔ x.toNat + y.toNat < 2 ^ 64 ∧ z.toNat = x.toNat + y.toNat := by
  unfold add
  split_ifs with fits
  · rw [Option.some_inj, ← UInt64.toNat_inj, UInt64.toNat_add, Nat.mod_eq_of_lt fits]
    exact ⟨fun same => ⟨fits, same.symm⟩, fun ⟨_, same⟩ => same.symm⟩
  · exact iff_of_false (by simp) fun ⟨fits', _⟩ => fits fits'

theorem add_eq_none_iff : add x y = none ↔ 2 ^ 64 ≤ x.toNat + y.toNat := by
  unfold add
  split_ifs with fits <;> simp <;> omega

theorem mul_eq_some_iff : mul x y = some z ↔ x.toNat * y.toNat < 2 ^ 64 ∧ z.toNat = x.toNat * y.toNat := by
  unfold mul
  split_ifs with fits
  · rw [Option.some_inj, ← UInt64.toNat_inj, UInt64.toNat_mul, Nat.mod_eq_of_lt fits]
    exact ⟨fun same => ⟨fits, same.symm⟩, fun ⟨_, same⟩ => same.symm⟩
  · exact iff_of_false (by simp) fun ⟨fits', _⟩ => fits fits'

theorem mul_eq_none_iff : mul x y = none ↔ 2 ^ 64 ≤ x.toNat * y.toNat := by
  unfold mul
  split_ifs with fits <;> simp <;> omega

theorem div_eq_some_iff : div x y = some z ↔ y ≠ 0 ∧ z.toNat = x.toNat / y.toNat := by
  unfold div
  split_ifs with zero
  · simp [zero]
  · rw [Option.some_inj, ← UInt64.toNat_inj, UInt64.toNat_div]
    exact ⟨fun same => ⟨zero, same.symm⟩, fun ⟨_, same⟩ => same.symm⟩

@[simp] theorem div_zero : div x 0 = none := by
  simp [div]

theorem sub_eq_some_iff : sub x y = some z ↔ y.toNat ≤ x.toNat ∧ z.toNat = x.toNat - y.toNat := by
  unfold sub
  split_ifs with le
  · rw [Option.some_inj, ← UInt64.toNat_inj, UInt64.toNat_sub_of_le x y le]
    exact ⟨fun same => ⟨UInt64.le_iff_toNat_le.mp le, same.symm⟩, fun ⟨_, same⟩ => same.symm⟩
  · simp only [false_iff, not_and]
    intro below
    exact absurd (UInt64.le_iff_toNat_le.mpr below) le

end Lemmas

/-- A running total kept with `add`: it ends at the exact sum when that fits, and fails when it
does not. -/
theorem foldlM_add_eq_some_iff {α : Type*} (f : α → UInt64) (xs : List α) (init z : UInt64) :
    xs.foldlM (fun total a => add total (f a)) init = some z ↔
      init.toNat + (xs.map fun a => (f a).toNat).sum < 2 ^ 64 ∧
        z.toNat = init.toNat + (xs.map fun a => (f a).toNat).sum := by
  induction xs generalizing init with
  | nil =>
    rw [List.foldlM_nil, List.map_nil, List.sum_nil, Nat.add_zero]
    show some init = some z ↔ _
    rw [Option.some_inj, ← UInt64.toNat_inj]
    exact ⟨fun same => ⟨UInt64.toNat_lt init, same.symm⟩, fun ⟨_, same⟩ => same.symm⟩
  | cons a xs ih =>
    rw [List.foldlM_cons, List.map_cons, List.sum_cons]
    cases step : add init (f a) with
    | none =>
      have tooLarge := add_eq_none_iff.mp step
      simp only [Option.bind_eq_bind, Option.bind_none, reduceCtorEq, false_iff, not_and]
      omega
    | some total =>
      obtain ⟨-, value⟩ := add_eq_some_iff.mp step
      simp only [Option.bind_eq_bind, Option.bind_some, ih, value]
      omega

end CheckedArith
