import Mathlib

/-! A search for the step of a function over a threshold, by cutting a bracketing interval. -/

namespace Bracket

variable {α : Type*} [LinearOrder α] (t : Int → α) (T : α)

/-- `lo < hi` with `t lo ≤ T < t hi`. -/
structure Brackets (lo hi : Int) : Prop where
  lt : lo < hi
  low : t lo ≤ T
  high : T < t hi

/-- The half of `lo, hi` cut at `c` that still brackets `T`. -/
def narrow (lo hi c : Int) : Int × Int :=
  if T < t c then (lo, c) else (c, hi)

/-- Cut at `cursor step lo hi` until the bounds are neighbours, for at most `fuel` steps; `none`
when the fuel runs out first. -/
def search (cursor : Nat → Int → Int → Int) : Nat → Nat → Int → Int → Option (Int × Int)
  | 0, _, _, _ => none
  | fuel + 1, step, lo, hi =>
    if lo + 1 = hi then some (lo, hi)
    else search cursor fuel (step + 1) (narrow t T lo hi (cursor step lo hi)).1
      (narrow t T lo hi (cursor step lo hi)).2

/-- Every cursor lies strictly inside a bracket of width at least two. -/
def Inside (cursor : Nat → Int → Int → Int) : Prop :=
  ∀ step lo hi, lo + 1 < hi → lo < cursor step lo hi ∧ cursor step lo hi < hi

/-- After step `free` the cursor is the midpoint. -/
def HalvesAfter (free : Nat) (cursor : Nat → Int → Int → Int) : Prop :=
  ∀ step lo hi, free < step → lo + 1 < hi → cursor step lo hi = lo + (hi - lo) / 2

theorem narrow_cases (lo hi c : Int) :
    narrow t T lo hi c = (lo, c) ∨ narrow t T lo hi c = (c, hi) := by
  unfold narrow
  split_ifs
  · exact .inl rfl
  · exact .inr rfl

/-- A cut stays between the bounds and is no wider than the wider side of the cursor. -/
theorem narrow_within {lo hi c : Int} (low : lo ≤ c) (high : c ≤ hi) :
    lo ≤ (narrow t T lo hi c).1 ∧ (narrow t T lo hi c).2 ≤ hi ∧
      (narrow t T lo hi c).2 - (narrow t T lo hi c).1 ≤ max (c - lo) (hi - c) := by
  rcases narrow_cases t T lo hi c with cut | cut <;> rw [cut] <;> omega

variable {t T}

theorem Brackets.narrow {lo hi c : Int} (bracket : Brackets t T lo hi) (low : lo < c) (high : c < hi) :
    Brackets t T (Bracket.narrow t T lo hi c).1 (Bracket.narrow t T lo hi c).2 := by
  unfold Bracket.narrow
  split_ifs with below
  · exact ⟨low, bracket.low, below⟩
  · exact ⟨high, not_lt.mp below, bracket.high⟩

theorem search_succ_of_ne {cursor : Nat → Int → Int → Int} {fuel step : Nat} {lo hi : Int}
    (far : lo + 1 ≠ hi) :
    search t T cursor (fuel + 1) step lo hi =
      search t T cursor fuel (step + 1) (narrow t T lo hi (cursor step lo hi)).1
        (narrow t T lo hi (cursor step lo hi)).2 := by
  rw [search, if_neg far]

/-- With cursors inside, that halve after step `free`, a search from a bracket of width at most
`2 ^ k` ends within the `free` steps left and `k` more, at neighbours that bracket `T`. -/
theorem search_brackets {cursor : Nat → Int → Int → Int} {free : Nat} (inside : Inside cursor)
    (halves : HalvesAfter free cursor) {fuel step k : Nat} {lo hi : Int} (bracket : Brackets t T lo hi)
    (width : hi - lo ≤ 2 ^ k) (enough : free + 1 - step + k < fuel) :
    ∃ b, search t T cursor fuel step lo hi = some (b, b + 1) ∧ Brackets t T b (b + 1) ∧
      lo ≤ b ∧ b + 1 ≤ hi := by
  induction fuel generalizing step k lo hi with
  | zero => omega
  | succ fuel ih =>
    by_cases near : lo + 1 = hi
    · subst near
      exact ⟨lo, by rw [search, if_pos rfl], bracket, Int.le_refl lo, Int.le_refl (lo + 1)⟩
    have wide : lo + 1 < hi := by
      have := bracket.lt
      omega
    obtain ⟨low, high⟩ := inside step lo hi wide
    rw [search_succ_of_ne near]
    have next := bracket.narrow low high
    have within := narrow_within t T (Int.le_of_lt low) (Int.le_of_lt high)
    -- before step `free` the width only shrinks; after it the midpoint halves it
    have shrinks : ∃ k', (narrow t T lo hi (cursor step lo hi)).2 - (narrow t T lo hi (cursor step lo hi)).1 ≤
        2 ^ k' ∧ free + 1 - (step + 1) + k' < fuel := by
      by_cases early : step ≤ free
      · exact ⟨k, by omega, by omega⟩
      · have mid := halves step lo hi (by omega) wide
        cases k with
        | zero => simp at width; omega
        | succ k =>
          rw [Int.pow_succ] at width
          exact ⟨k, by omega, by omega⟩
    obtain ⟨k', width', enough'⟩ := shrinks
    obtain ⟨b, found, neighbours, lower, upper⟩ := ih next width' enough'
    exact ⟨b, found, neighbours, by omega, by omega⟩

end Bracket
