import Mathlib

namespace List

variable {α β : Type*}

/-- A scan of a filtered list is a scan of the whole list whose hits the filter guards. -/
theorem findSome?_filter_eq_guarded (p : α → Bool) (f : α → Option β) (l : List α) :
    (l.filter p).findSome? f = l.findSome? fun a => if p a then f a else none := by
  induction l with
  | nil => rfl
  | cons a l ih =>
    by_cases kept : p a
    · rw [filter_cons_of_pos kept, findSome?_cons, findSome?_cons, if_pos kept, ih]
    · rw [filter_cons_of_neg kept, findSome?_cons, if_neg kept, ih]

/-- The first hit of a scan over the keys `a, a + 1, ..., a + n - 1`: the key it stops at, with no
hit before it. -/
theorem findSome?_range'_eq_some {f : Nat → Option β} {a n : Nat} {b : β}
    (found : (range' a n).findSome? f = some b) :
    ∃ k, a ≤ k ∧ k < a + n ∧ f k = some b ∧ ∀ j, a ≤ j → j < k → f j = none := by
  induction n generalizing a with
  | zero => simp at found
  | succ n ih =>
    rw [range'_succ, findSome?_cons] at found
    cases hit : f a with
    | some b' =>
      rw [hit] at found
      exact ⟨a, Nat.le_refl a, by omega, hit.trans found, fun j low high => by omega⟩
    | none =>
      rw [hit] at found
      obtain ⟨k, low, high, atK, before⟩ := ih found
      refine ⟨k, by omega, by omega, atK, fun j low' high' => ?_⟩
      rcases Nat.eq_or_lt_of_le low' with rfl | later
      · exact hit
      · exact before j later high'

/-- Scans with functions that agree on the list's elements find the same. -/
theorem findSome?_congr_of_mem {f g : α → Option β} {l : List α} (same : ∀ a ∈ l, f a = g a) :
    l.findSome? f = l.findSome? g := by
  induction l with
  | nil => rfl
  | cons a l ih =>
    rw [findSome?_cons, findSome?_cons, same a mem_cons_self, ih fun b member => same b (mem_cons_of_mem a member)]

end List
