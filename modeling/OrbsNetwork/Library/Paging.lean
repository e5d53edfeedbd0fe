import Mathlib

namespace Paging

variable {α σ : Type*}

/-- `l` cut into pages of `n` elements from the front; the last page may be shorter. -/
def pages (n : Nat) (l : List α) : List (List α) :=
  if 0 < n ∧ l ≠ [] then l.take n :: pages n (l.drop n) else []
termination_by l.length
decreasing_by
  obtain ⟨-, nonempty⟩ := ‹0 < n ∧ l ≠ []›
  have : 0 < l.length := List.length_pos_iff.mpr nonempty
  simp only [List.length_drop]
  omega

@[simp] theorem pages_nil (n : Nat) : pages n ([] : List α) = [] := by
  rw [pages]
  simp

theorem pages_of_ne_nil {n : Nat} {l : List α} (pos : 0 < n) (nonempty : l ≠ []) :
    pages n l = l.take n :: pages n (l.drop n) := by
  rw [pages, if_pos ⟨pos, nonempty⟩]

theorem pages_one (l : List α) : pages 1 l = l.map fun a => [a] := by
  induction l with
  | nil => simp
  | cons a l ih => rw [pages_of_ne_nil Nat.one_pos (List.cons_ne_nil a l)]; simp [ih]

/-- A cursor shown pages in order, each with the position of its first element, until it
answers that it wants no more. -/
def deliver (cursor : σ → Nat → List α → σ × Bool) : Nat → List (List α) → σ → σ
  | _, [], s => s
  | first, page :: rest, s =>
    let (s, more) := cursor s first page
    if more then deliver cursor (first + page.length) rest s else s

@[simp] theorem deliver_nil (cursor : σ → Nat → List α → σ × Bool) (first : Nat) (s : σ) :
    deliver cursor first [] s = s := rfl

theorem deliver_cons (cursor : σ → Nat → List α → σ × Bool) (first : Nat) (page : List α) (rest : List (List α))
    (s : σ) :
    deliver cursor first (page :: rest) s =
      if (cursor s first page).2 then deliver cursor (first + page.length) rest (cursor s first page).1
      else (cursor s first page).1 := rfl

end Paging
