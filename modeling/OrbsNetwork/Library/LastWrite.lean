import Mathlib

namespace List

variable {α β γ : Type*}

/-- A left fold in which every element that writes overwrites the accumulator ends with the
last write, which is the first one met when scanning from the end. -/
theorem foldl_overwrite_eq_findSome?_reverse (f : α → Option β) (g : β → γ) (l : List α) (b : γ) :
    l.foldl (fun v a => ((f a).map g).getD v) b = ((l.reverse.findSome? f).map g).getD b := by
  induction l generalizing b with
  | nil => rfl
  | cons a l ih =>
    rw [foldl_cons, ih, reverse_cons, findSome?_append, findSome?_singleton]
    cases l.reverse.findSome? f <;> rfl

/-- A scan that skips the elements a guard names is a scan of the others. -/
theorem findSome?_skip_eq_filter (p : α → Prop) [DecidablePred p] (f : α → Option β) (l : List α) :
    l.findSome? (fun a => if p a then none else f a) = (l.filter fun a => ¬ p a).findSome? f := by
  induction l with
  | nil => rfl
  | cons a l ih =>
    by_cases skipped : p a
    · rw [findSome?_cons, if_pos skipped, filter_cons_of_neg (by simpa using skipped), ih]
    · rw [findSome?_cons, if_neg skipped, filter_cons_of_pos (by simpa using skipped), findSome?_cons, ih]

end List
