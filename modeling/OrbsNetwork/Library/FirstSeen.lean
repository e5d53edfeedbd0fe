import Mathlib

/-! The order in which elements are first met: a list that an element joins at its end the first
time it is met and never again, as an insertion-ordered map keeps its keys. -/

namespace FirstSeen

variable {α : Type*}

theorem filter_filter_comm (p q : α → Bool) (l : List α) : (l.filter p).filter q = (l.filter q).filter p := by
  simp only [List.filter_filter, Bool.and_comm]

variable [DecidableEq α]

/-- `seen` after meeting `a`. -/
def note (seen : List α) (a : α) : List α :=
  if a ∈ seen then seen else seen ++ [a]

/-- The elements of `l` in the order of their first occurrence. -/
def order (l : List α) : List α :=
  l.foldl note []

variable {seen l : List α} {a b : α}

theorem note_of_mem (met : a ∈ seen) : note seen a = seen := if_pos met

theorem note_of_not_mem (fresh : a ∉ seen) : note seen a = seen ++ [a] := if_neg fresh

@[simp] theorem mem_note : b ∈ note seen a ↔ b ∈ seen ∨ b = a := by
  by_cases met : a ∈ seen
  · rw [note_of_mem met]
    constructor
    · exact .inl
    · rintro (member | rfl)
      · exact member
      · exact met
  · simp [note_of_not_mem met]

theorem mem_foldl_note : b ∈ l.foldl note seen ↔ b ∈ seen ∨ b ∈ l := by
  induction l generalizing seen with
  | nil => simp
  | cons a l ih =>
    rw [List.foldl_cons, ih, mem_note, List.mem_cons]
    tauto

@[simp] theorem mem_order : b ∈ order l ↔ b ∈ l := by
  simp [order, mem_foldl_note]

theorem length_le_note : seen.length ≤ (note seen a).length := by
  by_cases met : a ∈ seen
  · rw [note_of_mem met]
  · simp [note_of_not_mem met]

theorem nodup_note (distinct : seen.Nodup) : (note seen a).Nodup := by
  by_cases met : a ∈ seen
  · rwa [note_of_mem met]
  · rw [note_of_not_mem met, List.nodup_append]
    exact ⟨distinct, List.nodup_singleton a, fun x member y single same => met (by simp_all)⟩

theorem nodup_foldl_note (distinct : seen.Nodup) : (l.foldl note seen).Nodup := by
  induction l generalizing seen with
  | nil => exact distinct
  | cons a l ih => exact ih (nodup_note distinct)

theorem filter_note (p : α → Bool) :
    (note seen a).filter p = if p a then note (seen.filter p) a else seen.filter p := by
  by_cases met : a ∈ seen
  · rw [note_of_mem met]
    split_ifs with kept
    · exact (note_of_mem (List.mem_filter.mpr ⟨met, kept⟩)).symm
    · rfl
  · have fresh : a ∉ seen.filter p := fun member => met (List.mem_filter.mp member).1
    rw [note_of_not_mem met, List.filter_append]
    split_ifs with kept
    · rw [note_of_not_mem fresh, List.filter_singleton, kept, cond_true]
    · rw [List.filter_singleton, Bool.eq_false_iff.mpr kept, cond_false, List.append_nil]

/-- Two lists that agree on the elements with a property still do after meeting one more. -/
theorem filter_note_congr {l₁ l₂ : List α} (p : α → Bool) (same : l₁.filter p = l₂.filter p) (a : α) :
    (note l₁ a).filter p = (note l₂ a).filter p := by
  rw [filter_note, filter_note, same]

theorem filter_note_of_mem (p : α → Bool) (met : p a = true → a ∈ seen.filter p) :
    (note seen a).filter p = seen.filter p := by
  rw [filter_note]
  split_ifs with kept
  · exact note_of_mem (met kept)
  · rfl

/-- Elements met before change nothing: meeting them can be skipped. -/
theorem foldl_note_filter {p : α → Bool} (skipped : ∀ a ∈ l, p a = false → a ∈ seen) :
    (l.filter p).foldl note seen = l.foldl note seen := by
  induction l generalizing seen with
  | nil => rfl
  | cons a l ih =>
    have grows : ∀ x ∈ l, p x = false → x ∈ note seen a := fun x member dropped =>
      mem_note.mpr (.inl (skipped x (List.mem_cons_of_mem a member) dropped))
    by_cases kept : p a
    · rw [List.filter_cons_of_pos kept, List.foldl_cons, List.foldl_cons, ih grows]
    · have met := skipped a List.mem_cons_self (by simpa using kept)
      rw [List.filter_cons_of_neg kept, List.foldl_cons, note_of_mem met]
      exact ih fun x member dropped => skipped x (List.mem_cons_of_mem a member) dropped

/-- Two extensions of `seen` agree when their new elements do, whatever test of newness `p` is. -/
theorem foldl_note_congr {l₁ l₂ : List α} (p : α → Bool) (fresh : ∀ a, p a = true ↔ a ∉ seen)
    (same : l₁.filter p = l₂.filter p) : l₁.foldl note seen = l₂.foldl note seen := by
  have skipped : ∀ l : List α, ∀ a ∈ l, p a = false → a ∈ seen := fun l a _ old => by
    by_contra new
    exact Bool.false_ne_true (old.symm.trans ((fresh a).mpr new))
  rw [← foldl_note_filter (skipped l₁), same, foldl_note_filter (skipped l₂)]

end FirstSeen
