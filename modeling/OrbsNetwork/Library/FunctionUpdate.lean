import Mathlib

namespace Function

variable {α β γ ι : Type*} [DecidableEq β]

/-- Writes made through an injective `g`, read back through `g`, are the writes made at the
keys themselves. -/
theorem foldl_update_comp_of_injective [DecidableEq α] {g : α → β} (inj : Injective g) (key : ι → α) (val : ι → γ)
    (writes : List ι) (m : β → γ) :
    writes.foldl (fun m w => update m (g (key w)) (val w)) m ∘ g =
      writes.foldl (fun m w => update m (key w) (val w)) (m ∘ g) := by
  induction writes generalizing m with
  | nil => rfl
  | cons w writes ih => rw [List.foldl_cons, ih, update_comp_eq_of_injective _ inj, List.foldl_cons]

/-- Writes leave alone every point none of them is made at. -/
theorem foldl_update_apply_of_forall_mem_ne (k : ι → β) (val : ι → γ) {writes : List ι} (m : β → γ) {b : β}
    (off : ∀ w ∈ writes, k w ≠ b) :
    writes.foldl (fun m w => update m (k w) (val w)) m b = m b := by
  induction writes generalizing m with
  | nil => rfl
  | cons w writes ih =>
    have rest : ∀ w' ∈ writes, k w' ≠ b := fun w' member => off w' (List.mem_cons_of_mem w member)
    rw [List.foldl_cons, ih _ rest, update_of_ne (off w List.mem_cons_self).symm]

/-- Two lists of writes that leave the same map at the keys themselves leave the same map when
made through an injective `g`. -/
theorem foldl_update_eq_of_injective [DecidableEq α] {g : α → β} (inj : Injective g) (key : ι → α) (val : ι → γ)
    {writes writes' : List ι} (m : β → γ)
    (same : writes.foldl (fun m w => update m (key w) (val w)) (m ∘ g) =
      writes'.foldl (fun m w => update m (key w) (val w)) (m ∘ g)) :
    writes.foldl (fun m w => update m (g (key w)) (val w)) m =
      writes'.foldl (fun m w => update m (g (key w)) (val w)) m := by
  funext b
  by_cases onRange : b ∈ Set.range g
  · obtain ⟨a, rfl⟩ := onRange
    have read := congrFun same a
    rw [← foldl_update_comp_of_injective inj, ← foldl_update_comp_of_injective inj] at read
    exact read
  · have off : ∀ {writes : List ι}, ∀ w ∈ writes, g (key w) ≠ b := fun w _ same => onRange ⟨key w, same⟩
    rw [foldl_update_apply_of_forall_mem_ne _ _ _ off, foldl_update_apply_of_forall_mem_ne _ _ _ off]

/-- Writes at distinct keys, read at one key: the value written there, if any. -/
theorem foldl_update_apply_eq_lookup {δ : Type*} [BEq β] [LawfulBEq β] (val : γ → δ) {writes : List (β × γ)}
    (nodup : (writes.map Prod.fst).Nodup) (m : β → δ) (b : β) :
    writes.foldl (fun m w => update m w.1 (val w.2)) m b = ((writes.lookup b).map val).getD (m b) := by
  induction writes generalizing m with
  | nil => rfl
  | cons w writes ih =>
    obtain ⟨k, v⟩ := w
    rw [List.map_cons, List.nodup_cons] at nodup
    rw [List.foldl_cons, ih nodup.2, List.lookup_cons]
    by_cases here : b = k
    · subst here
      -- the key is written once, so the later writes leave it alone
      have absent : writes.lookup b = none :=
        List.lookup_eq_none_iff.mpr fun w member => bne_iff_ne.mpr fun same =>
          nodup.1 (List.mem_map.mpr ⟨w, member, same.symm⟩)
      rw [absent, beq_self_eq_true]
      simp
    · rw [update_of_ne here, beq_false_of_ne here]

/-- A point written with a value stays written, whatever is written after it. -/
theorem foldl_update_some_ne_none {δ : Type*} (k : ι → β) (val : ι → δ) {writes : List ι} (m : β → Option δ)
    {w : ι} (member : w ∈ writes) : writes.foldl (fun m w => update m (k w) (some (val w))) m (k w) ≠ none := by
  induction writes generalizing m w with
  | nil => exact absurd member List.not_mem_nil
  | cons first writes ih =>
    rw [List.foldl_cons]
    by_cases later : ∃ w' ∈ writes, k w' = k w
    · obtain ⟨w', member', same⟩ := later
      rw [← same]
      exact ih _ member'
    · have off : ∀ w' ∈ writes, k w' ≠ k w := fun w' member' same => later ⟨w', member', same⟩
      have here : w = first := (List.mem_cons.mp member).resolve_right fun inLater => off w inLater rfl
      subst here
      rw [foldl_update_apply_of_forall_mem_ne _ _ _ off, update_self]
      exact Option.some_ne_none _

end Function
