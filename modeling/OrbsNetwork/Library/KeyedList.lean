import Mathlib

/-! Lists whose elements have distinct keys, as a map keyed by them and a list holding the same
values see them; and the longest prefix of a list that a prefix-closed predicate accepts. -/

namespace List

variable {α β : Type*}

section Keys

variable [DecidableEq β] {key : α → β}

/-- With distinct keys, the search for a key finds exactly the element that has it. -/
theorem find?_key_eq_some_iff {l : List α} (nodup : (l.map key).Nodup) {k : β} {a : α} :
    l.find? (fun x => key x = k) = some a ↔ a ∈ l ∧ key a = k := by
  constructor
  · intro found
    exact ⟨mem_of_find?_eq_some found, by simpa using find?_some found⟩
  · rintro ⟨member, rfl⟩
    have present : (l.find? fun x => key x = key a).isSome := find?_isSome.mpr ⟨a, member, by simp⟩
    obtain ⟨b, found⟩ := Option.isSome_iff_exists.mp present
    have sameKey : key b = key a := by simpa using find?_some found
    rw [found, inj_on_of_nodup_map nodup (mem_of_find?_eq_some found) member sameKey]

/-- Dropping the elements that share `a`'s key drops only `a`, when keys are distinct. -/
theorem filter_key_ne_of_nodup {as bs : List α} {a : α} (nodup : ((as ++ a :: bs).map key).Nodup) :
    (as ++ a :: bs).filter (fun x => key x ≠ key a) = as ++ bs := by
  rw [map_append, map_cons, nodup_append, nodup_cons] at nodup
  obtain ⟨-, ⟨notAfter, -⟩, apart⟩ := nodup
  have before : ∀ x ∈ as, key x ≠ key a := fun x member =>
    apart (key x) (mem_map_of_mem member) (key a) mem_cons_self
  have after : ∀ x ∈ bs, key x ≠ key a := fun x member same =>
    notAfter (same ▸ mem_map_of_mem member)
  rw [filter_append, filter_cons_of_neg (by simp), filter_eq_self.mpr (by simpa using before),
    filter_eq_self.mpr (by simpa using after)]

end Keys

/-- A search passes over an element it does not accept. -/
theorem find?_append_cons_of_neg {p : α → Bool} {as bs : List α} {a : α} (skip : ¬p a) :
    (as ++ a :: bs).find? p = (as ++ bs).find? p := by
  rw [find?_append, find?_append, find?_cons_of_neg skip]

/-- `p` is the longest prefix of `l` that `ok` accepts. -/
def IsLongestPrefix (ok : List α → Prop) (p l : List α) : Prop :=
  p <+: l ∧ ok p ∧ ∀ q, q <+: l → ok q → q.length ≤ p.length

/-- For an `ok` closed under prefixes, an accepted prefix that no further element keeps accepted
is the longest. -/
theorem isLongestPrefix_of_stop {ok : List α → Prop} (closed : ∀ q r, q <+: r → ok r → ok q) {p l : List α}
    (pre : p <+: l) (fits : ok p) (stop : ∀ a, p ++ [a] <+: l → ¬ok (p ++ [a])) : IsLongestPrefix ok p l := by
  refine ⟨pre, fits, fun q qPre qOk => ?_⟩
  by_contra longer
  obtain ⟨t, rfl⟩ := prefix_of_prefix_length_le pre qPre (by omega)
  cases t with
  | nil => simp at longer
  | cons a t =>
    have step : p ++ [a] <+: p ++ a :: t := ⟨t, by simp⟩
    exact stop a (step.trans qPre) (closed _ _ step qOk)

/-- A whole list that `ok` accepts is its own longest accepted prefix. -/
theorem isLongestPrefix_self {ok : List α → Prop} {l : List α} (fits : ok l) : IsLongestPrefix ok l l :=
  ⟨prefix_refl l, fits, fun _ qPre _ => qPre.length_le⟩

/-- A prefix accepted after an element that `ok` accepts at the front. -/
theorem isLongestPrefix_cons {ok okTail : List α → Prop} {a : α} {p l : List α}
    (front : ∀ q, ok (a :: q) ↔ okTail q) (longest : IsLongestPrefix okTail p l) :
    IsLongestPrefix ok (a :: p) (a :: l) := by
  obtain ⟨pre, fits, most⟩ := longest
  refine ⟨cons_prefix_cons.mpr ⟨rfl, pre⟩, (front p).mpr fits, fun q qPre qOk => ?_⟩
  cases q with
  | nil => simp
  | cons b q =>
    obtain ⟨rfl, tailPre⟩ := cons_prefix_cons.mp qPre
    simpa using most q tailPre ((front q).mp qOk)

/-- No prefix longer than the empty one is accepted when `ok` refuses every list with the first
element at its front. -/
theorem isLongestPrefix_nil {ok : List α → Prop} {a : α} {l : List α} (empty : ok []) (refused : ∀ q, ¬ok (a :: q)) :
    IsLongestPrefix ok [] (a :: l) := by
  refine ⟨?_, empty, fun q qPre qOk => ?_⟩
  · exact nil_prefix
  cases q with
  | nil => rfl
  | cons b q =>
    obtain ⟨rfl, -⟩ := cons_prefix_cons.mp qPre
    exact absurd qOk (refused q)

end List
