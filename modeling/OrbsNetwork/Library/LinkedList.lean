import Mathlib

/-! Go's `container/list` by value: the elements from front to back, each with the identity a
pointer to it would have, and the identity the next `PushFront` allocates. -/

/-- A `container/list.List`, its elements from front to back. -/
structure LinkedList (α : Type*) where
  elements : List (Nat × α)
  nextId : Nat

namespace LinkedList

variable {α : Type*}

/-- `list.New`. -/
def empty : LinkedList α :=
  ⟨[], 0⟩

/-- `PushFront`: the list with the new element, and the element's identity. -/
def pushFront (l : LinkedList α) (v : α) : LinkedList α × Nat :=
  (⟨(l.nextId, v) :: l.elements, l.nextId + 1⟩, l.nextId)

/-- `Remove`: the element leaves the list when it is in it. -/
def remove (l : LinkedList α) (e : Nat) : LinkedList α :=
  ⟨l.elements.filter (·.1 != e), l.nextId⟩

/-- `Back`. -/
def back (l : LinkedList α) : Option (Nat × α) :=
  l.elements.getLast?

/-- The element before the one with identity `e`, towards the front, found by its successor. -/
def prevOf (e : Nat) : List (Nat × α) → Option (Nat × α)
  | a :: b :: rest => if b.1 = e then some a else prevOf e (b :: rest)
  | _ => none

/-- `e.Prev()`: the element before `e` while `e` is in the list, and nil once `Remove` has
cleared its links, as it does. -/
def prev (l : LinkedList α) (e : Nat) : Option (Nat × α) :=
  prevOf e l.elements

/-- The identities are those of distinct elements, all allocated before `nextId`. -/
structure WellFormed (l : LinkedList α) : Prop where
  nodup : (l.elements.map Prod.fst).Nodup
  fresh : ∀ x ∈ l.elements, x.1 < l.nextId

theorem wellFormed_empty : (empty : LinkedList α).WellFormed :=
  ⟨List.nodup_nil, fun _ member => nomatch member⟩

theorem WellFormed.pushFront {l : LinkedList α} (wf : l.WellFormed) (v : α) : (l.pushFront v).1.WellFormed := by
  constructor
  · refine List.nodup_cons.mpr ⟨fun member => ?_, wf.nodup⟩
    obtain ⟨x, inList, same⟩ := List.mem_map.mp member
    exact absurd (wf.fresh x inList) (by omega)
  · rintro x (_ | ⟨_, inList⟩)
    · exact Nat.lt_succ_self l.nextId
    · exact Nat.lt_succ_of_lt (wf.fresh x inList)

theorem prevOf_cons (e : Nat) (a : Nat × α) (l : List (Nat × α)) :
    prevOf e (a :: l) = if l.head?.map Prod.fst = some e then some a else prevOf e l := by
  cases l with
  | nil => rfl
  | cons b rest => simp [prevOf]

/-- Only the elements after the first are looked for. -/
theorem prevOf_cons_of_not_mem {e : Nat} {a : Nat × α} {l : List (Nat × α)} (absent : e ∉ l.map Prod.fst) :
    prevOf e (a :: l) = none := by
  induction l generalizing a with
  | nil => rfl
  | cons b l ih =>
    rw [List.map_cons, List.mem_cons, not_or] at absent
    rw [prevOf_cons, if_neg (by simpa using fun same => absent.1 same.symm), ih absent.2]

theorem prevOf_of_not_mem {e : Nat} {l : List (Nat × α)} (absent : e ∉ l.map Prod.fst) : prevOf e l = none := by
  cases l with
  | nil => rfl
  | cons a l => exact prevOf_cons_of_not_mem fun member => absent (List.mem_cons_of_mem _ member)

/-- The element found before `b` is the one right in front of it. -/
theorem prevOf_append_cons_cons {ys : List (Nat × α)} {a b : Nat × α} (zs : List (Nat × α))
    (absent : b.1 ∉ ys.map Prod.fst) (apart : a.1 ≠ b.1) : prevOf b.1 (ys ++ a :: b :: zs) = some a := by
  induction ys with
  | nil => simp [prevOf]
  | cons y ys ih =>
    rw [List.map_cons, List.mem_cons, not_or] at absent
    have notNext : ((ys ++ a :: b :: zs).head?.map Prod.fst) ≠ some b.1 := by
      cases ys with
      | nil => simpa using apart
      | cons y' ys' => simpa using fun same => absent.2 (List.mem_map.mpr ⟨y', List.mem_cons_self, same⟩)
    rw [List.cons_append, prevOf_cons, if_neg notNext, ih absent.2]

/-- Walking a list kept newest first from its back: the element before `x` is the one added
right after it. -/
theorem prevOf_reverse {done rest : List (Nat × α)} {x : Nat × α}
    (nodup : ((done ++ x :: rest).map Prod.fst).Nodup) :
    prevOf x.1 (done ++ x :: rest).reverse = rest.head? := by
  simp only [List.map_append, List.map_cons, List.nodup_append, List.nodup_cons, List.mem_cons,
    List.mem_map] at nodup
  obtain ⟨-, ⟨notLater, -⟩, apart⟩ := nodup
  have notDone : x.1 ∉ done.reverse.map Prod.fst := fun member => by
    obtain ⟨y, inDone, same⟩ := List.mem_map.mp member
    exact apart y.1 ⟨y, List.mem_reverse.mp inDone, rfl⟩ x.1 (Or.inl rfl) same
  cases rest with
  | nil =>
    rw [List.reverse_append, List.reverse_singleton, List.singleton_append]
    exact prevOf_cons_of_not_mem notDone
  | cons r rest =>
    have notNewer : x.1 ∉ rest.reverse.map Prod.fst := fun member => by
      obtain ⟨z, inRest, same⟩ := List.mem_map.mp member
      exact notLater ⟨z, List.mem_cons_of_mem r (List.mem_reverse.mp inRest), same⟩
    rw [List.reverse_append, List.reverse_cons, List.reverse_cons, List.append_assoc, List.append_assoc,
      List.singleton_append, List.singleton_append]
    exact prevOf_append_cons_cons _ notNewer fun same => notLater ⟨r, List.mem_cons_self, same⟩

end LinkedList
