import OrbsNetwork.Library.KeyedList
import OrbsNetwork.Library.FirstSeen

/-! A map that remembers the order in which its keys were first set: its entries, one per key,
in that order. Setting a key already there changes its value in place. -/

structure OrderedMap (κ ν : Type*) where
  entries : List (κ × ν)
  nodup : (entries.map Prod.fst).Nodup

namespace OrderedMap

variable {κ ν : Type*}

def empty : OrderedMap κ ν := ⟨[], List.nodup_nil⟩

def keys (m : OrderedMap κ ν) : List κ := m.entries.map Prod.fst

theorem nodup_keys (m : OrderedMap κ ν) : m.keys.Nodup := m.nodup

@[simp] theorem keys_empty : (empty : OrderedMap κ ν).keys = [] := rfl

variable [DecidableEq κ]

def get? (m : OrderedMap κ ν) (k : κ) : Option ν := (m.entries.find? fun e => e.1 = k).map Prod.snd

theorem keys_map_set_value (entries : List (κ × ν)) (k : κ) (v : ν) :
    (entries.map fun e => if e.1 = k then (k, v) else e).map Prod.fst = entries.map Prod.fst := by
  rw [List.map_map]
  refine List.map_congr_left fun e _ => ?_
  by_cases here : e.1 = k
  · simp [here]
  · simp [here]

def set (m : OrderedMap κ ν) (k : κ) (v : ν) : OrderedMap κ ν :=
  if present : k ∈ m.keys then
    ⟨m.entries.map fun e => if e.1 = k then (k, v) else e, by rw [keys_map_set_value]; exact m.nodup⟩
  else ⟨m.entries ++ [(k, v)], by
    rw [List.map_append, List.nodup_append]
    refine ⟨m.nodup, List.nodup_singleton _, fun a inEntries b single same => present ?_⟩
    have atK : a = k := same.trans (List.mem_singleton.mp single)
    exact atK ▸ inEntries⟩

section Lemmas

variable {m : OrderedMap κ ν} {k k' : κ} {v w : ν}

@[simp] theorem get?_empty : (empty : OrderedMap κ ν).get? k = none := rfl

theorem mem_entries_iff : (k, w) ∈ m.entries ↔ m.get? k = some w := by
  unfold get?
  constructor
  · intro member
    rw [(List.find?_key_eq_some_iff m.nodup).mpr ⟨member, rfl⟩]
    rfl
  · intro found
    obtain ⟨e, hit, rfl⟩ := Option.map_eq_some_iff.mp found
    obtain ⟨member, rfl⟩ := (List.find?_key_eq_some_iff m.nodup).mp hit
    exact member

theorem mem_keys_iff : k ∈ m.keys ↔ (m.get? k).isSome := by
  constructor
  · intro member
    obtain ⟨e, inEntries, rfl⟩ := List.mem_map.mp member
    rw [mem_entries_iff.mp inEntries]
    rfl
  · intro present
    obtain ⟨w, found⟩ := Option.isSome_iff_exists.mp present
    exact List.mem_map.mpr ⟨(k, w), mem_entries_iff.mpr found, rfl⟩

theorem keys_set : (m.set k v).keys = if k ∈ m.keys then m.keys else m.keys ++ [k] := by
  unfold set
  split_ifs with present
  · exact keys_map_set_value m.entries k v
  · simp [keys]

/-- The keys are the order in which they were first set. -/
theorem keys_set_note : (m.set k v).keys = FirstSeen.note m.keys k :=
  keys_set

theorem mem_set_entries :
    (k', w) ∈ (m.set k v).entries ↔ (k' = k ∧ w = v) ∨ (k' ≠ k ∧ (k', w) ∈ m.entries) := by
  unfold set
  split_ifs with present
  · simp only [List.mem_map]
    constructor
    · rintro ⟨e, inEntries, image⟩
      split_ifs at image with atK
      · obtain ⟨rfl, rfl⟩ := Prod.mk.inj image
        exact .inl ⟨rfl, rfl⟩
      · subst image
        exact .inr ⟨atK, inEntries⟩
    · rintro (⟨rfl, rfl⟩ | ⟨apart, inEntries⟩)
      · obtain ⟨e, inEntries, atK⟩ := List.mem_map.mp present
        exact ⟨e, inEntries, by rw [if_pos atK]⟩
      · exact ⟨(k', w), inEntries, by rw [if_neg apart]⟩
  · rw [List.mem_append, List.mem_singleton, Prod.mk.injEq]
    constructor
    · rintro (inEntries | ⟨rfl, rfl⟩)
      · refine .inr ⟨fun atK => present ?_, inEntries⟩
        exact atK ▸ List.mem_map.mpr ⟨_, inEntries, rfl⟩
      · exact .inl ⟨rfl, rfl⟩
    · rintro (here | ⟨-, inEntries⟩)
      · exact .inr here
      · exact .inl inEntries

theorem get?_set : (m.set k v).get? k' = if k' = k then some v else m.get? k' := by
  apply Option.ext
  intro w
  rw [← mem_entries_iff, mem_set_entries]
  split_ifs with here
  · simp [here, eq_comm]
  · simp [here, mem_entries_iff]

/-- Keys set in turn, each to a value of its own: a key set is read back with its value. -/
theorem get?_foldl_set (value : κ → ν) (l : List κ) (m : OrderedMap κ ν) (k : κ) :
    (l.foldl (fun m k => m.set k (value k)) m).get? k = if k ∈ l then some (value k) else m.get? k := by
  induction l generalizing m with
  | nil => simp
  | cons first l ih =>
    rw [List.foldl_cons, ih, get?_set]
    by_cases later : k ∈ l
    · simp [later]
    · by_cases here : k = first <;> simp [later, here]

/-- New keys set in turn come after the keys already there, in the order they were set. -/
theorem keys_foldl_set (value : κ → ν) (l : List κ) (m : OrderedMap κ ν) (fresh : (m.keys ++ l).Nodup) :
    (l.foldl (fun m k => m.set k (value k)) m).keys = m.keys ++ l := by
  induction l generalizing m with
  | nil => simp
  | cons first l ih =>
    have absent : first ∉ m.keys := fun present =>
      (List.nodup_append.mp fresh).2.2 first present first List.mem_cons_self rfl
    have keys : (m.set first (value first)).keys = m.keys ++ [first] := by rw [keys_set, if_neg absent]
    rw [List.foldl_cons, ih _ (by rw [keys, List.append_assoc]; exact fresh), keys, List.append_assoc,
      List.singleton_append]

end Lemmas

end OrderedMap
