import OrbsNetwork.Library.OrderedMap
import OrbsNetwork.Merkle.Node

namespace OrbsNetwork.VirtualMachine

open FirstSeen

/-- `primitives.ContractName`, a Go string, as its bytes. -/
abbrev ContractName := Bytes

/-- `keyValuePair` without its `key`: `keyForMap` keeps a key's bytes, so the key a pair was made
with is its key in the map. -/
structure KeyValuePair where
  value : Bytes
  isDirty : Bool
  deriving DecidableEq, Repr

/-- `contractTransientState`: its `pairs`, in `keySortOrder`. -/
structure ContractTransientState where
  pairs : OrderedMap Bytes KeyValuePair

/-- `transientState`: its `contracts`, in `contractSortOrder`. -/
structure TransientState where
  contracts : OrderedMap ContractName ContractTransientState

def newTransientState : TransientState :=
  ⟨.empty⟩

namespace TransientState

variable (t : TransientState)

def getValue (contract : ContractName) (key : Bytes) : Option Bytes :=
  match t.contracts.get? contract with
  | none => none
  | some c => (c.pairs.get? key).map KeyValuePair.value

/-- `setValue`: a new contract comes last in `contractSortOrder`, and a new key last in its
contract's `keySortOrder`. -/
def setValue (contract : ContractName) (key value : Bytes) (isDirty : Bool) : TransientState :=
  let c := (t.contracts.get? contract).getD ⟨.empty⟩
  ⟨t.contracts.set contract ⟨c.pairs.set key ⟨value, isDirty⟩⟩⟩

/-- `forDirty`: the dirty pairs of a contract, in `keySortOrder`, as the callback receives them. -/
def forDirty (contract : ContractName) : List (Bytes × Bytes) :=
  match t.contracts.get? contract with
  | none => []
  | some c => c.pairs.keys.filterMap fun key =>
    (c.pairs.get? key).bind fun pair => if pair.isDirty then some (key, pair.value) else none

/-- `mergeIntoTransientState`: the dirty pairs of each contract, contracts in
`contractSortOrder`, set dirty in the master. -/
def mergeIntoTransientState (masterTransientState : TransientState) : TransientState :=
  t.contracts.keys.foldl (fun master contractName =>
    (t.forDirty contractName).foldl (fun master (key, value) => master.setValue contractName key value true) master)
    masterTransientState

/-! What the proofs read of a transient state: the pair of a contract's key, and a contract's keys
in order. -/

def pair (contract : ContractName) (key : Bytes) : Option KeyValuePair :=
  (t.contracts.get? contract).bind fun c => c.pairs.get? key

def keyOrder (contract : ContractName) : List Bytes :=
  ((t.contracts.get? contract).map fun c => c.pairs.keys).getD []

def isDirtyAt (contract : ContractName) (key : Bytes) : Bool :=
  ((t.pair contract key).map KeyValuePair.isDirty).getD false

/-- The dirty keys of a contract, in `keySortOrder`. -/
def dirtyKeys (contract : ContractName) : List Bytes :=
  (t.keyOrder contract).filter (t.isDirtyAt contract)

section Lemmas

variable {t} {c c' : ContractName} {k k' value : Bytes} {isDirty : Bool}

@[simp] theorem pair_newTransientState : newTransientState.pair c k = none := rfl

@[simp] theorem keyOrder_newTransientState : newTransientState.keyOrder c = [] := rfl

@[simp] theorem keys_newTransientState : newTransientState.contracts.keys = [] := rfl

theorem getValue_eq : t.getValue c k = (t.pair c k).map KeyValuePair.value := by
  unfold getValue pair
  cases t.contracts.get? c <;> rfl

theorem mem_keyOrder_iff : k ∈ t.keyOrder c ↔ (t.pair c k).isSome := by
  unfold keyOrder pair
  cases t.contracts.get? c with
  | none => simp
  | some ct => exact OrderedMap.mem_keys_iff

theorem mem_keys_of_pair {p : KeyValuePair} (found : t.pair c k = some p) : c ∈ t.contracts.keys := by
  rw [OrderedMap.mem_keys_iff]
  cases present : t.contracts.get? c with
  | none => rw [pair, present, Option.bind_none] at found; cases found
  | some ct => rfl

theorem pair_of_not_mem (absent : c ∉ t.contracts.keys) : t.pair c k = none := by
  rw [OrderedMap.mem_keys_iff, Option.not_isSome_iff_eq_none] at absent
  rw [pair, absent, Option.bind_none]

theorem keyOrder_of_not_mem (absent : c ∉ t.contracts.keys) : t.keyOrder c = [] := by
  rw [OrderedMap.mem_keys_iff, Option.not_isSome_iff_eq_none] at absent
  rw [keyOrder, absent]
  rfl

theorem get?_setValue :
    (t.setValue c k value isDirty).contracts.get? c' =
      if c' = c then some ⟨((t.contracts.get? c).getD ⟨.empty⟩).pairs.set k ⟨value, isDirty⟩⟩
      else t.contracts.get? c' :=
  OrderedMap.get?_set

@[simp] theorem keys_setValue : (t.setValue c k value isDirty).contracts.keys = note t.contracts.keys c :=
  OrderedMap.keys_set_note

theorem pair_setValue :
    (t.setValue c k value isDirty).pair c' k' = if c' = c ∧ k' = k then some ⟨value, isDirty⟩ else t.pair c' k' := by
  unfold pair
  rw [get?_setValue]
  by_cases here : c' = c
  · subst here
    cases t.contracts.get? c' <;> simp [OrderedMap.get?_set]
  · simp [here]

theorem keyOrder_setValue :
    (t.setValue c k value isDirty).keyOrder c' = if c' = c then note (t.keyOrder c) k else t.keyOrder c' := by
  unfold keyOrder
  rw [get?_setValue]
  by_cases here : c' = c
  · subst here
    cases t.contracts.get? c' <;> simp [OrderedMap.keys_set_note]
  · simp [here]

theorem isDirtyAt_iff : t.isDirtyAt c k ↔ ∃ v, t.pair c k = some ⟨v, true⟩ := by
  unfold isDirtyAt
  cases t.pair c k with
  | none => simp
  | some p => cases p; simp

/-- `forDirty` hands over each dirty key with its value. -/
theorem forDirty_eq : t.forDirty c = (t.dirtyKeys c).map fun k => (k, ((t.getValue c k).getD [])) := by
  unfold forDirty dirtyKeys keyOrder isDirtyAt
  simp only [getValue_eq, pair]
  cases t.contracts.get? c with
  | none => rfl
  | some ct =>
    simp only [Option.map_some, Option.getD_some, Option.bind_some]
    rw [← List.filterMap_eq_map', List.filterMap_filter]
    refine List.filterMap_congr fun key member => ?_
    obtain ⟨p, found⟩ := Option.isSome_iff_exists.mp (OrderedMap.mem_keys_iff.mp member)
    by_cases dirty : p.isDirty <;> simp [found, dirty]

theorem mem_dirtyKeys_iff : k ∈ t.dirtyKeys c ↔ ∃ v, t.pair c k = some ⟨v, true⟩ := by
  rw [dirtyKeys, List.mem_filter, mem_keyOrder_iff, isDirtyAt_iff]
  constructor
  · exact fun ⟨_, dirty⟩ => dirty
  · rintro ⟨v, found⟩
    exact ⟨by rw [found]; rfl, v, found⟩

theorem dirtyKeys_of_not_mem (absent : c ∉ t.contracts.keys) : t.dirtyKeys c = [] := by
  rw [dirtyKeys, keyOrder_of_not_mem absent, List.filter_nil]

/-! Keys of one contract set dirty in turn, each to a value of its own, as a merge sets them. -/

theorem pair_foldl_setValue (value : Bytes → Bytes) (keys : List Bytes) (m : TransientState) :
    (keys.foldl (fun m k => m.setValue c k (value k) true) m).pair c' k' =
      if c' = c ∧ k' ∈ keys then some ⟨value k', true⟩ else m.pair c' k' := by
  induction keys generalizing m with
  | nil => simp
  | cons first keys ih =>
    rw [List.foldl_cons, ih, pair_setValue]
    by_cases onC : c' = c <;> by_cases here : k' = first <;> simp [onC, here]

theorem keyOrder_foldl_setValue (value : Bytes → Bytes) (keys : List Bytes) (m : TransientState) :
    (keys.foldl (fun m k => m.setValue c k (value k) true) m).keyOrder c' =
      if c' = c then keys.foldl note (m.keyOrder c) else m.keyOrder c' := by
  induction keys generalizing m with
  | nil => by_cases onC : c' = c <;> simp [onC]
  | cons first keys ih =>
    rw [List.foldl_cons, ih]
    by_cases onC : c' = c <;> simp [onC, keyOrder_setValue]

theorem keys_foldl_setValue (value : Bytes → Bytes) (keys : List Bytes) (m : TransientState) :
    (keys.foldl (fun m k => m.setValue c k (value k) true) m).contracts.keys =
      if keys = [] then m.contracts.keys else note m.contracts.keys c := by
  induction keys generalizing m with
  | nil => rfl
  | cons first keys ih =>
    rw [List.foldl_cons, ih, keys_setValue, if_neg (List.cons_ne_nil first keys)]
    split_ifs
    · rfl
    · exact note_of_mem (mem_note.mpr (.inr rfl))

end Lemmas

section Merge

variable {t} {c : ContractName} {k : Bytes}

/-- The merge of one contract's dirty pairs into `m`. -/
def mergeContract (t : TransientState) (m : TransientState) (contract : ContractName) : TransientState :=
  (t.dirtyKeys contract).foldl (fun m k => m.setValue contract k ((t.getValue contract k).getD []) true) m

theorem mergeIntoTransientState_eq (m : TransientState) :
    t.mergeIntoTransientState m = t.contracts.keys.foldl t.mergeContract m := by
  unfold mergeIntoTransientState mergeContract
  simp only [forDirty_eq, List.foldl_map]

theorem pair_foldl_mergeContract (contracts : List ContractName) (m : TransientState) :
    (contracts.foldl t.mergeContract m).pair c k =
      if c ∈ contracts ∧ k ∈ t.dirtyKeys c then some ⟨(t.getValue c k).getD [], true⟩ else m.pair c k := by
  induction contracts generalizing m with
  | nil => simp
  | cons first contracts ih =>
    rw [List.foldl_cons, ih, mergeContract, pair_foldl_setValue]
    by_cases here : c = first
    · subst here
      by_cases dirty : k ∈ t.dirtyKeys c <;> simp [dirty]
    · simp [here]

theorem keyOrder_foldl_mergeContract (contracts : List ContractName) (distinct : contracts.Nodup)
    (m : TransientState) :
    (contracts.foldl t.mergeContract m).keyOrder c =
      if c ∈ contracts then (t.dirtyKeys c).foldl note (m.keyOrder c) else m.keyOrder c := by
  induction contracts generalizing m with
  | nil => simp
  | cons first contracts ih =>
    obtain ⟨fresh, distinct⟩ := List.nodup_cons.mp distinct
    rw [List.foldl_cons, ih distinct, mergeContract, keyOrder_foldl_setValue]
    by_cases here : c = first
    · subst here
      simp [fresh]
    · simp [here]

theorem keys_foldl_mergeContract (contracts : List ContractName) (m : TransientState) :
    (contracts.foldl t.mergeContract m).contracts.keys =
      (contracts.filter fun c => t.dirtyKeys c ≠ []).foldl note m.contracts.keys := by
  induction contracts generalizing m with
  | nil => rfl
  | cons first contracts ih =>
    rw [List.foldl_cons, ih, mergeContract, keys_foldl_setValue]
    by_cases clean : t.dirtyKeys first = []
    · rw [if_pos clean, List.filter_cons_of_neg (by simp [clean])]
    · rw [if_neg clean, List.filter_cons_of_pos (by simp [clean]), List.foldl_cons]

/-- A merge sets the dirty pairs of the transaction, dirty, and leaves the others. -/
theorem pair_mergeIntoTransientState (m : TransientState) :
    (t.mergeIntoTransientState m).pair c k =
      if k ∈ t.dirtyKeys c then some ⟨(t.getValue c k).getD [], true⟩ else m.pair c k := by
  rw [mergeIntoTransientState_eq, pair_foldl_mergeContract]
  by_cases present : c ∈ t.contracts.keys
  · simp [present]
  · simp [present, dirtyKeys_of_not_mem present]

/-- A merge adds a contract's new dirty keys after its keys, in the transaction's order. -/
theorem keyOrder_mergeIntoTransientState (m : TransientState) :
    (t.mergeIntoTransientState m).keyOrder c = (t.dirtyKeys c).foldl note (m.keyOrder c) := by
  rw [mergeIntoTransientState_eq, keyOrder_foldl_mergeContract _ t.contracts.nodup_keys]
  by_cases present : c ∈ t.contracts.keys
  · rw [if_pos present]
  · rw [if_neg present, dirtyKeys_of_not_mem present]
    rfl

/-- A merge adds the contracts with a dirty key after the contracts, in the transaction's order. -/
theorem keys_mergeIntoTransientState (m : TransientState) :
    (t.mergeIntoTransientState m).contracts.keys =
      (t.contracts.keys.filter fun c => t.dirtyKeys c ≠ []).foldl note m.contracts.keys := by
  rw [mergeIntoTransientState_eq, keys_foldl_mergeContract]

end Merge

end TransientState

end OrbsNetwork.VirtualMachine
