import OrbsNetwork.Merkle.Forest
import OrbsNetwork.Library.FunctionUpdate

namespace OrbsNetwork.StateStorage

/-- `adapter.ChainState`, `map[ContractName]map[string][]byte`, as its records
((contract, key), value) in the order Go's range visits them; Go strings are byte sequences.
A map holds each (contract, key) once. -/
structure ChainState where
  records : List ((Bytes × Bytes) × Bytes)
  nodup : (records.map Prod.fst).Nodup

/-- `diff[contract][key]`, with Go's `exists`. -/
def ChainState.get? (diff : ChainState) (contract key : Bytes) : Option Bytes :=
  diff.records.lookup (contract, key)

def ChainState.empty : ChainState :=
  ⟨[], List.nodup_nil⟩

theorem ChainState.keys_replace (records : List ((Bytes × Bytes) × Bytes)) (q : Bytes × Bytes) (value : Bytes) :
    (records.map fun r => if r.1 = q then (q, value) else r).map Prod.fst = records.map Prod.fst := by
  rw [List.map_map]
  refine List.map_congr_left fun r _ => ?_
  by_cases here : r.1 = q
  · simp [here]
  · simp [here]

theorem ChainState.nodup_append_absent {records : List ((Bytes × Bytes) × Bytes)} (nodup : (records.map Prod.fst).Nodup)
    {q : Bytes × Bytes} (absent : q ∉ records.map Prod.fst) (value : Bytes) :
    ((records ++ [(q, value)]).map Prod.fst).Nodup := by
  rw [List.map_append, List.nodup_append]
  refine ⟨nodup, by simp, fun a member b single same => absent ?_⟩
  rw [List.map_singleton, List.mem_singleton] at single
  rwa [same, single] at member

/-- `contractMap[key] = value`: a key already there keeps its place and takes the value, a new
key comes last. -/
def ChainState.set (cs : ChainState) (contract key value : Bytes) : ChainState :=
  if present : (contract, key) ∈ cs.records.map Prod.fst then
    ⟨cs.records.map fun r => if r.1 = (contract, key) then ((contract, key), value) else r,
      (ChainState.keys_replace cs.records (contract, key) value).symm ▸ cs.nodup⟩
  else
    ⟨cs.records ++ [((contract, key), value)], ChainState.nodup_append_absent cs.nodup present value⟩

/-- `isZeroValue`, of both `statestorage` and the in-memory adapter. -/
def isZeroValue (value : Bytes) : Bool :=
  value == []

/-- What `_writeOneRecord` leaves at a key: nothing for the zero value, which deletes it. -/
def storedValue (value : Bytes) : Option Bytes :=
  if isZeroValue value then none else some value

theorem storedValue_ne_zero (value : Bytes) : storedValue value ≠ some [] := by
  unfold storedValue isZeroValue
  split
  · exact nofun
  · rename_i nonzero
    intro same
    exact nonzero (by simp [Option.some.inj same])

/-- `_writeOneRecord` on the nested maps of `fullState`, kept as one map on (contract, key); an
empty inner map reads as absent. -/
def writeOneRecord (fullState : Bytes × Bytes → Option Bytes) (c : Bytes) (key value : Bytes) :
    Bytes × Bytes → Option Bytes :=
  if isZeroValue value then Function.update fullState (c, key) none
  else Function.update fullState (c, key) (some value)

theorem writeOneRecord_eq (fullState : Bytes × Bytes → Option Bytes) (c key value : Bytes) :
    writeOneRecord fullState c key value = Function.update fullState (c, key) (storedValue value) := by
  unfold writeOneRecord storedValue
  split <;> rfl

/-- The records of a diff written one by one. -/
def writeRecords (fullState : Bytes × Bytes → Option Bytes) (diff : ChainState) : Bytes × Bytes → Option Bytes :=
  diff.records.foldl (fun fullState r => writeOneRecord fullState r.1.1 r.1.2 r.2) fullState

theorem writeRecords_apply (fullState : Bytes × Bytes → Option Bytes) (diff : ChainState) (q : Bytes × Bytes) :
    writeRecords fullState diff q = ((diff.records.lookup q).map storedValue).getD (fullState q) := by
  simp only [writeRecords, writeOneRecord_eq]
  exact Function.foldl_update_apply_eq_lookup storedValue diff.nodup fullState q

theorem writeRecords_ne_zero {fullState : Bytes × Bytes → Option Bytes} (noZeroValue : ∀ q, fullState q ≠ some [])
    (diff : ChainState) (q : Bytes × Bytes) : writeRecords fullState diff q ≠ some [] := by
  rw [writeRecords_apply]
  cases diff.records.lookup q with
  | none => exact noZeroValue q
  | some value => exact storedValue_ne_zero value

/-- `InMemoryStatePersistence`, without its metrics and lock. No key holds the zero value: a
write of it deletes the key. -/
structure InMemoryStatePersistence where
  fullState : Bytes × Bytes → Option Bytes
  height : Nat
  ts : Nat
  proposer : Bytes
  merkleRoot : Bytes
  noZeroValue : ∀ q, fullState q ≠ some []

/-- `NewStatePersistence`: the hard coded genesis block, at height 0, with the root of the
empty trie. -/
def newStatePersistence (calcSha256 : Bytes → Bytes) : InMemoryStatePersistence where
  fullState := fun _ => none
  height := 0
  ts := 0
  proposer := []
  merkleRoot := (Merkle.newForest calcSha256).2
  noZeroValue := fun _ => nofun

/-- `Write`, which never fails. It records the height, proposer and root but keeps the old
`ts`. -/
def InMemoryStatePersistence.write (sp : InMemoryStatePersistence) (height _ts : Nat) (proposer root : Bytes)
    (diff : ChainState) : Except String InMemoryStatePersistence :=
  .ok { sp with
    height, proposer, merkleRoot := root
    fullState := writeRecords sp.fullState diff
    noZeroValue := writeRecords_ne_zero sp.noZeroValue diff }

theorem InMemoryStatePersistence.write_ok (sp : InMemoryStatePersistence) (height ts : Nat) (proposer root : Bytes)
    (diff : ChainState) :
    ∃ persist, sp.write height ts proposer root diff = .ok persist ∧
      persist.fullState = writeRecords sp.fullState diff :=
  ⟨_, rfl, rfl⟩

/-- `Read`: the record and whether the key is there. -/
def InMemoryStatePersistence.read (sp : InMemoryStatePersistence) (contract key : Bytes) :
    Except String (Bytes × Bool) :=
  .ok ((sp.fullState (contract, key)).getD [], (sp.fullState (contract, key)).isSome)

/-- `ReadMetadata`, which never fails. -/
def InMemoryStatePersistence.readMetadata (sp : InMemoryStatePersistence) : Nat × Nat × Bytes × Bytes :=
  (sp.height, sp.ts, sp.proposer, sp.merkleRoot)

end OrbsNetwork.StateStorage
