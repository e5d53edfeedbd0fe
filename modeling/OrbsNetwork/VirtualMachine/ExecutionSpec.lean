import OrbsNetwork.VirtualMachine.Sequential

/-! The transaction set refines the sequential store of `Sequential`: every read returns what the
store holds at that point, and the state diffs are those of the successful transactions. -/

namespace OrbsNetwork.VirtualMachine

open FirstSeen StateStorage TransientState

variable (committed : ContractName → Bytes → Bytes)

/-- The transient state `tx` of a transaction after its calls `done`, over the batch's: it holds
each key the calls wrote, dirty, with the value last written, and at most the committed value,
clean, of a key they did not write and the batch does not hold; and it has met the keys and the
contracts the batch does not hold in the order of the calls. -/
structure Tracks (batch : TransientState) (done : List StateCall) (tx : TransientState) : Prop where
  written : ∀ s k v, lastWrite done s k = some v → tx.pair s k = some ⟨v, true⟩
  unwritten : ∀ s k, lastWrite done s k = none →
    tx.pair s k = none ∨ (tx.pair s k = some ⟨committed s k, false⟩ ∧ batch.getValue s k = none)
  keys : ∀ s, ((tx.keyOrder s).filter fun k => k ∉ batch.keyOrder s) =
    (calledKeys done s).filter fun k => k ∉ batch.keyOrder s
  contracts : (tx.contracts.keys.filter fun s => s ∉ batch.contracts.keys) =
    (calledContracts done).filter fun s => s ∉ batch.contracts.keys

namespace Tracks

variable {committed} {batch tx : TransientState} {done : List StateCall} {s : ContractName} {k v : Bytes}

theorem start : Tracks committed batch [] newTransientState where
  written _ _ _ none := by simp at none
  unwritten _ _ _ := .inl rfl
  keys _ := rfl
  contracts := rfl

theorem isDirtyAt_eq (tracks : Tracks committed batch done tx) : tx.isDirtyAt s k = (lastWrite done s k).isSome := by
  cases written : lastWrite done s k with
  | some v => rw [isDirtyAt, tracks.written s k v written]; rfl
  | none =>
    rcases tracks.unwritten s k written with absent | ⟨clean, -⟩
    · rw [isDirtyAt, absent]; rfl
    · rw [isDirtyAt, clean]; rfl

theorem getValue_of_written (tracks : Tracks committed batch done tx) (written : lastWrite done s k = some v) :
    tx.getValue s k = some v := by
  rw [getValue_eq, tracks.written s k v written]
  rfl

/-- The dirty keys of the transaction are those its calls wrote. -/
theorem dirtyKeys_eq (tracks : Tracks committed batch done tx) :
    tx.dirtyKeys s = (tx.keyOrder s).filter fun k => (lastWrite done s k).isSome := by
  unfold dirtyKeys
  congr 1
  funext k
  exact tracks.isDirtyAt_eq

theorem dirtyKeys_ne_nil_iff (tracks : Tracks committed batch done tx) :
    tx.dirtyKeys s ≠ [] ↔ writtenKeys done s ≠ [] := by
  rw [writtenKeys_ne_nil_iff]
  constructor
  · intro nonempty
    obtain ⟨k, dirty⟩ := List.exists_mem_of_ne_nil _ nonempty
    obtain ⟨v, found⟩ := mem_dirtyKeys_iff.mp dirty
    exact ⟨k, tracks.isDirtyAt_eq.symm.trans (isDirtyAt_iff.mpr ⟨v, found⟩)⟩
  · rintro ⟨k, written⟩
    obtain ⟨v, found⟩ := Option.isSome_iff_exists.mp written
    exact List.ne_nil_of_mem (mem_dirtyKeys_iff.mpr ⟨v, tracks.written s k v found⟩)

/-! The key and contract orders after a call that sets its key, and after one that changes
nothing. -/

theorem keys_setValue (tracks : Tracks committed batch done tx) (call : StateCall) (value : Bytes) (isDirty : Bool)
    (s' : ContractName) :
    (((tx.setValue call.service call.key value isDirty).keyOrder s').filter fun k => k ∉ batch.keyOrder s') =
      (calledKeys (done ++ [call]) s').filter fun k => k ∉ batch.keyOrder s' := by
  rw [keyOrder_setValue, calledKeys_append]
  by_cases here : s' = call.service
  · subst here
    rw [if_pos rfl, if_pos rfl]
    exact filter_note_congr _ (tracks.keys _) call.key
  · rw [if_neg here, if_neg (Ne.symm here)]
    exact tracks.keys s'

theorem contracts_setValue (tracks : Tracks committed batch done tx) (call : StateCall) (value : Bytes) (isDirty : Bool) :
    ((tx.setValue call.service call.key value isDirty).contracts.keys.filter fun s => s ∉ batch.contracts.keys) =
      (calledContracts (done ++ [call])).filter fun s => s ∉ batch.contracts.keys := by
  rw [TransientState.keys_setValue, calledContracts_append]
  exact filter_note_congr _ tracks.contracts call.service

/-- A read of a key that the transaction or the batch holds leaves the transaction's transient
state as it is. -/
theorem read_known (tracks : Tracks committed batch done tx) (known : (tx.pair s k).isSome ∨ (batch.pair s k).isSome) :
    Tracks committed batch (done ++ [.read s k]) tx where
  written s' k' v written := tracks.written s' k' v (by simpa using written)
  unwritten s' k' unwritten := tracks.unwritten s' k' (by simpa using unwritten)
  keys s' := by
    rw [calledKeys_append]
    by_cases here : s = s'
    · subst here
      rw [if_pos (show (StateCall.read s k).service = s from rfl), filter_note_of_mem _ fun fresh => ?_]
      · exact tracks.keys s
      have held : (tx.pair s k).isSome := by
        refine known.resolve_right fun inBatch => ?_
        exact of_decide_eq_true fresh (mem_keyOrder_iff.mpr inBatch)
      rw [← tracks.keys s, List.mem_filter]
      exact ⟨mem_keyOrder_iff.mpr held, fresh⟩
    · rw [if_neg (show (StateCall.read s k).service ≠ s' from here)]
      exact tracks.keys s'
  contracts := by
    rw [calledContracts_append, filter_note_of_mem _ fun fresh => ?_]
    · exact tracks.contracts
    have held : (tx.pair s k).isSome := by
      refine known.resolve_right fun inBatch => ?_
      obtain ⟨p, found⟩ := Option.isSome_iff_exists.mp inBatch
      exact of_decide_eq_true fresh (mem_keys_of_pair found)
    obtain ⟨p, found⟩ := Option.isSome_iff_exists.mp held
    rw [← tracks.contracts, List.mem_filter]
    exact ⟨mem_keys_of_pair found, fresh⟩

theorem write (tracks : Tracks committed batch done tx) (s : ContractName) (k v : Bytes) :
    Tracks committed batch (done ++ [.write s k v]) (handleSdkStateWrite tx s k v) where
  written s' k' v' written := by
    rw [lastWrite_append_write] at written
    rw [handleSdkStateWrite, pair_setValue]
    split_ifs at written ⊢ with here
    · cases written
      rfl
    · exact tracks.written s' k' v' written
  unwritten s' k' unwritten := by
    rw [lastWrite_append_write] at unwritten
    rw [handleSdkStateWrite, pair_setValue]
    by_cases here : s' = s ∧ k' = k
    · rw [if_pos here] at unwritten
      cases unwritten
    · rw [if_neg here] at unwritten ⊢
      exact tracks.unwritten s' k' unwritten
  keys := tracks.keys_setValue (.write s k v) v true
  contracts := tracks.contracts_setValue (.write s k v) v true

section Read

variable {history : List StateCall} (agrees : ∀ s k, batch.getValue s k = lastWrite history s k)
include agrees

/-- A read of a key that neither the transaction nor the batch holds: its committed value, which
the transaction keeps, clean. -/
theorem read_miss (tracks : Tracks committed batch done tx) (inTx : tx.getValue s k = none)
    (inBatch : batch.getValue s k = none) :
    (lastWrite (history ++ done) s k).getD (committed s k) = committed s k ∧
      Tracks committed batch (done ++ [.read s k]) (tx.setValue s k (committed s k) false) := by
  have absent : tx.pair s k = none := by rwa [getValue_eq, Option.map_eq_none_iff] at inTx
  have unwritten : lastWrite done s k = none := by
    cases written : lastWrite done s k with
    | none => rfl
    | some v => rw [tracks.written s k v written] at absent; cases absent
  refine ⟨by rw [lastWrite_append, unwritten, ← agrees, inBatch]; rfl, ?_⟩
  constructor
  · intro s' k' v written
    rw [lastWrite_append_read] at written
    rw [pair_setValue, if_neg fun ⟨rfl, rfl⟩ => by rw [unwritten] at written; cases written]
    exact tracks.written s' k' v written
  · intro s' k' unwritten'
    rw [lastWrite_append_read] at unwritten'
    rw [pair_setValue]
    split_ifs with here
    · obtain ⟨rfl, rfl⟩ := here
      exact .inr ⟨rfl, inBatch⟩
    · exact tracks.unwritten s' k' unwritten'
  · exact tracks.keys_setValue (.read s k) (committed s k) false
  · exact tracks.contracts_setValue (.read s k) (committed s k) false

/-- `handleSdkStateRead` returns the value the sequential store holds after the calls of the
successful transactions and the transaction's own calls so far. -/
theorem read (tracks : Tracks committed batch done tx) (s : ContractName) (k : Bytes) :
    (handleSdkStateRead committed batch tx s k).1 = (lastWrite (history ++ done) s k).getD (committed s k) ∧
      Tracks committed batch (done ++ [.read s k]) (handleSdkStateRead committed batch tx s k).2 := by
  unfold handleSdkStateRead
  cases inTx : tx.getValue s k with
  | some w =>
    -- the transaction holds the key: its own last write, or the committed value it cached
    obtain ⟨p, found, rfl⟩ := Option.map_eq_some_iff.mp (getValue_eq.symm.trans inTx)
    refine ⟨?_, tracks.read_known (.inl (by rw [found]; rfl))⟩
    cases written : lastWrite done s k with
    | some v =>
      rw [tracks.written s k v written] at found
      cases found
      rw [lastWrite_append, written]
      rfl
    | none =>
      rcases tracks.unwritten s k written with absent | ⟨clean, inBatch⟩
      · rw [absent] at found; cases found
      · rw [clean] at found
        cases found
        rw [lastWrite_append, written, ← agrees, inBatch]
        rfl
  | none =>
    cases inBatch : batch.getValue s k with
    | some w =>
      have absent : tx.pair s k = none := by rwa [getValue_eq, Option.map_eq_none_iff] at inTx
      have unwritten : lastWrite done s k = none := by
        cases written : lastWrite done s k with
        | none => rfl
        | some v => rw [tracks.written s k v written] at absent; cases absent
      refine ⟨by rw [lastWrite_append, unwritten, ← agrees, inBatch]; rfl, tracks.read_known (.inr ?_)⟩
      obtain ⟨p, found, -⟩ := Option.map_eq_some_iff.mp (getValue_eq.symm.trans inBatch)
      rw [found]
      rfl
    | none =>
      obtain ⟨value, tracks'⟩ := read_miss agrees tracks inTx inBatch
      exact ⟨value.symm, tracks'⟩

variable (committed) in
/-- The state calls of a transaction, from any point of it on. -/
theorem runStateCalls_tracks (calls : List StateCall) :
    ∀ (done : List StateCall) (tx : TransientState), Tracks committed batch done tx →
      (runStateCalls committed batch calls tx).1 = sequentialReads committed (history ++ done) calls ∧
        Tracks committed batch (done ++ calls) (runStateCalls committed batch calls tx).2 := by
  induction calls with
  | nil => exact fun done tx tracks => ⟨rfl, by rwa [List.append_nil]⟩
  | cons call calls ih =>
    intro done tx tracks
    cases call with
    | read s k =>
      obtain ⟨value, tracks'⟩ := tracks.read agrees s k
      obtain ⟨values, final⟩ := ih _ _ tracks'
      rw [← List.append_assoc] at values
      rw [List.append_assoc, List.singleton_append] at final
      refine ⟨?_, final⟩
      rw [runStateCalls_read, value, values]
      rfl
    | write s k v =>
      obtain ⟨values, final⟩ := ih _ _ (tracks.write s k v)
      rw [← List.append_assoc] at values
      rw [List.append_assoc, List.singleton_append] at final
      rw [runStateCalls_write]
      exact ⟨values, final⟩

end Read

end Tracks

/-- The batch's transient state after the successful transactions `txs`: their contracts and keys
in the order of the diffs, and the value last written to each key, dirty. -/
structure Represents (batch : TransientState) (txs : List (List StateCall)) : Prop where
  contracts : batch.contracts.keys = diffContracts txs
  keys : ∀ s, batch.keyOrder s = diffKeys txs s
  pairs : ∀ s k, batch.pair s k = (lastWrite txs.flatten s k).map fun v => ⟨v, true⟩

namespace Represents

variable {committed} {batch tx : TransientState} {txs : List (List StateCall)} {calls : List StateCall}
  {s : ContractName} {k : Bytes}

theorem start : Represents newTransientState [] where
  contracts := rfl
  keys _ := rfl
  pairs _ _ := rfl

theorem getValue (rep : Represents batch txs) (s : ContractName) (k : Bytes) :
    batch.getValue s k = lastWrite txs.flatten s k := by
  rw [getValue_eq, rep.pairs]
  cases lastWrite txs.flatten s k <;> rfl

theorem dirtyKeys (rep : Represents batch txs) : batch.dirtyKeys s = diffKeys txs s := by
  rw [TransientState.dirtyKeys, List.filter_eq_self.mpr, rep.keys]
  intro k member
  have held := mem_keyOrder_iff.mp member
  rw [isDirtyAt, rep.pairs]
  rw [rep.pairs] at held
  cases found : lastWrite txs.flatten s k with
  | none => rw [found] at held; cases held
  | some v => rfl

/-- A successful transaction merged into the batch. -/
theorem merge (rep : Represents batch txs) (tracks : Tracks committed batch calls tx) :
    Represents (tx.mergeIntoTransientState batch) (txs ++ [calls]) where
  contracts := by
    rw [keys_mergeIntoTransientState, diffContracts_append, ← rep.contracts]
    refine foldl_note_congr (fun s => decide (s ∉ batch.contracts.keys)) (fun _ => by simp) ?_
    -- the new contracts: those the transaction wrote to and the batch does not hold, in the same order
    calc ((tx.contracts.keys.filter fun s => tx.dirtyKeys s ≠ []).filter fun s => s ∉ batch.contracts.keys)
      _ = ((tx.contracts.keys.filter fun s => s ∉ batch.contracts.keys).filter fun s => tx.dirtyKeys s ≠ []) :=
        filter_filter_comm _ _ _
      _ = (((calledContracts calls).filter fun s => s ∉ batch.contracts.keys).filter fun s => tx.dirtyKeys s ≠ []) := by
        rw [tracks.contracts]
      _ = (((calledContracts calls).filter fun s => s ∉ batch.contracts.keys).filter fun s => writtenKeys calls s ≠ []) := by
        congr 1
        funext s
        exact decide_eq_decide.mpr tracks.dirtyKeys_ne_nil_iff
      _ = ((writtenContracts calls).filter fun s => s ∉ batch.contracts.keys) := filter_filter_comm _ _ _
  keys s := by
    rw [keyOrder_mergeIntoTransientState, diffKeys_append, ← rep.keys]
    refine foldl_note_congr (fun k => decide (k ∉ batch.keyOrder s)) (fun _ => by simp) ?_
    -- the new keys: those the transaction wrote and the batch does not hold, in the same order
    calc ((tx.dirtyKeys s).filter fun k => k ∉ batch.keyOrder s)
      _ = (((tx.keyOrder s).filter fun k => (lastWrite calls s k).isSome).filter fun k => k ∉ batch.keyOrder s) := by
        rw [tracks.dirtyKeys_eq]
      _ = (((tx.keyOrder s).filter fun k => k ∉ batch.keyOrder s).filter fun k => (lastWrite calls s k).isSome) :=
        filter_filter_comm _ _ _
      _ = (((calledKeys calls s).filter fun k => k ∉ batch.keyOrder s).filter fun k => (lastWrite calls s k).isSome) := by
        rw [tracks.keys s]
      _ = ((writtenKeys calls s).filter fun k => k ∉ batch.keyOrder s) := filter_filter_comm _ _ _
  pairs s k := by
    rw [pair_mergeIntoTransientState, lastWrite_flatten_append]
    cases written : lastWrite calls s k with
    | some v =>
      rw [if_pos (mem_dirtyKeys_iff.mpr ⟨v, tracks.written s k v written⟩), tracks.getValue_of_written written]
      rfl
    | none =>
      have clean : k ∉ tx.dirtyKeys s := by simp [tracks.dirtyKeys_eq, written]
      rw [if_neg clean, rep.pairs]
      rfl

/-- The state diffs of the batch are those of the sequential store. -/
theorem encode (rep : Represents batch txs) : encodeBatchTransientStateToStateDiffs batch = sequentialDiffs txs := by
  rw [encodeBatchTransientStateToStateDiffs, sequentialDiffs, rep.contracts]
  refine List.filterMap_eq_map_iff_forall_eq_some.mpr fun s written => ?_
  obtain ⟨k, some⟩ := mem_diffContracts.mp written
  have keys : 0 < (diffKeys txs s).length := List.length_pos_of_mem (mem_diffKeys.mpr some)
  simp only [forDirty_eq, rep.dirtyKeys, rep.getValue, List.map_map, stateDiffs_eq, List.length_map]
  rw [if_pos keys]
  rfl

end Represents

theorem successfulCalls_cons (run : MethodRun) (runs : List MethodRun) :
    successfulCalls (run :: runs) =
      if run.callResult = .success then run.stateCalls :: successfulCalls runs else successfulCalls runs := by
  by_cases succeeded : run.callResult = .success <;> simp [successfulCalls, succeeded]

/-- The loop of `processTransactionSet`: each transaction reads from the sequential store, and the
batch represents the successful ones. -/
theorem runTransactions_represents {batch : TransientState} {txs : List (List StateCall)} (rep : Represents batch txs)
    (runs : List MethodRun) :
    (runTransactions committed batch runs).1 = sequentialReceipts committed txs.flatten runs ∧
      Represents (runTransactions committed batch runs).2 (txs ++ successfulCalls runs) := by
  induction runs generalizing batch txs with
  | nil => exact ⟨rfl, by simpa [successfulCalls, runTransactions] using rep⟩
  | cons run runs ih =>
    obtain ⟨reads, tracks⟩ :=
      Tracks.runStateCalls_tracks committed rep.getValue run.stateCalls [] newTransientState Tracks.start
    rw [List.append_nil] at reads
    rw [List.nil_append] at tracks
    rw [runTransactions_cons, runMethod_eq, successfulCalls_cons]
    by_cases succeeded : run.callResult = .success
    · -- the batch takes the transaction's writes
      obtain ⟨receipts, final⟩ := ih (rep.merge tracks)
      rw [List.flatten_append, List.flatten_singleton] at receipts
      rw [List.append_assoc, List.singleton_append] at final
      simp only [succeeded, ↓reduceIte]
      refine ⟨?_, final⟩
      rw [reads, receipts]
      simp [sequentialReceipts, succeeded]
    · obtain ⟨receipts, final⟩ := ih rep
      simp only [succeeded, ↓reduceIte]
      refine ⟨?_, final⟩
      rw [reads, receipts]
      simp [sequentialReceipts, succeeded]

/-- `processTransactionSet` is the sequential store: the values the reads return, and the state
diffs of the successful transactions. -/
theorem processTransactionSet_eq (runs : List MethodRun) :
    processTransactionSet committed runs = (sequentialReceipts committed [] runs, sequentialDiffs (successfulCalls runs)) := by
  obtain ⟨receipts, rep⟩ := runTransactions_represents committed Represents.start runs
  rw [List.nil_append] at rep
  show ((runTransactions committed newTransientState runs).1,
    encodeBatchTransientStateToStateDiffs (runTransactions committed newTransientState runs).2) = _
  rw [receipts, rep.encode]
  rfl

/-- The receipt of each transaction: its reads against the calls of the successful transactions
before it. -/
theorem sequentialReceipts_getElem? (history : List StateCall) (runs : List MethodRun) (i : Nat) :
    (sequentialReceipts committed history runs)[i]? =
      runs[i]?.map fun run =>
        (run.callResult, sequentialReads committed (history ++ (successfulCalls (runs.take i)).flatten) run.stateCalls) := by
  induction runs generalizing history i with
  | nil => rfl
  | cons run runs ih =>
    cases i with
    | zero => simp [sequentialReceipts, successfulCalls]
    | succ i =>
      rw [List.take_succ_cons, successfulCalls_cons]
      by_cases succeeded : run.callResult = .success
      · simp [sequentialReceipts, succeeded, ih]
      · simp [sequentialReceipts, succeeded, ih]

/-- Transaction-set execution refines a sequential store with rollback per transaction. The reads
of transaction `i` return the value last written, by its own earlier calls or else by the
successful transactions before it, else the committed one; a transaction that does not succeed
writes nothing; and the state diffs list each contract and key that a successful transaction wrote,
once, with the value last written to it, contracts and keys in the order of the first successful
transaction that writes each and, within it, of the first call on each. -/
theorem processTransactionSet_sequential (runs : List MethodRun) :
    (∀ i, (processTransactionSet committed runs).1[i]? =
      runs[i]?.map fun run =>
        (run.callResult, sequentialReads committed (successfulCalls (runs.take i)).flatten run.stateCalls)) ∧
    (processTransactionSet committed runs).2 = sequentialDiffs (successfulCalls runs) ∧
    ((processTransactionSet committed runs).2.map ContractStateDiff.contractName).Nodup ∧
    (∀ d ∈ (processTransactionSet committed runs).2, d.stateDiffs ≠ [] ∧ (d.stateDiffs.map StateRecord.key).Nodup) ∧
    ∀ s k v, (∃ d ∈ (processTransactionSet committed runs).2, d.contractName = s ∧ ⟨k, v⟩ ∈ d.stateDiffs) ↔
      lastWrite (successfulCalls runs).flatten s k = some v := by
  rw [processTransactionSet_eq]
  refine ⟨fun i => ?_, rfl, ?_, fun d member => stateDiffs_of_mem_sequentialDiffs member,
    fun s k v => mem_sequentialDiffs_iff⟩
  · rw [sequentialReceipts_getElem?]
    rfl
  · rw [map_contractName_sequentialDiffs]
    exact nodup_diffContracts

/-- One transaction reads key 65 and then writes keys 66 and 65: its diff lists 65 first, the key
it called first, where the order of first writes would list 66 first. -/
theorem processTransactionSet_orders_by_first_call :
    (processTransactionSet (fun _ _ => [])
        [⟨[.read [1] [65], .write [1] [66] [1], .write [1] [65] [2]], .success⟩]).2 =
      [⟨[1], [⟨[65], [2]⟩, ⟨[66], [1]⟩]⟩] := by
  decide

end OrbsNetwork.VirtualMachine
