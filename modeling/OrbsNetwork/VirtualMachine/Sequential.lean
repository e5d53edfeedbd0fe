import OrbsNetwork.VirtualMachine.Execution

/-! What a transaction set is for: a sequential store over the committed state, which takes the
writes of each successful transaction in turn and drops those of the others, and the list of
what was written, each contract and key once with its last value. -/

namespace OrbsNetwork.VirtualMachine

open FirstSeen StateStorage

namespace StateCall

def service : StateCall → ContractName
  | read service _ => service
  | write service _ _ => service

def key : StateCall → Bytes
  | read _ key => key
  | write _ key _ => key

/-- The value the call writes to `key` of `service`, if it writes there. -/
def writeOf (service : ContractName) (key : Bytes) : StateCall → Option Bytes
  | read _ _ => none
  | write s k v => if service = s ∧ key = k then some v else none

end StateCall

/-- The value that `calls` write last to `key` of `service`. -/
def lastWrite (calls : List StateCall) (service : ContractName) (key : Bytes) : Option Bytes :=
  calls.reverse.findSome? (StateCall.writeOf service key)

/-- The keys of `service` that `calls` name, in the order of the first call on each. -/
def calledKeys (calls : List StateCall) (service : ContractName) : List Bytes :=
  order ((calls.filter fun call => call.service = service).map StateCall.key)

/-- The contracts that `calls` name, in the order of the first call on each. -/
def calledContracts (calls : List StateCall) : List ContractName :=
  order (calls.map StateCall.service)

/-- The keys of `service` that `calls` write, in the order of the first call on each, read or
write. -/
def writtenKeys (calls : List StateCall) (service : ContractName) : List Bytes :=
  (calledKeys calls service).filter fun key => (lastWrite calls service key).isSome

/-- The contracts that `calls` write to, in the order of the first call on each. -/
def writtenContracts (calls : List StateCall) : List ContractName :=
  (calledContracts calls).filter fun service => writtenKeys calls service ≠ []

section Reads

variable (committed : ContractName → Bytes → Bytes)

/-- The values the reads of `calls` return from a sequential store: the value last written to the
key before the read, in `history` and then in `calls`, else the committed one. -/
def sequentialReads : List StateCall → List StateCall → List Bytes
  | _, [] => []
  | history, .read service key :: calls =>
    (lastWrite history service key).getD (committed service key) ::
      sequentialReads (history ++ [.read service key]) calls
  | history, .write service key value :: calls => sequentialReads (history ++ [.write service key value]) calls

/-- Each transaction against the calls of the successful transactions before it, `history`, in
turn: the calls of a transaction that does not succeed never join it. -/
def sequentialReceipts : List StateCall → List MethodRun → List (ExecutionResult × List Bytes)
  | _, [] => []
  | history, run :: runs =>
    (run.callResult, sequentialReads committed history run.stateCalls) ::
      sequentialReceipts (if run.callResult = .success then history ++ run.stateCalls else history) runs

end Reads

/-- The calls of each successful transaction of `runs`. -/
def successfulCalls (runs : List MethodRun) : List (List StateCall) :=
  (runs.filter fun run => run.callResult = .success).map MethodRun.stateCalls

/-- The contracts the transactions `txs` write to, in the order of the first transaction that
writes to each, and within it of the first call on each. -/
def diffContracts (txs : List (List StateCall)) : List ContractName :=
  txs.foldl (fun contracts calls => (writtenContracts calls).foldl note contracts) []

/-- The keys of `service` that `txs` write, in the same order. -/
def diffKeys (txs : List (List StateCall)) (service : ContractName) : List Bytes :=
  txs.foldl (fun keys calls => (writtenKeys calls service).foldl note keys) []

/-- The state diffs of the transactions `txs`: each contract written to, with each key written and
the value last written to it. -/
def sequentialDiffs (txs : List (List StateCall)) : List ContractStateDiff :=
  (diffContracts txs).map fun service =>
    ⟨service, (diffKeys txs service).filterMap fun key => (lastWrite txs.flatten service key).map (StateRecord.mk key)⟩

section Lemmas

variable {calls history : List StateCall} {s s' : ContractName} {k k' v : Bytes}

@[simp] theorem lastWrite_nil : lastWrite [] s k = none := rfl

theorem lastWrite_append (first later : List StateCall) :
    lastWrite (first ++ later) s k = (lastWrite later s k).or (lastWrite first s k) := by
  rw [lastWrite, List.reverse_append, List.findSome?_append]
  rfl

@[simp] theorem lastWrite_append_read : lastWrite (calls ++ [.read s' k']) s k = lastWrite calls s k := by
  rw [lastWrite_append]
  rfl

@[simp] theorem lastWrite_append_write :
    lastWrite (calls ++ [.write s' k' v]) s k = if s = s' ∧ k = k' then some v else lastWrite calls s k := by
  rw [lastWrite_append]
  by_cases here : s = s' ∧ k = k'
  · simp [here, lastWrite, StateCall.writeOf]
  · simp [here, lastWrite, StateCall.writeOf]

theorem write_mem_of_lastWrite (written : lastWrite calls s k = some v) : StateCall.write s k v ∈ calls := by
  obtain ⟨call, member, hit⟩ := List.exists_of_findSome?_eq_some written
  cases call with
  | read => cases hit
  | write s' k' v' =>
    simp only [StateCall.writeOf] at hit
    split_ifs at hit with here
    obtain ⟨rfl, rfl⟩ := here
    cases hit
    exact List.mem_reverse.mp member

theorem calledKeys_append (call : StateCall) :
    calledKeys (calls ++ [call]) s = if call.service = s then note (calledKeys calls s) call.key else calledKeys calls s := by
  unfold calledKeys order
  by_cases here : call.service = s
  · simp [here, List.filter_append]
  · simp [here, List.filter_append]

theorem calledContracts_append (call : StateCall) :
    calledContracts (calls ++ [call]) = note (calledContracts calls) call.service := by
  simp [calledContracts, order]

theorem mem_calledKeys : k ∈ calledKeys calls s ↔ ∃ call ∈ calls, call.service = s ∧ call.key = k := by
  simp [calledKeys, and_assoc]

theorem mem_writtenKeys : k ∈ writtenKeys calls s ↔ (lastWrite calls s k).isSome := by
  rw [writtenKeys, List.mem_filter, mem_calledKeys]
  constructor
  · exact fun ⟨_, written⟩ => written
  · intro written
    obtain ⟨v, found⟩ := Option.isSome_iff_exists.mp written
    exact ⟨⟨_, write_mem_of_lastWrite found, rfl, rfl⟩, written⟩

theorem writtenKeys_ne_nil_iff : writtenKeys calls s ≠ [] ↔ ∃ k, (lastWrite calls s k).isSome := by
  constructor
  · intro nonempty
    obtain ⟨k, member⟩ := List.exists_mem_of_ne_nil _ nonempty
    exact ⟨k, mem_writtenKeys.mp member⟩
  · rintro ⟨k, written⟩
    exact List.ne_nil_of_mem (mem_writtenKeys.mpr written)

theorem mem_writtenContracts : s ∈ writtenContracts calls ↔ ∃ k, (lastWrite calls s k).isSome := by
  rw [writtenContracts, List.mem_filter, decide_eq_true_iff, writtenKeys_ne_nil_iff]
  constructor
  · exact fun ⟨_, written⟩ => written
  · rintro ⟨k, written⟩
    obtain ⟨v, found⟩ := Option.isSome_iff_exists.mp written
    exact ⟨by simpa [calledContracts] using ⟨_, write_mem_of_lastWrite found, rfl⟩, k, written⟩

end Lemmas

section Diffs

variable {txs : List (List StateCall)} {calls : List StateCall} {s : ContractName} {k v : Bytes}

@[simp] theorem diffContracts_nil : diffContracts [] = [] := rfl

@[simp] theorem diffKeys_nil : diffKeys [] s = [] := rfl

theorem diffContracts_append :
    diffContracts (txs ++ [calls]) = (writtenContracts calls).foldl note (diffContracts txs) := by
  rw [diffContracts, List.foldl_append]
  rfl

theorem diffKeys_append : diffKeys (txs ++ [calls]) s = (writtenKeys calls s).foldl note (diffKeys txs s) := by
  rw [diffKeys, List.foldl_append]
  rfl

theorem lastWrite_flatten_append :
    lastWrite (txs ++ [calls]).flatten s k = (lastWrite calls s k).or (lastWrite txs.flatten s k) := by
  rw [List.flatten_append, List.flatten_singleton, lastWrite_append]

theorem mem_diffKeys : k ∈ diffKeys txs s ↔ (lastWrite txs.flatten s k).isSome := by
  induction txs using List.reverseRecOn with
  | nil => simp
  | append_singleton txs calls ih =>
    rw [diffKeys_append, mem_foldl_note, ih, mem_writtenKeys, lastWrite_flatten_append, Option.isSome_or,
      Bool.or_eq_true]
    exact Or.comm

theorem mem_diffContracts : s ∈ diffContracts txs ↔ ∃ k, (lastWrite txs.flatten s k).isSome := by
  induction txs using List.reverseRecOn with
  | nil => simp
  | append_singleton txs calls ih =>
    simp only [diffContracts_append, mem_foldl_note, ih, mem_writtenContracts, lastWrite_flatten_append,
      Option.isSome_or, Bool.or_eq_true, exists_or]
    exact Or.comm

theorem nodup_diffKeys : (diffKeys txs s).Nodup := by
  induction txs using List.reverseRecOn with
  | nil => exact List.nodup_nil
  | append_singleton txs calls ih => rw [diffKeys_append]; exact nodup_foldl_note ih

theorem nodup_diffContracts : (diffContracts txs).Nodup := by
  induction txs using List.reverseRecOn with
  | nil => exact List.nodup_nil
  | append_singleton txs calls ih => rw [diffContracts_append]; exact nodup_foldl_note ih

/-- The diff of a contract lists its keys in order, each with its last value. -/
theorem stateDiffs_eq :
    ((diffKeys txs s).filterMap fun key => (lastWrite txs.flatten s key).map (StateRecord.mk key)) =
      (diffKeys txs s).map fun key => ⟨key, (lastWrite txs.flatten s key).getD []⟩ := by
  rw [← List.filterMap_eq_map']
  refine List.filterMap_congr fun key member => ?_
  obtain ⟨v, found⟩ := Option.isSome_iff_exists.mp (mem_diffKeys.mp member)
  simp [found]

theorem map_contractName_sequentialDiffs : (sequentialDiffs txs).map ContractStateDiff.contractName = diffContracts txs := by
  simp [sequentialDiffs, Function.comp_def]

theorem mem_sequentialDiffs_iff :
    (∃ d ∈ sequentialDiffs txs, d.contractName = s ∧ ⟨k, v⟩ ∈ d.stateDiffs) ↔ lastWrite txs.flatten s k = some v := by
  constructor
  · rintro ⟨d, member, rfl, pairIn⟩
    obtain ⟨s, -, rfl⟩ := List.mem_map.mp member
    obtain ⟨key, -, hit⟩ := List.mem_filterMap.mp pairIn
    obtain ⟨v', found, same⟩ := Option.map_eq_some_iff.mp hit
    cases same
    exact found
  · intro found
    have written : (lastWrite txs.flatten s k).isSome := by rw [found]; rfl
    refine ⟨_, List.mem_map.mpr ⟨s, mem_diffContracts.mpr ⟨k, written⟩, rfl⟩, rfl, ?_⟩
    exact List.mem_filterMap.mpr ⟨k, mem_diffKeys.mpr written, by rw [found]; rfl⟩

/-- Each diff names a key once, and none is empty. -/
theorem stateDiffs_of_mem_sequentialDiffs {d : ContractStateDiff} (member : d ∈ sequentialDiffs txs) :
    d.stateDiffs ≠ [] ∧ (d.stateDiffs.map StateRecord.key).Nodup := by
  obtain ⟨s, written, rfl⟩ := List.mem_map.mp member
  obtain ⟨k, some⟩ := mem_diffContracts.mp written
  simp only [stateDiffs_eq, List.map_map]
  refine ⟨List.ne_nil_of_mem (List.mem_map_of_mem (mem_diffKeys.mpr some)), ?_⟩
  simpa [Function.comp_def] using (nodup_diffKeys : (diffKeys txs s).Nodup)

end Diffs

end OrbsNetwork.VirtualMachine
