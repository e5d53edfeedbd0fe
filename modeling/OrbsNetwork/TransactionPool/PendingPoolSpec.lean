import OrbsNetwork.TransactionPool.PendingPool
import OrbsNetwork.Library.KeyedList

namespace OrbsNetwork.TransactionPool

/-- The list element that holds a pending transaction. -/
def PendingTransaction.entry (pt : PendingTransaction) : Nat × SignedTransaction :=
  (pt.listElement, pt.transaction)

@[simp] theorem PendingTransaction.entry_fst (pt : PendingTransaction) : pt.entry.1 = pt.listElement := rfl

@[simp] theorem PendingTransaction.entry_snd (pt : PendingTransaction) : pt.entry.2 = pt.transaction := rfl

theorem sizeOfSignedTransaction_toNat {tx : SignedTransaction} (small : tx.raw.length < 2 ^ 32) :
    (sizeOfSignedTransaction tx).toNat = tx.raw.length :=
  UInt32.toNat_ofNat_of_lt' small

section Hash

variable (calcTxHash : Transaction → Bytes)

/-- What a pending pool holds: `entries`, oldest first. The list holds their elements newest
first, the map finds each by its hash, hashes and elements are distinct, and the counter is their
total size, within the limit. -/
structure PendingTxPool.Represents (p : PendingTxPool) (entries : List PendingTransaction) : Prop where
  list : p.transactionList.elements = (entries.map PendingTransaction.entry).reverse
  byHash : ∀ h, p.transactionsByHash h = entries.find? fun pt => calcTxHash pt.transaction.transaction = h
  hashes : (entries.map fun pt => calcTxHash pt.transaction.transaction).Nodup
  elements : (entries.map PendingTransaction.listElement).Nodup
  fresh : ∀ pt ∈ entries, pt.listElement < p.transactionList.nextId
  size : p.currentSizeInBytes.toNat = (entries.map fun pt => pt.transaction.raw.length).sum
  bounded : p.currentSizeInBytes ≤ p.pendingPoolSizeInBytes

variable {calcTxHash} {p : PendingTxPool} {entries : List PendingTransaction}

/-- The map holds exactly the entries, each under its own hash. -/
theorem PendingTxPool.Represents.byHash_eq_some (rep : p.Represents calcTxHash entries) (h : Bytes)
    (pt : PendingTransaction) :
    p.transactionsByHash h = some pt ↔ pt ∈ entries ∧ calcTxHash pt.transaction.transaction = h := by
  rw [rep.byHash]
  exact List.find?_key_eq_some_iff rep.hashes

theorem PendingTxPool.Represents.total_lt (rep : p.Represents calcTxHash entries) :
    (entries.map fun pt => pt.transaction.raw.length).sum < 2 ^ 32 :=
  rep.size ▸ p.currentSizeInBytes.toNat_lt

end Hash

section Add

variable {calcTxHash : Transaction → Bytes} {p : PendingTxPool} {entries : List PendingTransaction}
  {tx : SignedTransaction} {gw : Bytes}

@[simp] theorem PendingTxPool.add_pendingPoolSizeInBytes :
    (p.add calcTxHash tx gw).1.pendingPoolSizeInBytes = p.pendingPoolSizeInBytes := by
  dsimp only [PendingTxPool.add, LinkedList.pushFront]
  split_ifs <;> rfl

theorem PendingTxPool.add_of_congested (beyond : p.currentSizeInBytes + sizeOfSignedTransaction tx > p.pendingPoolSizeInBytes) :
    p.add calcTxHash tx gw = (p, .error (.ofStatus .rejectedCongestion)) := by
  dsimp only [PendingTxPool.add]
  rw [if_pos beyond]

theorem PendingTxPool.Represents.add_of_duplicate (rep : p.Represents calcTxHash entries)
    (room : ¬p.currentSizeInBytes + sizeOfSignedTransaction tx > p.pendingPoolSizeInBytes)
    (duplicate : ∃ pt ∈ entries, calcTxHash pt.transaction.transaction = calcTxHash tx.transaction) :
    p.add calcTxHash tx gw = (p, .error (.ofStatus .duplicateTransactionAlreadyPending)) := by
  obtain ⟨pt, member, same⟩ := duplicate
  have found : (p.transactionsByHash (calcTxHash tx.transaction)).isSome := by
    rw [(rep.byHash_eq_some _ pt).mpr ⟨member, same⟩]
    rfl
  dsimp only [PendingTxPool.add]
  rw [if_neg room, if_pos found]

/-- An accepted `add` puts the transaction behind the others: the pool then holds one more entry,
with the next list element, and reports the hash. -/
theorem PendingTxPool.Represents.add_of_fresh (rep : p.Represents calcTxHash entries)
    (fits : p.currentSizeInBytes.toNat + tx.raw.length < 2 ^ 32)
    (room : ¬p.currentSizeInBytes + sizeOfSignedTransaction tx > p.pendingPoolSizeInBytes)
    (fresh : ∀ pt ∈ entries, calcTxHash pt.transaction.transaction ≠ calcTxHash tx.transaction) :
    (p.add calcTxHash tx gw).2 = .ok (calcTxHash tx.transaction) ∧
      (p.add calcTxHash tx gw).1.Represents calcTxHash (entries ++ [⟨gw, tx, p.transactionList.nextId⟩]) := by
  have absent : p.transactionsByHash (calcTxHash tx.transaction) = none := by
    rw [rep.byHash, List.find?_eq_none]
    simpa using fresh
  have sum : (p.currentSizeInBytes + sizeOfSignedTransaction tx).toNat = p.currentSizeInBytes.toNat + tx.raw.length := by
    rw [UInt32.toNat_add, sizeOfSignedTransaction_toNat (by omega), Nat.mod_eq_of_lt fits]
  dsimp only [PendingTxPool.add, LinkedList.pushFront]
  rw [if_neg room, absent, Option.isSome_none, if_neg Bool.false_ne_true]
  refine ⟨rfl, ?_⟩
  dsimp only
  constructor
  · simp [rep.list, PendingTransaction.entry]
  · intro h
    dsimp only
    by_cases here : calcTxHash tx.transaction = h
    · subst here
      rw [Function.update_self, List.find?_append, List.find?_eq_none.mpr (by simpa using fresh)]
      simp
    · rw [Function.update_of_ne (Ne.symm here), rep.byHash, List.find?_append]
      simp [here]
  · rw [List.map_append, List.nodup_append]
    exact ⟨rep.hashes, List.nodup_singleton _, by simpa using fun pt member same => fresh pt member same⟩
  · rw [List.map_append, List.nodup_append]
    refine ⟨rep.elements, List.nodup_singleton _, ?_⟩
    simpa using fun pt member same => absurd (rep.fresh pt member) (by simp [same])
  · intro pt member
    rcases List.mem_append.mp member with old | new
    · exact Nat.lt_succ_of_lt (rep.fresh pt old)
    · rw [List.mem_singleton.mp new]
      exact Nat.lt_succ_self _
  · simp [sum, rep.size]
  · exact UInt32.not_lt.mp room

end Add

section Remove

variable {calcTxHash : Transaction → Bytes} {p : PendingTxPool} {entries : List PendingTransaction}

@[simp] theorem PendingTxPool.remove_pendingPoolSizeInBytes (txHash : Bytes) :
    (p.remove txHash).1.pendingPoolSizeInBytes = p.pendingPoolSizeInBytes := by
  unfold PendingTxPool.remove
  split <;> rfl

/-- Removing a hash removes the one entry that has it, if any, and reports its gateway. -/
theorem PendingTxPool.Represents.remove (rep : p.Represents calcTxHash entries) (txHash : Bytes) :
    (p.remove txHash).1.Represents calcTxHash (entries.filter fun pt => calcTxHash pt.transaction.transaction ≠ txHash) ∧
      (p.remove txHash).2 = (entries.find? fun pt => calcTxHash pt.transaction.transaction = txHash).map
        PendingTransaction.gatewayNodeAddress := by
  cases found : entries.find? fun pt => calcTxHash pt.transaction.transaction = txHash with
  | none =>
    have keep : entries.filter (fun pt => calcTxHash pt.transaction.transaction ≠ txHash) = entries :=
      List.filter_eq_self.mpr fun pt member => by simpa using List.find?_eq_none.mp found pt member
    rw [PendingTxPool.remove, rep.byHash, found, keep]
    exact ⟨rep, rfl⟩
  | some pt =>
    obtain ⟨hashed, before, after, rfl, -⟩ := List.find?_eq_some_iff_append.mp found
    obtain rfl : calcTxHash pt.transaction.transaction = txHash := by simpa using hashed
    rw [List.filter_key_ne_of_nodup rep.hashes]
    have removed : p.transactionsByHash (calcTxHash pt.transaction.transaction) = some pt := (rep.byHash _).trans found
    have sub : (before ++ after).Sublist (before ++ pt :: after) := (List.sublist_cons_self pt after).append_left before
    have others : ∀ x ∈ before ++ after, calcTxHash x.transaction.transaction ≠ calcTxHash pt.transaction.transaction := by
      rw [← List.filter_key_ne_of_nodup rep.hashes]
      intro x member
      simpa using (List.mem_filter.mp member).2
    have dropElement : (before ++ pt :: after).filter (fun x => x.entry.1 != pt.listElement) = before ++ after := by
      rw [← List.filter_key_ne_of_nodup rep.elements]
      exact List.filter_congr fun x _ => by simp only [PendingTransaction.entry_fst, ne_eq, decide_not]; rfl
    have total := rep.size
    have small : pt.transaction.raw.length < 2 ^ 32 := by
      have := rep.total_lt
      simp only [List.map_append, List.map_cons, List.sum_append, List.sum_cons] at this
      omega
    simp only [List.map_append, List.map_cons, List.sum_append, List.sum_cons] at total
    have within : sizeOfSignedTransaction pt.transaction ≤ p.currentSizeInBytes := by
      rw [UInt32.le_iff_toNat_le, sizeOfSignedTransaction_toNat small]
      omega
    have less : (p.currentSizeInBytes - sizeOfSignedTransaction pt.transaction).toNat =
        p.currentSizeInBytes.toNat - pt.transaction.raw.length := by
      rw [UInt32.toNat_sub_of_le _ _ within, sizeOfSignedTransaction_toNat small]
    simp only [PendingTxPool.remove, removed, Option.map_some]
    refine ⟨⟨?_, ?_, rep.hashes.sublist (sub.map _), rep.elements.sublist (sub.map _),
      fun x member => rep.fresh x (sub.subset member), ?_, ?_⟩, trivial⟩
    · simp only [LinkedList.remove, rep.list, List.filter_reverse, List.filter_map]
      rw [← dropElement]
      rfl
    · intro h
      dsimp only
      by_cases here : calcTxHash pt.transaction.transaction = h
      · subst here
        rw [Function.update_self, eq_comm, List.find?_eq_none]
        simpa using others
      · rw [Function.update_of_ne (Ne.symm here), rep.byHash, List.find?_append_cons_of_neg (by simpa using here)]
    · simp only [less, total, List.map_append, List.sum_append]
      omega
    · rw [UInt32.le_iff_toNat_le, less]
      exact Nat.le_trans (Nat.sub_le _ _) (UInt32.le_iff_toNat_le.mp rep.bounded)

end Remove

section Batch

/-- The batches `getBatch` is meant to return: at most `maxNumOfTransactions` transactions and,
with a positive limit, at most `sizeLimitInBytes` bytes. -/
def BatchWithin (maxNumOfTransactions sizeLimitInBytes : UInt32) (txs : List SignedTransaction) : Prop :=
  txs.length ≤ maxNumOfTransactions.toNat ∧
    (0 < sizeLimitInBytes.toNat → (txs.map fun tx => tx.raw.length).sum ≤ sizeLimitInBytes.toNat)

variable {maxNumOfTransactions sizeLimitInBytes : UInt32}

theorem BatchWithin.of_prefix {q r : List SignedTransaction} (pre : q <+: r)
    (within : BatchWithin maxNumOfTransactions sizeLimitInBytes r) : BatchWithin maxNumOfTransactions sizeLimitInBytes q := by
  obtain ⟨t, rfl⟩ := pre
  obtain ⟨count, size⟩ := within
  simp only [List.length_append, List.map_append, List.sum_append] at count size
  exact ⟨by omega, fun positive => by have := size positive; omega⟩

/-- The loop takes transactions while the next one keeps the batch within bounds, so it stops at
the longest such prefix; the sizes cannot wrap, all of them together being below `2 ^ 32`. -/
theorem getBatchLoop_isLongestPrefix (rest : List (Nat × SignedTransaction)) (sizeInBytes : UInt32)
    (txs : List SignedTransaction) (size : sizeInBytes.toNat = (txs.map fun tx => tx.raw.length).sum)
    (small : (txs.map fun tx => tx.raw.length).sum + (rest.map fun e => e.2.raw.length).sum < 2 ^ 32)
    (within : BatchWithin maxNumOfTransactions sizeLimitInBytes txs) :
    List.IsLongestPrefix (BatchWithin maxNumOfTransactions sizeLimitInBytes)
      (getBatchLoop maxNumOfTransactions sizeLimitInBytes sizeInBytes txs rest) (txs ++ rest.map Prod.snd) := by
  have closed : ∀ q r, q <+: r → BatchWithin maxNumOfTransactions sizeLimitInBytes r →
      BatchWithin maxNumOfTransactions sizeLimitInBytes q := fun _ _ pre within => within.of_prefix pre
  induction rest generalizing sizeInBytes txs with
  | nil => simpa [getBatchLoop] using List.isLongestPrefix_self within
  | cons e rest ih =>
    obtain ⟨id, tx⟩ := e
    simp only [List.map_cons, List.sum_cons] at small
    have next : ∀ a, txs ++ [a] <+: txs ++ (tx :: rest.map Prod.snd) → a = tx := fun a pre => by
      simpa using (List.prefix_append_right_inj txs).mp pre
    have txSize : (sizeOfSignedTransaction tx).toNat = tx.raw.length := sizeOfSignedTransaction_toNat (by omega)
    have count : (UInt32.ofNat txs.length).toNat = txs.length :=
      UInt32.toNat_ofNat_of_lt' (Nat.lt_of_le_of_lt within.1 maxNumOfTransactions.toNat_lt)
    simp only [getBatchLoop, List.map_cons]
    by_cases full : UInt32.ofNat txs.length ≥ maxNumOfTransactions
    · -- the batch already has the most transactions allowed
      rw [if_pos full]
      rw [ge_iff_le, UInt32.le_iff_toNat_le, count] at full
      refine List.isLongestPrefix_of_stop closed (List.prefix_append _ _) within fun a _ longer => ?_
      have := longer.1
      simp only [List.length_append, List.length_singleton] at this
      omega
    · rw [if_neg full]
      rw [ge_iff_le, UInt32.le_iff_toNat_le, count, not_le] at full
      have sum : (sizeInBytes + sizeOfSignedTransaction tx).toNat = sizeInBytes.toNat + tx.raw.length := by
        rw [UInt32.toNat_add, txSize, Nat.mod_eq_of_lt (by omega)]
      by_cases tooBig : sizeLimitInBytes > 0 ∧ sizeInBytes + sizeOfSignedTransaction tx > sizeLimitInBytes
      · -- the next transaction would take the batch over the size limit
        rw [if_pos tooBig]
        refine List.isLongestPrefix_of_stop closed (List.prefix_append _ _) within fun a pre longer => ?_
        obtain rfl := next a pre
        obtain ⟨positive, beyond⟩ := tooBig
        rw [gt_iff_lt, UInt32.lt_iff_toNat_lt, sum] at beyond
        have := longer.2 (UInt32.lt_iff_toNat_lt.mp positive)
        simp only [List.map_append, List.sum_append, List.map_singleton, List.sum_singleton] at this
        omega
      · rw [if_neg tooBig]
        have fitting : 0 < sizeLimitInBytes.toNat → sizeInBytes.toNat + tx.raw.length ≤ sizeLimitInBytes.toNat := by
          intro positive
          rw [← sum, ← UInt32.le_iff_toNat_le]
          exact UInt32.not_lt.mp fun beyond => tooBig ⟨UInt32.lt_iff_toNat_lt.mpr positive, beyond⟩
        have sizes : (txs ++ [tx]).map (fun tx => tx.raw.length) = txs.map (fun tx => tx.raw.length) ++ [tx.raw.length] :=
          by simp
        have within' : BatchWithin maxNumOfTransactions sizeLimitInBytes (txs ++ [tx]) := by
          refine ⟨by simp only [List.length_append, List.length_singleton]; omega, fun positive => ?_⟩
          have := fitting positive
          rw [sizes, List.sum_append, List.sum_singleton]
          omega
        have size' : (sizeInBytes + sizeOfSignedTransaction tx).toNat = ((txs ++ [tx]).map fun tx => tx.raw.length).sum := by
          rw [sum, size, sizes, List.sum_append, List.sum_singleton]
        have small' : ((txs ++ [tx]).map fun tx => tx.raw.length).sum + (rest.map fun e => e.2.raw.length).sum < 2 ^ 32 := by
          rw [sizes, List.sum_append, List.sum_singleton]
          omega
        simpa using ih (sizeInBytes + sizeOfSignedTransaction tx) (txs ++ [tx]) size' small' within'

variable {calcTxHash : Transaction → Bytes} {p : PendingTxPool} {entries : List PendingTransaction}

/-- `getBatch` returns the longest oldest-first run of the pool's transactions within the bounds. -/
theorem PendingTxPool.Represents.getBatch (rep : p.Represents calcTxHash entries) :
    List.IsLongestPrefix (BatchWithin maxNumOfTransactions sizeLimitInBytes)
      (p.getBatch maxNumOfTransactions sizeLimitInBytes) (entries.map PendingTransaction.transaction) := by
  have longest : List.IsLongestPrefix (BatchWithin maxNumOfTransactions sizeLimitInBytes)
      (getBatchLoop maxNumOfTransactions sizeLimitInBytes 0 [] (entries.map PendingTransaction.entry))
      ([] ++ (entries.map PendingTransaction.entry).map Prod.snd) :=
    getBatchLoop_isLongestPrefix (entries.map PendingTransaction.entry) 0 [] rfl
    (by simpa [Function.comp_def] using rep.total_lt) ⟨Nat.zero_le _, fun _ => Nat.zero_le _⟩
  rw [PendingTxPool.getBatch, rep.list, List.reverse_reverse]
  simpa [Function.comp_def] using longest

end Batch

section Clear

variable {calcTxHash : Transaction → Bytes} {p : PendingTxPool} {entries : List PendingTransaction}
  {timestamp : UInt64}

theorem PendingTxPool.clearFrom_none (fuel : Nat) (p : PendingTxPool) :
    p.clearFrom calcTxHash timestamp fuel none = p := by
  cases fuel <;> rfl

@[simp] theorem PendingTxPool.clearFrom_pendingPoolSizeInBytes (fuel : Nat) (p : PendingTxPool)
    (next : Option (Nat × SignedTransaction)) :
    (p.clearFrom calcTxHash timestamp fuel next).pendingPoolSizeInBytes = p.pendingPoolSizeInBytes := by
  induction fuel generalizing p next with
  | zero => rfl
  | succ fuel ih =>
    cases next with
    | none => rfl
    | some next =>
      simp only [PendingTxPool.clearFrom, ih]
      split_ifs <;> simp

@[simp] theorem PendingTxPool.clearTransactionsOlderThan_pendingPoolSizeInBytes :
    (p.clearTransactionsOlderThan calcTxHash timestamp).pendingPoolSizeInBytes = p.pendingPoolSizeInBytes :=
  PendingTxPool.clearFrom_pendingPoolSizeInBytes _ _ _

/-- The walk from the oldest entry not yet passed: it passes the entries that are not older than
`timestamp`, removes the first that is and stops there. -/
theorem PendingTxPool.Represents.clearFrom {done rest : List PendingTransaction} {x : PendingTransaction}
    {fuel : Nat} (rep : p.Represents calcTxHash (done ++ x :: rest)) (enough : rest.length < fuel) :
    (p.clearFrom calcTxHash timestamp fuel (some x.entry)).Represents calcTxHash
      (done ++ (x :: rest).eraseP fun pt => pt.transaction.transaction.timestamp < timestamp) := by
  -- one element of the list per unit of fuel
  induction fuel generalizing done x rest with
  | zero => exact absurd enough (Nat.not_lt_zero _)
  | succ fuel ih =>
    dsimp only [PendingTransaction.entry, PendingTxPool.clearFrom]
    by_cases expired : x.transaction.transaction.timestamp < timestamp
    · -- `x` is removed; `Remove` clears its links, so the walk stops
      rw [if_pos expired, List.eraseP_cons_of_pos (by simpa using expired)]
      have removal := (rep.remove (calcTxHash x.transaction.transaction)).1
      rw [List.filter_key_ne_of_nodup rep.hashes] at removal
      have notIn : x.listElement ∉ (done ++ rest).map PendingTransaction.listElement := by
        have nodup := rep.elements
        rw [List.map_append, List.map_cons, List.nodup_middle, List.nodup_cons] at nodup
        simpa using nodup.1
      have gone : (p.remove (calcTxHash x.transaction.transaction)).1.transactionList.prev x.listElement = none := by
        apply LinkedList.prevOf_of_not_mem
        rw [removal.list]
        simpa [List.map_reverse, Function.comp_def, and_comm] using notIn
      rw [gone, PendingTxPool.clearFrom_none]
      exact removal
    · -- `x` stays, and the walk goes on to the entry added after it
      rw [if_neg expired, List.eraseP_cons_of_neg (by simpa using expired)]
      have next : p.transactionList.prev x.listElement = (rest.map PendingTransaction.entry).head? := by
        have nodup : ((done.map PendingTransaction.entry ++ x.entry :: rest.map PendingTransaction.entry).map
            Prod.fst).Nodup := by
          simpa [Function.comp_def] using rep.elements
        rw [LinkedList.prev, rep.list, List.map_append, List.map_cons]
        exact LinkedList.prevOf_reverse nodup
      rw [next]
      cases rest with
      | nil =>
        rw [List.map_nil, List.head?_nil, PendingTxPool.clearFrom_none, List.eraseP_nil]
        exact rep
      | cons y rest =>
        have moved : p.Represents calcTxHash ((done ++ [x]) ++ y :: rest) := by
          rwa [List.append_assoc, List.singleton_append]
        have walked := ih moved (by simpa using enough)
        rwa [List.append_assoc, List.singleton_append] at walked

/-- `clearTransactionsOlderThan` removes the oldest transaction older than `timestamp`, and only
that one. -/
theorem PendingTxPool.Represents.clearTransactionsOlderThan (rep : p.Represents calcTxHash entries) :
    (p.clearTransactionsOlderThan calcTxHash timestamp).Represents calcTxHash
      (entries.eraseP fun pt => pt.transaction.transaction.timestamp < timestamp) := by
  have back : p.transactionList.back = (entries.map PendingTransaction.entry).head? := by
    rw [LinkedList.back, rep.list, List.getLast?_reverse]
  unfold PendingTxPool.clearTransactionsOlderThan
  cases entries with
  | nil =>
    rw [back, List.map_nil, List.head?_nil, PendingTxPool.clearFrom_none, List.eraseP_nil]
    exact rep
  | cons x rest =>
    have walk : (p.clearFrom calcTxHash timestamp (rest.length + 1) (some x.entry)).Represents calcTxHash
        ([] ++ (x :: rest).eraseP fun pt => pt.transaction.transaction.timestamp < timestamp) :=
      PendingTxPool.Represents.clearFrom (by rwa [List.nil_append]) (Nat.lt_succ_self _)
    rw [back, List.map_cons, List.head?_cons, rep.list, List.length_reverse, List.length_map, List.length_cons]
    rwa [List.nil_append] at walk

end Clear

/-- A call made on the pending pool. -/
inductive PendingPoolOp
  | add (transaction : SignedTransaction) (gatewayNodeAddress : Bytes)
  | remove (txHash : Bytes)
  | getBatch (maxNumOfTransactions sizeLimitInBytes : UInt32)
  | clearTransactionsOlderThan (timestamp : UInt64)

section Run

variable (calcTxHash : Transaction → Bytes)

/-- The pool after a call; `getBatch` only reads it. -/
def PendingTxPool.apply (p : PendingTxPool) : PendingPoolOp → PendingTxPool
  | .add transaction gatewayNodeAddress => (p.add calcTxHash transaction gatewayNodeAddress).1
  | .remove txHash => (p.remove txHash).1
  | .getBatch _ _ => p
  | .clearTransactionsOlderThan timestamp => p.clearTransactionsOlderThan calcTxHash timestamp

def PendingTxPool.run (p : PendingTxPool) (ops : List PendingPoolOp) : PendingTxPool :=
  ops.foldl (PendingTxPool.apply calcTxHash) p

/-- Every `add` of the calls finds the size counter plus its transaction's size within `uint32`. -/
def PendingTxPool.Fits : PendingTxPool → List PendingPoolOp → Prop
  | _, [] => True
  | p, op :: ops => (∀ tx gw, op = .add tx gw → p.currentSizeInBytes.toNat + tx.raw.length < 2 ^ 32) ∧
      (p.apply calcTxHash op).Fits ops

variable {calcTxHash} {p : PendingTxPool} {entries : List PendingTransaction}

/-- One call keeps the pool a representation of some entries, under the same limit. -/
theorem PendingTxPool.Represents.apply (rep : p.Represents calcTxHash entries) (op : PendingPoolOp)
    (fits : ∀ tx gw, op = .add tx gw → p.currentSizeInBytes.toNat + tx.raw.length < 2 ^ 32) :
    ∃ entries', (p.apply calcTxHash op).Represents calcTxHash entries' ∧
      (p.apply calcTxHash op).pendingPoolSizeInBytes = p.pendingPoolSizeInBytes := by
  cases op with
  | add tx gw =>
    simp only [PendingTxPool.apply, PendingTxPool.add_pendingPoolSizeInBytes, and_true]
    by_cases beyond : p.currentSizeInBytes + sizeOfSignedTransaction tx > p.pendingPoolSizeInBytes
    · rw [PendingTxPool.add_of_congested beyond]
      exact ⟨entries, rep⟩
    · by_cases duplicate : ∃ pt ∈ entries, calcTxHash pt.transaction.transaction = calcTxHash tx.transaction
      · rw [rep.add_of_duplicate beyond duplicate]
        exact ⟨entries, rep⟩
      · push Not at duplicate
        exact ⟨_, (rep.add_of_fresh (fits tx gw rfl) beyond duplicate).2⟩
  | remove txHash => exact ⟨_, (rep.remove txHash).1, PendingTxPool.remove_pendingPoolSizeInBytes txHash⟩
  | getBatch _ _ => exact ⟨entries, rep, rfl⟩
  | clearTransactionsOlderThan timestamp =>
    exact ⟨_, rep.clearTransactionsOlderThan, PendingTxPool.clearTransactionsOlderThan_pendingPoolSizeInBytes⟩

/-- Every run of calls keeps the pool a representation of some entries, under the same limit. -/
theorem PendingTxPool.Represents.run (rep : p.Represents calcTxHash entries) (ops : List PendingPoolOp)
    (fits : p.Fits calcTxHash ops) :
    ∃ entries', (p.run calcTxHash ops).Represents calcTxHash entries' ∧
      (p.run calcTxHash ops).pendingPoolSizeInBytes = p.pendingPoolSizeInBytes := by
  induction ops generalizing p entries with
  | nil => exact ⟨entries, rep, rfl⟩
  | cons op ops ih =>
    obtain ⟨here, later⟩ := fits
    obtain ⟨next, repNext, sameLimit⟩ := rep.apply op here
    obtain ⟨final, repFinal, sameFinal⟩ := ih repNext later
    exact ⟨final, repFinal, sameFinal.trans sameLimit⟩

end Run

end OrbsNetwork.TransactionPool
