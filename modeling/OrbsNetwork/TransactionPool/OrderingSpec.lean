import OrbsNetwork.TransactionPool.ServiceSpec
import OrbsNetwork.StateStorage.ServiceSpec

namespace OrbsNetwork.TransactionPool

open StateStorage (BlockTracker)

/-- The pre-order of a virtual machine that judges each transaction on its own, by the height and
timestamp of the block. -/
def perTransactionPreOrder (verdict : SignedTransaction → Nat → UInt64 → TransactionStatus) :
    TransactionSetPreOrder :=
  fun txs height timestamp => txs.map fun tx => verdict tx height timestamp

theorem getBatchLoop_mem {maxNumOfTransactions sizeLimitInBytes sizeInBytes : UInt32} {txs : List SignedTransaction}
    {rest : List (Nat × SignedTransaction)} {tx : SignedTransaction}
    (member : tx ∈ getBatchLoop maxNumOfTransactions sizeLimitInBytes sizeInBytes txs rest) :
    tx ∈ txs ∨ tx ∈ rest.map Prod.snd := by
  induction rest generalizing sizeInBytes txs with
  | nil => exact Or.inl member
  | cons e rest ih =>
    obtain ⟨id, next⟩ := e
    simp only [getBatchLoop] at member
    split_ifs at member
    · exact Or.inl member
    · exact Or.inl member
    · rcases ih member with kept | later
      · rcases List.mem_append.mp kept with old | added
        · exact Or.inl old
        · exact Or.inr (by simp_all)
      · exact Or.inr (List.mem_cons_of_mem _ later)

/-- A batch only holds transactions of the pending list. -/
theorem PendingTxPool.mem_getBatch {p : PendingTxPool} {maxNumOfTransactions sizeLimitInBytes : UInt32}
    {tx : SignedTransaction} (member : tx ∈ p.getBatch maxNumOfTransactions sizeLimitInBytes) :
    tx ∈ p.transactionList.elements.map Prod.snd := by
  rcases getBatchLoop_mem member with none | listed
  · exact absurd none List.not_mem_nil
  · simpa using listed

/-- A proposed timestamp that is not zero is after the previous block's: the increment of
`CalcNewBlockTimestamp` wraps only to zero. -/
theorem calcNewBlockTimestamp_gt {prevBlockTimestamp now : UInt64}
    (nonzero : calcNewBlockTimestamp prevBlockTimestamp now ≠ 0) :
    prevBlockTimestamp < calcNewBlockTimestamp prevBlockTimestamp now := by
  unfold calcNewBlockTimestamp at *
  split_ifs at * with later
  · exact later
  · -- the increment does not wrap, since it is not zero
    rw [ne_eq, ← UInt64.toNat_inj, UInt64.toNat_add, UInt64.toNat_one, UInt64.toNat_zero] at nonzero
    rw [UInt64.lt_iff_toNat_lt, UInt64.toNat_add, UInt64.toNat_one]
    have bounded := prevBlockTimestamp.toNat_lt_size
    simp only [UInt64.size] at bounded
    rw [Nat.mod_eq_of_lt (by omega)]
    omega

section Hash

variable (calcTxHash : Transaction → Bytes)

/-- The transactions `filterInvalidTransactions` leaves for the pre-order are those valid for the
proposed timestamp and not committed, in their order. -/
theorem filterInvalidTransactions_snd (c : ValidationContext) (committedPool : CommittedTxPool)
    (proposedBlockTimestamp : UInt64) (txs : List SignedTransaction) :
    (filterInvalidTransactions calcTxHash c committedPool proposedBlockTimestamp txs).2 =
      txs.filter fun tx => (c.validateTransactionForOrdering tx proposedBlockTimestamp).isNone &&
        !committedPool.has (calcTxHash tx.transaction) := by
  induction txs with
  | nil => rfl
  | cons tx txs ih =>
    simp only [filterInvalidTransactions, List.filter_cons]
    cases valid : c.validateTransactionForOrdering tx proposedBlockTimestamp with
    | some err => simpa using ih
    | none =>
      cases committed : committedPool.has (calcTxHash tx.transaction) with
      | true => simpa using ih
      | false => simpa using ih

/-- With one status per transaction, the transactions `runPreOrderValidations` keeps are those
whose status is `PRE_ORDER_VALID`. -/
theorem splitByPreOrder_fst_map (verdict : SignedTransaction → TransactionStatus) (txs : List SignedTransaction) :
    (splitByPreOrder calcTxHash txs (txs.map verdict)).1 = txs.filter fun tx => verdict tx == .preOrderValid := by
  induction txs with
  | nil => rfl
  | cons tx txs ih =>
    simp only [List.map_cons, splitByPreOrder, List.filter_cons]
    by_cases valid : verdict tx = .preOrderValid
    · simp [valid, ih]
    · simp [valid, ih]

theorem checkTransactionsForOrdering_of_forall {committedPool : CommittedTxPool} {c : ValidationContext}
    {ts : UInt64} {txs : List SignedTransaction}
    (orderable : ∀ tx ∈ txs, committedPool.has (calcTxHash tx.transaction) = false ∧
      c.validateTransactionForOrdering tx ts = none) :
    checkTransactionsForOrdering calcTxHash committedPool c ts txs = .ok () := by
  induction txs with
  | nil => rfl
  | cons tx txs ih =>
    obtain ⟨fresh, valid⟩ := orderable tx List.mem_cons_self
    simp only [checkTransactionsForOrdering, fresh, valid]
    exact ih fun tx member => orderable tx (List.mem_cons_of_mem _ member)

theorem checkPreOrderResults_map {verdict : SignedTransaction → TransactionStatus} {txs : List SignedTransaction}
    (valid : ∀ tx ∈ txs, verdict tx = .preOrderValid) :
    checkPreOrderResults calcTxHash txs (txs.map verdict) = .ok () := by
  induction txs with
  | nil => rfl
  | cons tx txs ih =>
    simp only [List.map_cons, checkPreOrderResults, valid tx List.mem_cons_self]
    exact ih fun tx member => valid tx (List.mem_cons_of_mem _ member)

/-- What the pool's ordering validation asks of one transaction of a block at a height and
timestamp. -/
def Orderable (s : Service) (verdict : SignedTransaction → Nat → UInt64 → TransactionStatus) (height : Nat)
    (timestamp : UInt64) (tx : SignedTransaction) : Prop :=
  s.validationContext.validateTransactionForOrdering tx timestamp = none ∧
    s.committedPool.has (calcTxHash tx.transaction) = false ∧ verdict tx height timestamp = .preOrderValid

variable {calcTxHash}

theorem Service.validateTransactionsForOrdering_ok {s : Service}
    {verdict : SignedTransaction → Nat → UInt64 → TransactionStatus} {input : ValidateTransactionsForOrderingInput}
    (synced : s.blockTracker.waitForBlock (previousBlockHeight input.currentBlockHeight) = .ok ())
    (orderable : ∀ tx ∈ input.signedTransactions,
      Orderable calcTxHash s verdict input.currentBlockHeight input.currentBlockTimestamp tx) :
    s.validateTransactionsForOrdering calcTxHash (perTransactionPreOrder verdict) input = .ok () := by
  have checked : checkTransactionsForOrdering calcTxHash s.committedPool s.validationContext
      input.currentBlockTimestamp input.signedTransactions = .ok () :=
    checkTransactionsForOrdering_of_forall calcTxHash fun tx member =>
      ⟨(orderable tx member).2.1, (orderable tx member).1⟩
  have preOrdered := checkPreOrderResults_map calcTxHash fun tx member => (orderable tx member).2.2
  simp only [Service.validateTransactionsForOrdering, synced, checked, perTransactionPreOrder,
    List.length_map, if_pos]
  exact preOrdered

theorem previousBlockHeight_of_pos {height : Nat} (positive : 0 < height) (short : height < 2 ^ 64) :
    previousBlockHeight height = height - 1 := by
  unfold previousBlockHeight
  omega

/-- A block at height 0 waits for height `2^64 - 1`: unless the block tracker is within its grace
distance of that height, the validation fails at once. -/
theorem Service.validateTransactionsForOrdering_zero {s : Service} {preOrder : TransactionSetPreOrder}
    {input : ValidateTransactionsForOrderingInput} (zero : input.currentBlockHeight = 0)
    (behind : s.blockTracker.currentHeight + s.blockTracker.graceDistance.toNat < 2 ^ 64 - 1) :
    s.validateTransactionsForOrdering calcTxHash preOrder input =
      .error (.blockTracker "requested future block outside of grace range") := by
  have wrapped : previousBlockHeight input.currentBlockHeight = 2 ^ 64 - 1 := by
    rw [zero, previousBlockHeight]
    norm_num
  have refused : s.blockTracker.waitForBlock (previousBlockHeight input.currentBlockHeight) =
      .error "requested future block outside of grace range" := by
    rw [wrapped, BlockTracker.waitForBlock, if_neg (by omega), if_pos behind]
  rw [Service.validateTransactionsForOrdering, refused]

/-- What `GetTransactionsForOrdering` returns: the timestamp of `CalcNewBlockTimestamp`, and
transactions of the pending list that pass the ordering validation of the same pool, at a block
height the block tracker has reached the one before of. -/
theorem Service.getTransactionsForOrdering_ok {s s' : Service}
    {verdict : SignedTransaction → Nat → UInt64 → TransactionStatus} {now : UInt64}
    {input : GetTransactionsForOrderingInput} {output : GetTransactionsForOrderingOutput}
    (proposed : s.getTransactionsForOrdering calcTxHash (perTransactionPreOrder verdict) now input =
      some (s', .ok output)) :
    output.proposedBlockTimestamp = calcNewBlockTimestamp input.prevBlockTimestamp now ∧
      s.blockTracker.waitForBlock (previousBlockHeight input.currentBlockHeight) = .ok () ∧
      ∀ tx ∈ output.signedTransactions, tx ∈ s.pendingPool.transactionList.elements.map Prod.snd ∧
        Orderable calcTxHash s verdict input.currentBlockHeight output.proposedBlockTimestamp tx := by
  unfold Service.getTransactionsForOrdering at proposed
  split_ifs at proposed with first
  · -- the first block is proposed empty, and nothing is waited for below it
    cases proposed
    exact ⟨rfl, by rw [first]; exact BlockTracker.waitForBlock_of_le (Nat.zero_le _), fun _ none => nomatch none⟩
  · split at proposed
    · cases proposed
    · rename_i synced
      simp only [perTransactionPreOrder, List.length_map, ne_eq, not_true_eq_false, if_false] at proposed
      cases proposed
      refine ⟨rfl, synced, fun tx member => ?_⟩
      simp only [splitByPreOrder_fst_map, filterInvalidTransactions_snd, List.mem_filter, Bool.and_eq_true,
        Option.isNone_iff_eq_none, Bool.not_eq_true', beq_iff_eq] at member
      obtain ⟨⟨batched, valid, fresh⟩, preOrdered⟩ := member
      exact ⟨PendingTxPool.mem_getBatch batched, valid, fresh, preOrdered⟩

/-- What a pool asks of a transaction depends only on its configuration and committed pool. -/
theorem Orderable.of_same {s s' : Service} {verdict : SignedTransaction → Nat → UInt64 → TransactionStatus}
    {height : Nat} {timestamp : UInt64} {tx : SignedTransaction} (sameConfig : s'.config = s.config)
    (sameCommitted : s'.committedPool = s.committedPool) (orderable : Orderable calcTxHash s verdict height timestamp tx) :
    Orderable calcTxHash s' verdict height timestamp tx := by
  unfold Orderable Service.validationContext at *
  rw [sameConfig, sameCommitted]
  exact orderable

/-- A pool with the configuration, committed pool and block tracker of the proposer's accepts, as a
block's transactions, what the proposer's pool returned from `GetTransactionsForOrdering`. -/
theorem Service.validateTransactionsForOrdering_of_proposed {s s' validator : Service}
    {verdict : SignedTransaction → Nat → UInt64 → TransactionStatus} {now : UInt64}
    {input : GetTransactionsForOrderingInput} {output : GetTransactionsForOrderingOutput}
    (proposed : s.getTransactionsForOrdering calcTxHash (perTransactionPreOrder verdict) now input =
      some (s', .ok output))
    (sameConfig : validator.config = s.config) (sameCommitted : validator.committedPool = s.committedPool)
    (sameTracker : validator.blockTracker = s.blockTracker) :
    validator.validateTransactionsForOrdering calcTxHash (perTransactionPreOrder verdict)
      ⟨input.currentBlockHeight, output.proposedBlockTimestamp, output.signedTransactions⟩ = .ok () := by
  obtain ⟨_, synced, orderable⟩ := Service.getTransactionsForOrdering_ok proposed
  refine Service.validateTransactionsForOrdering_ok (by rw [sameTracker]; exact synced) fun tx member => ?_
  exact (orderable tx member).2.of_same sameConfig sameCommitted

end Hash

end OrbsNetwork.TransactionPool
