import OrbsNetwork.TransactionPool.Service
import Mathlib.Data.Option.Basic
import Mathlib.Data.List.Pairwise

namespace OrbsNetwork.TransactionPool

/-- A block as the transaction pool sees it: its timestamp and its transactions. -/
structure ProposedBlock where
  timestamp : UInt64
  signedTransactions : List SignedTransaction
  deriving DecidableEq, Repr

/-- The two `uint64` checks of a transaction's timestamp against a block's, read without wrapping:
when the expiration window and the grace add up below `2 ^ 64`, a transaction passes both only if
the block's timestamp is at least the window and its sum with the grace does not wrap. -/
theorem window_of_checks {E G ts x : UInt64} (window : E.toNat + G.toNat < 2 ^ 64) (notExpired : ¬x < ts - E)
    (notInFuture : ¬x > ts + G) :
    E.toNat ≤ ts.toNat ∧ ts.toNat + G.toNat < 2 ^ 64 ∧ ts.toNat - E.toNat ≤ x.toNat ∧ x.toNat ≤ ts.toNat + G.toNat := by
  rw [UInt64.lt_iff_toNat_lt, UInt64.toNat_sub] at notExpired
  rw [gt_iff_lt, UInt64.lt_iff_toNat_lt, UInt64.toNat_add] at notInFuture
  have := x.toNat_lt
  have := ts.toNat_lt
  have := E.toNat_lt
  have := G.toNat_lt
  omega

/-- A transaction inside a block's window, read in `Nat`: the block's timestamp is at least the
expiration window, its sum with the grace stays below `2 ^ 64`, and the transaction's timestamp
lies between the two bounds. -/
def InWindow (expiry grace : Nat) (blockTimestamp : UInt64) (tx : SignedTransaction) : Prop :=
  expiry ≤ blockTimestamp.toNat ∧ blockTimestamp.toNat + grace < 2 ^ 64 ∧
    blockTimestamp.toNat - expiry ≤ tx.transaction.timestamp.toNat ∧
    tx.transaction.timestamp.toNat ≤ blockTimestamp.toNat + grace

/-- A transaction valid for ordering in a block lies inside the block's window. -/
theorem ValidationContext.inWindow_of_valid {c : ValidationContext} {tx : SignedTransaction} {ts : UInt64}
    (window : c.expiryWindow.toNat + c.futureTimestampGrace.toNat < 2 ^ 64)
    (valid : c.validateTransactionForOrdering tx ts = none) :
    InWindow c.expiryWindow.toNat c.futureTimestampGrace.toNat ts tx := by
  simp only [ValidationContext.validateTransactionForOrdering, Option.orElse_eq_none] at valid
  obtain ⟨-, -, -, notExpired, notInFuture⟩ := valid
  simp only [ValidationContext.validateTransactionNotExpired, ite_eq_right_iff, reduceCtorEq, imp_false] at notExpired
  simp only [ValidationContext.validateTransactionNotInFuture, ite_eq_right_iff, reduceCtorEq, imp_false] at notInFuture
  exact window_of_checks window notExpired notInFuture

section Hash

variable {calcTxHash : Transaction → Bytes}

/-- The loop accepts a list only when every transaction is neither committed nor invalid. -/
theorem checkTransactionsForOrdering_ok {committedPool : CommittedTxPool} {c : ValidationContext} {ts : UInt64}
    {txs : List SignedTransaction} (accepted : checkTransactionsForOrdering calcTxHash committedPool c ts txs = .ok ()) :
    ∀ tx ∈ txs, committedPool.has (calcTxHash tx.transaction) = false ∧ c.validateTransactionForOrdering tx ts = none := by
  induction txs with
  | nil => exact fun _ member => nomatch member
  | cons tx txs ih =>
    simp only [checkTransactionsForOrdering] at accepted
    split_ifs at accepted with committed
    split at accepted
    · cases accepted
    · rename_i valid
      rintro x (_ | ⟨_, member⟩)
      · exact ⟨by simpa using committed, valid⟩
      · exact ih accepted x member

theorem Service.checkTransactionsForOrdering_of_validate {s : Service} {preOrder : TransactionSetPreOrder}
    {input : ValidateTransactionsForOrderingInput}
    (accepted : s.validateTransactionsForOrdering calcTxHash preOrder input = .ok ()) :
    checkTransactionsForOrdering calcTxHash s.committedPool s.validationContext input.currentBlockTimestamp
      input.signedTransactions = .ok () := by
  unfold Service.validateTransactionsForOrdering at accepted
  split at accepted
  · cases accepted
  · cases checked : checkTransactionsForOrdering calcTxHash s.committedPool s.validationContext
        input.currentBlockTimestamp input.signedTransactions with
    | error e => rw [checked] at accepted; cases accepted
    | ok u => rfl

end Hash

section Commit

variable {nodeAddress : Bytes} {blockHeight : Nat} {blockTime : UInt64}

@[simp] theorem CommittedTxPool.add_transactions (p : CommittedTxPool) (receipt : TransactionReceipt) (h : Bytes) :
    (p.add receipt blockHeight blockTime).transactions h =
      if h = receipt.txhash then some ⟨receipt, blockHeight, blockTime⟩ else p.transactions h := by
  simp [CommittedTxPool.add, Function.update_apply]

@[simp] theorem CommittedTxPool.add_grace (p : CommittedTxPool) (receipt : TransactionReceipt) :
    (p.add receipt blockHeight blockTime).transactionPoolFutureTimestampGraceTimeout =
      p.transactionPoolFutureTimestampGraceTimeout := rfl

@[simp] theorem commitReceipts_grace (committed : CommittedTxPool) (pending : PendingTxPool)
    (receipts : List TransactionReceipt) :
    (commitReceipts nodeAddress blockHeight blockTime committed pending receipts).1.transactionPoolFutureTimestampGraceTimeout =
      committed.transactionPoolFutureTimestampGraceTimeout := by
  induction receipts generalizing committed pending with
  | nil => rfl
  | cons receipt receipts ih => simp [commitReceipts, ih]

/-- What the committed pool holds after a block's receipts: what it held, and the receipts, each
with the block's time. -/
theorem commitReceipts_transactions (committed : CommittedTxPool) (pending : PendingTxPool)
    (receipts : List TransactionReceipt) (h : Bytes) :
    ((commitReceipts nodeAddress blockHeight blockTime committed pending receipts).1.transactions h).isSome =
        ((committed.transactions h).isSome || receipts.any fun r => r.txhash = h) ∧
      ∀ ct, (commitReceipts nodeAddress blockHeight blockTime committed pending receipts).1.transactions h = some ct →
        committed.transactions h = some ct ∨ (∃ r ∈ receipts, r.txhash = h) ∧ ct.blockTimestamp = blockTime := by
  induction receipts generalizing committed pending with
  | nil => simp [commitReceipts]
  | cons receipt receipts ih =>
    obtain ⟨present, origin⟩ := ih (committed.add receipt blockHeight blockTime) (pending.remove receipt.txhash).1
    simp only [commitReceipts]
    refine ⟨?_, fun ct found => ?_⟩
    · rw [present, CommittedTxPool.add_transactions]
      by_cases here : h = receipt.txhash
      · simp [here]
      · simp [here, Ne.symm here]
    · rcases origin ct found with old | fresh
      · rw [CommittedTxPool.add_transactions] at old
        by_cases here : h = receipt.txhash
        · rw [if_pos here] at old
          cases old
          exact Or.inr ⟨⟨receipt, List.mem_cons_self, here.symm⟩, rfl⟩
        · rw [if_neg here] at old
          exact Or.inl old
      · obtain ⟨⟨r, member, same⟩, time⟩ := fresh
        exact Or.inr ⟨⟨r, List.mem_cons_of_mem _ member, same⟩, time⟩

/-- The commit of the next block: the block's height and time become the last committed ones and
its receipts enter the committed pool. -/
theorem Service.commitTransactionReceipts_next {s : Service} {header : ResultsBlockHeader}
    {receipts : List TransactionReceipt} (next : header.blockHeight = s.lastCommittedBlockHeight + 1)
    (tracker : s.blockTracker.currentHeight = s.lastCommittedBlockHeight) :
    s.commitTransactionReceipts ⟨header, receipts, s.lastCommittedBlockHeight + 1⟩ =
      some ({ s with
          lastCommittedBlockHeight := header.blockHeight
          lastCommittedTimestamp := header.timestamp
          committedPool := (commitReceipts s.config.nodeAddress header.blockHeight header.timestamp s.committedPool
            s.pendingPool receipts).1
          pendingPool := (commitReceipts s.config.nodeAddress header.blockHeight header.timestamp s.committedPool
            s.pendingPool receipts).2.1
          blockTracker := { s.blockTracker with currentHeight := s.blockTracker.currentHeight + 1 } },
        ⟨header.blockHeight + 1, header.blockHeight⟩,
        (commitReceipts s.config.nodeAddress header.blockHeight header.timestamp s.committedPool s.pendingPool receipts).2.2) := by
  have increments : s.blockTracker.incrementTo header.blockHeight =
      some { s.blockTracker with currentHeight := s.blockTracker.currentHeight + 1 } := by
    rw [StateStorage.BlockTracker.incrementTo, if_neg (by omega)]
  simp only [Service.commitTransactionReceipts, ne_eq, not_true_eq_false, if_false, increments, Option.map_some]

end Commit

section Run

variable (calcTxHash : Transaction → Bytes) (transactionSetPreOrder : TransactionSetPreOrder)
  (config : TransactionPoolConfig)

/-- The input of `ValidateTransactionsForOrdering` for a block at the height after the last
committed one. -/
def Service.orderingInput (s : Service) (b : ProposedBlock) : ValidateTransactionsForOrderingInput :=
  ⟨s.lastCommittedBlockHeight + 1, b.timestamp, b.signedTransactions⟩

/-- The input of `CommitTransactionReceipts` for a block at the height after the last committed one,
with one receipt per transaction. -/
def Service.commitInput (s : Service) (b : ProposedBlock) : CommitTransactionReceiptsInput :=
  ⟨⟨s.lastCommittedBlockHeight + 1, b.timestamp⟩, b.signedTransactions.map fun tx => ⟨calcTxHash tx.transaction⟩,
    s.lastCommittedBlockHeight + 1⟩

/-- The runs of a pool made by `NewTransactionPool` in which each block is validated for ordering
against the state the blocks before it left and then committed, while the two cleaners tick at any
points. -/
inductive AcceptedRun : Service → List ProposedBlock → Prop
  | start : AcceptedRun (newTransactionPool config) []
  | block {s : Service} {done : List ProposedBlock} {result : Service × CommitTransactionReceiptsOutput × List TransactionReceipt}
      (b : ProposedBlock) : AcceptedRun s done →
      s.validateTransactionsForOrdering calcTxHash transactionSetPreOrder (s.orderingInput b) = .ok () →
      s.commitTransactionReceipts (s.commitInput calcTxHash b) = some result → AcceptedRun result.1 (done ++ [b])
  | clearCommitted {s : Service} {done : List ProposedBlock} : AcceptedRun s done → AcceptedRun s.clearCommittedPool done
  | clearPending {s : Service} {done : List ProposedBlock} :
      AcceptedRun s done → AcceptedRun (s.clearPendingPool calcTxHash) done

/-- No transaction hash is shared by two blocks. -/
def Apart (b b' : ProposedBlock) : Prop :=
  ∀ tx ∈ b.signedTransactions, ∀ tx' ∈ b'.signedTransactions, calcTxHash tx.transaction ≠ calcTxHash tx'.transaction

/-- What a run keeps of the blocks it committed: the heights, the last timestamp, each transaction
inside its block's window, each still in the committed pool unless a cleaner could drop it, each
entry of the committed pool from a committed block, and no hash in two blocks. -/
structure History (s : Service) (blocks : List ProposedBlock) : Prop where
  configured : s.config = config
  grace : s.committedPool.transactionPoolFutureTimestampGraceTimeout = config.transactionPoolFutureTimestampGraceTimeout
  height : s.lastCommittedBlockHeight = blocks.length
  tracker : s.blockTracker.currentHeight = blocks.length
  latest : ∀ b ∈ blocks, b.timestamp.toNat ≤ s.lastCommittedTimestamp.toNat
  last : blocks ≠ [] → ∃ b ∈ blocks, s.lastCommittedTimestamp = b.timestamp
  window : ∀ b ∈ blocks, ∀ tx ∈ b.signedTransactions, InWindow config.transactionExpirationWindow.toNat
    config.transactionPoolFutureTimestampGraceTimeout.toNat b.timestamp tx
  kept : ∀ b ∈ blocks, ∀ tx ∈ b.signedTransactions, s.committedPool.has (calcTxHash tx.transaction) ∨
    b.timestamp.toNat + config.transactionPoolFutureTimestampGraceTimeout.toNat <
      s.lastCommittedTimestamp.toNat - config.transactionExpirationWindow.toNat
  entries : ∀ h ct, s.committedPool.transactions h = some ct →
    ∃ b ∈ blocks, (∃ tx ∈ b.signedTransactions, calcTxHash tx.transaction = h) ∧ ct.blockTimestamp = b.timestamp
  apart : blocks.Pairwise (Apart calcTxHash)

theorem history_newTransactionPool : History calcTxHash config (newTransactionPool config) [] where
  configured := rfl
  grace := rfl
  height := rfl
  tracker := rfl
  latest _ member := nomatch member
  last nonempty := absurd rfl nonempty
  window _ member := nomatch member
  kept _ member := nomatch member
  entries _ _ found := nomatch found
  apart := List.Pairwise.nil

variable {calcTxHash transactionSetPreOrder config} {s : Service} {blocks : List ProposedBlock}

theorem apart_symm {b b' : ProposedBlock} (apart : Apart calcTxHash b b') : Apart calcTxHash b' b :=
  fun tx' inTx' tx inTx same => apart tx inTx tx' inTx' same.symm

/-- Two committed blocks that share a transaction hash are the same block. -/
theorem History.block_eq (history : History calcTxHash config s blocks) {b b' : ProposedBlock}
    (member : b ∈ blocks) {tx : SignedTransaction} (inTx : tx ∈ b.signedTransactions) (member' : b' ∈ blocks)
    {tx' : SignedTransaction} (inTx' : tx' ∈ b'.signedTransactions)
    (same : calcTxHash tx.transaction = calcTxHash tx'.transaction) : b = b' := by
  by_contra different
  have : Std.Symm (Apart calcTxHash) := ⟨fun _ _ apart => apart_symm apart⟩
  exact history.apart.forall member member' different tx inTx tx' inTx' same

/-- A tick of the committed pool's cleaner drops only entries whose block is older than the last
committed one by more than the window and the grace. -/
theorem History.clearCommitted (history : History calcTxHash config s blocks) :
    History calcTxHash config s.clearCommittedPool blocks := by
  refine { history with kept := fun b member tx inTx => ?_, entries := fun h ct found => ?_ }
  · rcases history.kept b member tx inTx with present | dropped
    · obtain ⟨ct, found⟩ := Option.isSome_iff_exists.mp present
      by_cases expired : s.committedPool.expired s.cleaningThreshold ct
      · -- the entry was committed with `b`, and the cleaner's threshold is past `b`'s window
        right
        obtain ⟨b', member', ⟨tx', inTx', same⟩, time⟩ := history.entries _ ct found
        obtain rfl := history.block_eq member inTx member' inTx' same.symm
        obtain ⟨low, noWrap, -, -⟩ := history.window b member tx inTx
        have before := history.latest b member
        have := s.lastCommittedTimestamp.toNat_lt
        have := config.transactionExpirationWindow.toNat_lt
        simp only [CommittedTxPool.expired, Service.cleaningThreshold, history.configured, history.grace, time,
          decide_eq_true_eq, UInt64.lt_iff_toNat_lt, UInt64.toNat_add, UInt64.toNat_sub] at expired
        change b.timestamp.toNat + config.transactionPoolFutureTimestampGraceTimeout.toNat <
          s.lastCommittedTimestamp.toNat - config.transactionExpirationWindow.toNat
        omega
      · left
        change ((s.committedPool.transactions _).filter _).isSome = true
        rw [found]
        simpa using expired
    · exact Or.inr dropped
  · exact history.entries h ct (Option.filter_eq_some_iff.mp found).1

theorem History.clearPending (history : History calcTxHash config s blocks) :
    History calcTxHash config (s.clearPendingPool calcTxHash) blocks :=
  { history with }

section Block

variable {b : ProposedBlock} {result : Service × CommitTransactionReceiptsOutput × List TransactionReceipt}
  (window : config.transactionExpirationWindow.toNat + config.transactionPoolFutureTimestampGraceTimeout.toNat < 2 ^ 64)
  (hashFixesTimestamp : ∀ t t', calcTxHash t = calcTxHash t' → t.timestamp = t'.timestamp)

include window in
/-- The transactions of a block accepted for ordering are new to the committed pool and inside the
block's window. -/
theorem History.accepted_transactions (history : History calcTxHash config s blocks)
    (accepted : s.validateTransactionsForOrdering calcTxHash transactionSetPreOrder (s.orderingInput b) = .ok ()) :
    ∀ tx ∈ b.signedTransactions, s.committedPool.has (calcTxHash tx.transaction) = false ∧
      InWindow config.transactionExpirationWindow.toNat config.transactionPoolFutureTimestampGraceTimeout.toNat
        b.timestamp tx := by
  intro tx member
  obtain ⟨fresh, valid⟩ := checkTransactionsForOrdering_ok (Service.checkTransactionsForOrdering_of_validate accepted) tx member
  rw [Service.validationContext, history.configured] at valid
  exact ⟨fresh, ValidationContext.inWindow_of_valid window valid⟩

include window hashFixesTimestamp in
/-- The heart of replay protection: a transaction accepted for a later block has a hash no earlier
block committed, as either the committed pool still holds it or the later block's window is past it. -/
theorem History.apart_of_accepted (history : History calcTxHash config s blocks)
    (later : ∀ b' ∈ blocks, b'.timestamp < b.timestamp)
    (accepted : s.validateTransactionsForOrdering calcTxHash transactionSetPreOrder (s.orderingInput b) = .ok ()) :
    ∀ b' ∈ blocks, Apart calcTxHash b' b := by
  intro b' member tx' inTx' tx inTx same
  obtain ⟨fresh, -, -, newLow, -⟩ := history.accepted_transactions window accepted tx inTx
  rcases history.kept b' member tx' inTx' with present | dropped
  · rw [same, fresh] at present
    cases present
  · obtain ⟨-, -, -, oldHigh⟩ := history.window b' member tx' inTx'
    obtain ⟨last, lastMember, lastTime⟩ := history.last (List.ne_nil_of_mem member)
    have before := UInt64.lt_iff_toNat_lt.mp (later last lastMember)
    have sameTime := congrArg UInt64.toNat (hashFixesTimestamp _ _ same)
    rw [lastTime] at dropped
    omega

include window hashFixesTimestamp in
/-- Validating a later block and committing it keeps the history. -/
theorem History.block (history : History calcTxHash config s blocks)
    (later : ∀ b' ∈ blocks, b'.timestamp < b.timestamp)
    (accepted : s.validateTransactionsForOrdering calcTxHash transactionSetPreOrder (s.orderingInput b) = .ok ())
    (committed : s.commitTransactionReceipts (s.commitInput calcTxHash b) = some result) :
    History calcTxHash config result.1 (blocks ++ [b]) := by
  have transactions := history.accepted_transactions window accepted
  have apart := history.apart_of_accepted window hashFixesTimestamp later accepted
  rw [Service.commitInput, Service.commitTransactionReceipts_next rfl (history.tracker.trans history.height.symm)]
    at committed
  obtain rfl := Option.some.inj committed
  let receipts : List TransactionReceipt := b.signedTransactions.map fun tx => ⟨calcTxHash tx.transaction⟩
  let committedPool := (commitReceipts s.config.nodeAddress (s.lastCommittedBlockHeight + 1) b.timestamp
    s.committedPool s.pendingPool receipts).1
  have present : ∀ h, (committedPool.transactions h).isSome =
      ((s.committedPool.transactions h).isSome || receipts.any fun r => r.txhash = h) :=
    fun h => (commitReceipts_transactions _ _ _ h).1
  have origin : ∀ h ct, committedPool.transactions h = some ct →
      s.committedPool.transactions h = some ct ∨ (∃ r ∈ receipts, r.txhash = h) ∧ ct.blockTimestamp = b.timestamp :=
    fun h => (commitReceipts_transactions _ _ _ h).2
  have lastBefore : blocks ≠ [] → s.lastCommittedTimestamp.toNat < b.timestamp.toNat := fun nonempty => by
    obtain ⟨last, lastMember, lastTime⟩ := history.last nonempty
    rw [lastTime]
    exact UInt64.lt_iff_toNat_lt.mp (later last lastMember)
  refine ⟨history.configured, (commitReceipts_grace _ _ _).trans history.grace, by simp [history.height],
    by simp [history.tracker], ?_, fun _ => ⟨b, List.mem_append_right _ (List.mem_singleton_self b), rfl⟩, ?_, ?_, ?_, ?_⟩
  · -- every committed block is no later than the new one
    intro b' member
    rcases List.mem_append.mp member with old | new
    · exact Nat.le_of_lt (UInt64.lt_iff_toNat_lt.mp (later b' old))
    · exact Nat.le_of_eq (congrArg _ (congrArg _ (List.mem_singleton.mp new)))
  · intro b' member tx inTx
    rcases List.mem_append.mp member with old | new
    · exact history.window b' old tx inTx
    · rw [List.mem_singleton.mp new] at inTx ⊢
      exact (transactions tx inTx).2
  · intro b' member tx inTx
    rcases List.mem_append.mp member with old | new
    · rcases history.kept b' old tx inTx with held | dropped
      · left
        change (committedPool.transactions _).isSome = true
        rw [CommittedTxPool.has] at held
        rw [present, held, Bool.true_or]
      · -- the new last timestamp is later, so the cleaner's bound only grows
        right
        have := lastBefore (List.ne_nil_of_mem old)
        change b'.timestamp.toNat + config.transactionPoolFutureTimestampGraceTimeout.toNat <
          b.timestamp.toNat - config.transactionExpirationWindow.toNat
        omega
    · left
      rw [List.mem_singleton.mp new] at inTx
      change (committedPool.transactions _).isSome = true
      rw [present, Bool.or_eq_true, List.any_eq_true]
      exact Or.inr ⟨⟨calcTxHash tx.transaction⟩, List.mem_map_of_mem inTx, by simp⟩
  · intro h ct found
    rcases origin h ct found with old | ⟨⟨r, member, same⟩, time⟩
    · obtain ⟨b', member', hashed, time⟩ := history.entries h ct old
      exact ⟨b', List.mem_append_left _ member', hashed, time⟩
    · obtain ⟨tx, inTx, rfl⟩ := List.mem_map.mp member
      exact ⟨b, List.mem_append_right _ (List.mem_singleton_self b), ⟨tx, inTx, same⟩, time⟩
  · exact List.pairwise_append.mpr ⟨history.apart, List.pairwise_singleton _ _,
      fun b' member b'' single => List.mem_singleton.mp single ▸ apart b' member⟩

include window hashFixesTimestamp in
/-- Every accepted run whose blocks have increasing timestamps keeps the history. -/
theorem AcceptedRun.history (run : AcceptedRun calcTxHash transactionSetPreOrder config s blocks)
    (increasing : blocks.Pairwise fun b b' => b.timestamp < b'.timestamp) : History calcTxHash config s blocks := by
  induction run with
  | start => exact history_newTransactionPool calcTxHash config
  | block b _ accepted committed ih =>
    rw [List.pairwise_append] at increasing
    exact (ih increasing.1).block window hashFixesTimestamp
      (fun b' member => increasing.2.2 b' member b (List.mem_singleton_self b)) accepted committed
  | clearCommitted _ ih => exact (ih increasing).clearCommitted
  | clearPending _ ih => exact (ih increasing).clearPending

end Block

/-- A configuration with a window and a grace of 5 nanoseconds. -/
def sampleConfig : TransactionPoolConfig :=
  ⟨42, [], 1000, 5, 5, 0, 5⟩

/-- A transaction valid for ordering in a block at timestamp 10 under `sampleConfig`. -/
def orderableTransaction : SignedTransaction :=
  ⟨⟨1, 42, 10, ⟨true, List.replicate 32 7, []⟩, "BenchmarkToken", "transfer", []⟩, [], [1, 2, 3]⟩

/-- A virtual machine that finds every transaction valid. -/
def allPreOrderValid : TransactionSetPreOrder :=
  fun txs _ _ => txs.map fun _ => .preOrderValid

/-- A hash made of as many bytes as the timestamp, so that equal hashes have equal timestamps. -/
def timestampLengthHash (t : Transaction) : Bytes :=
  List.replicate t.timestamp.toNat 0

theorem timestampLengthHash_fixes_timestamp (t t' : Transaction) (same : timestampLengthHash t = timestampLengthHash t') :
    t.timestamp = t'.timestamp := by
  have lengths := congrArg List.length same
  simp only [timestampLengthHash, List.length_replicate] at lengths
  exact UInt64.toNat_inj.mp lengths

/-- `ValidateTransactionsForOrdering` compares each transaction with the committed pool only, so
a block that holds one transaction twice is accepted and committed. -/
theorem duplicate_in_block_accepted :
    (∃ s, AcceptedRun timestampLengthHash allPreOrderValid sampleConfig s
      [⟨10, [orderableTransaction, orderableTransaction]⟩]) ∧
    ¬([orderableTransaction, orderableTransaction].map fun tx => timestampLengthHash tx.transaction).Nodup :=
  ⟨⟨_, AcceptedRun.block _ AcceptedRun.start rfl rfl⟩, by decide⟩

theorem no_hash_in_two_blocks (s : Service) (blocks : List ProposedBlock)
    (window : config.transactionExpirationWindow.toNat + config.transactionPoolFutureTimestampGraceTimeout.toNat < 2 ^ 64)
    (hashFixesTimestamp : ∀ t t', calcTxHash t = calcTxHash t' → t.timestamp = t'.timestamp)
    (run : AcceptedRun calcTxHash transactionSetPreOrder config s blocks)
    (increasing : blocks.Pairwise fun b b' => b.timestamp < b'.timestamp) :
    blocks.Pairwise fun b b' => ∀ tx ∈ b.signedTransactions, ∀ tx' ∈ b'.signedTransactions,
      calcTxHash tx.transaction ≠ calcTxHash tx'.transaction :=
  (run.history window hashFixesTimestamp increasing).apart

/-- Two blocks, the first committing a transaction and the second empty. -/
theorem no_hash_in_two_blocks_after_commit :
    let blocks : List ProposedBlock := [⟨10, [orderableTransaction]⟩, ⟨11, []⟩]
    sampleConfig.transactionExpirationWindow.toNat + sampleConfig.transactionPoolFutureTimestampGraceTimeout.toNat < 2 ^ 64 ∧
    (∀ t t', timestampLengthHash t = timestampLengthHash t' → t.timestamp = t'.timestamp) ∧
    (∃ s, AcceptedRun timestampLengthHash allPreOrderValid sampleConfig s blocks) ∧
    blocks.Pairwise (fun b b' => b.timestamp < b'.timestamp) ∧
    blocks.Pairwise fun b b' => ∀ tx ∈ b.signedTransactions, ∀ tx' ∈ b'.signedTransactions,
      timestampLengthHash tx.transaction ≠ timestampLengthHash tx'.transaction := by
  intro blocks
  have window : sampleConfig.transactionExpirationWindow.toNat +
      sampleConfig.transactionPoolFutureTimestampGraceTimeout.toNat < 2 ^ 64 := by decide
  have run : AcceptedRun timestampLengthHash allPreOrderValid sampleConfig _ blocks :=
    AcceptedRun.block _ (AcceptedRun.block _ AcceptedRun.start rfl rfl) rfl rfl
  have increasing : blocks.Pairwise (fun b b' => b.timestamp < b'.timestamp) := by decide
  exact ⟨window, timestampLengthHash_fixes_timestamp, ⟨_, run⟩, increasing,
    no_hash_in_two_blocks _ blocks window timestampLengthHash_fixes_timestamp run increasing⟩

end Run

end OrbsNetwork.TransactionPool
