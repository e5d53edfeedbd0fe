import OrbsNetwork.ConsensusContext.Block
import OrbsNetwork.TransactionPool.OrderingSpec
import Mathlib.Data.List.Infix

namespace OrbsNetwork.ConsensusContext

open TransactionPool

/-- A call of the trigger method of the triggers contract. -/
def IsTriggerCall (tx : SignedTransaction) : Prop :=
  tx.transaction.contractName = triggersContractName ∧ tx.transaction.methodName = methodTrigger

instance (tx : SignedTransaction) : Decidable (IsTriggerCall tx) :=
  inferInstanceAs (Decidable (_ ∧ _))

/-- A trigger as `createTriggerTransaction` builds it for the block time: nothing signed, no
arguments, the configured protocol version and virtual chain. -/
def ValidTrigger (cfg : ConsensusContextConfig) (blockTime : UInt64) (tx : SignedTransaction) : Prop :=
  IsTriggerCall tx ∧ tx.transaction.timestamp = blockTime ∧ tx.signature = [] ∧
    tx.transaction.protocolVersion = cfg.protocolVersion ∧ tx.transaction.virtualChainId = cfg.virtualChainId ∧
    tx.transaction.inputArgumentArray = [] ∧ tx.transaction.signer.raw = []

/-- The blocks the trigger compliance accepts. With triggers enabled the last transaction is a
valid trigger and the ones before the transaction before it call no trigger: the loop bound
`txCount-2` leaves the transaction just before the trigger unread. -/
def TriggerCompliant (cfg : ConsensusContextConfig) (block : TransactionsBlockContainer) : Prop :=
  if cfg.consensusContextTriggersEnabled then
    ∃ before trigger, block.signedTransactions = before ++ [trigger] ∧
      ValidTrigger cfg block.header.timestamp trigger ∧ ∀ tx ∈ before.dropLast, ¬IsTriggerCall tx
  else ∀ tx ∈ block.signedTransactions, ¬IsTriggerCall tx

@[simp] theorem isTxTrigger_iff (tx : SignedTransaction) :
    validateTransactionsBlockIsTxTrigger tx = true ↔ IsTriggerCall tx := by
  simp [validateTransactionsBlockIsTxTrigger, IsTriggerCall]

@[simp] theorem txTriggerIsValid_iff (tx : SignedTransaction) (cfg : ConsensusContextConfig) :
    validateTransactionsBlockTxTriggerIsValid tx cfg = true ↔
      tx.signature = [] ∧ tx.transaction.protocolVersion = cfg.protocolVersion ∧
        tx.transaction.virtualChainId = cfg.virtualChainId ∧ tx.transaction.inputArgumentArray = [] ∧
        tx.transaction.signer.raw = [] := by
  dsimp only [validateTransactionsBlockTxTriggerIsValid]
  split_ifs with signed invalid
  · -- a signed transaction is no trigger
    simp only [false_iff, not_and]
    intro unsigned
    simp [unsigned] at signed
  · simp only [false_iff]
    rintro ⟨_, version, chain, arguments, signer⟩
    simp [version, chain, arguments, signer] at invalid
  · simp only [ne_eq, List.length_eq_zero_iff, not_not, not_or] at signed invalid
    simp [signed, invalid]

/-- The prefix the compliance loop scans is the list before the trigger without its last
transaction. -/
theorem take_length_sub_two {α : Type} (before : List α) (last : α) :
    (before ++ [last]).take ((before ++ [last]).length - 2) = before.dropLast := by
  rw [List.dropLast_eq_take, List.length_append, List.length_singleton,
    show before.length + 1 - 2 = before.length - 1 by omega]
  exact List.take_append_of_le_length (by omega)

/-- With triggers enabled, the checks of the last transaction and of the scanned prefix. -/
theorem triggerCompliance_enabled_iff {cfg : ConsensusContextConfig} {block : TransactionsBlockContainer}
    {before : List SignedTransaction} {last : SignedTransaction} (split : block.signedTransactions = before ++ [last])
    (enabled : cfg.consensusContextTriggersEnabled = true) :
    validateTransactionsBlockTriggerCompliance cfg block = none ↔
      ValidTrigger cfg block.header.timestamp last ∧ ∀ tx ∈ before.dropLast, ¬IsTriggerCall tx := by
  unfold validateTransactionsBlockTriggerCompliance
  simp only [split, List.getLast?_concat, enabled, if_true, take_length_sub_two]
  split_ifs with notTrigger badTime invalid earlier
  · -- the last transaction is no trigger call
    simp only [Bool.not_eq_true'] at notTrigger
    simp [ValidTrigger, ← isTxTrigger_iff, notTrigger]
  · -- a trigger at another time than the block's
    simp [validateTransactionsBlockTxTriggerIsValidTime] at badTime
    simp [ValidTrigger, badTime]
  · -- a signed trigger, or one with arguments or of another chain
    simp only [Bool.not_eq_true', Bool.eq_false_iff, ne_eq, txTriggerIsValid_iff] at invalid
    simp only [ValidTrigger, false_iff, not_and]
    rintro ⟨_, _, signature, version, chain, arguments, signer⟩
    exact absurd ⟨signature, version, chain, arguments, signer⟩ invalid
  · -- a trigger call among the scanned transactions
    obtain ⟨tx, member, trigger⟩ := List.any_eq_true.mp earlier
    simp only [false_iff, not_and]
    exact fun _ none => none tx member ((isTxTrigger_iff tx).mp trigger)
  · simp only [Bool.not_eq_true', Bool.not_eq_false, List.any_eq_true, not_exists, not_and,
      validateTransactionsBlockTxTriggerIsValidTime, beq_iff_eq, txTriggerIsValid_iff, isTxTrigger_iff] at *
    exact iff_of_true trivial ⟨⟨notTrigger, badTime, invalid⟩, earlier⟩

/-- `validateTransactionsBlockTriggerCompliance` accepts exactly the trigger-compliant blocks. -/
theorem triggerCompliance_iff (cfg : ConsensusContextConfig) (block : TransactionsBlockContainer) :
    validateTransactionsBlockTriggerCompliance cfg block = none ↔ TriggerCompliant cfg block := by
  cases enabled : cfg.consensusContextTriggersEnabled
  · -- triggers disabled: no transaction calls the trigger
    simp [validateTransactionsBlockTriggerCompliance, TriggerCompliant, enabled]
  · -- triggers enabled: the block is empty, or some list before its last transaction
    rcases List.eq_nil_or_concat' block.signedTransactions with empty | ⟨before, last, split⟩
    · simp [validateTransactionsBlockTriggerCompliance, TriggerCompliant, enabled, empty]
    · rw [triggerCompliance_enabled_iff split enabled]
      simp only [TriggerCompliant, enabled, if_true, split, List.append_singleton_inj]
      constructor
      · exact fun ⟨valid, earlier⟩ => ⟨before, last, ⟨rfl, rfl⟩, valid, earlier⟩
      · rintro ⟨_, _, ⟨rfl, rfl⟩, valid, earlier⟩
        exact ⟨valid, earlier⟩

section Digest

variable (calcSha256 : Bytes → Bytes) (calcTxHash : Transaction → Bytes)

/-- The header checks of `ValidateTransactionsBlock` pass exactly when the header carries the
configured version and chain, the expected height, previous hash and proposer (or none), a valid
timestamp, and the hashes of the block's transactions and metadata. -/
theorem txValidators_eq_none_iff {cfg : ConsensusContextConfig} {now : UInt64} {input : ValidateTransactionsBlockInput} :
    (txValidators calcSha256 calcTxHash cfg now input).findSome? id = none ↔
      input.transactionsBlock.header.protocolVersion = cfg.protocolVersion ∧
      input.transactionsBlock.header.virtualChainId = cfg.virtualChainId ∧
      input.transactionsBlock.header.blockHeight = input.currentBlockHeight ∧
      input.transactionsBlock.header.prevBlockHashPtr = input.prevBlockHash ∧
      isValidBlockTimestamp input.transactionsBlock.header.timestamp input.prevBlockTimestamp now
        cfg.consensusContextSystemTimestampAllowedJitter = none ∧
      (input.transactionsBlock.header.blockProposerAddress = [] ∨
        input.transactionsBlock.header.blockProposerAddress = input.blockProposerAddress) ∧
      input.transactionsBlock.header.transactionsMerkleRootHash =
        Merkle.calculateOrderedTreeRoot calcSha256 (input.transactionsBlock.signedTransactions.map fun tx => calcTxHash tx.transaction) ∧
      input.transactionsBlock.header.metadataHash =
        calcTransactionMetaDataHash calcSha256 input.transactionsBlock.metadata := by
  dsimp only [txValidators]
  simp only [List.findSome?_eq_none_iff, List.forall_mem_cons, id, calcTransactionsMerkleRoot,
    List.not_mem_nil, IsEmpty.forall_iff, implies_true, and_true, ite_eq_right_iff,
    reduceCtorEq, imp_false, not_not, Option.map_eq_none_iff, not_and_or, gt_iff_lt, List.length_pos_iff, ne_eq]

/-- A timestamp after the previous one and within the jitter of the clock is valid, when neither
jitter limit wraps. -/
theorem isValidBlockTimestamp_eq_none {current prev now jitter : UInt64} (after : prev < current)
    (notAbove : current.toNat ≤ now.toNat + jitter.toNat) (notBelow : now.toNat ≤ current.toNat + jitter.toNat)
    (noWrap : jitter.toNat ≤ now.toNat ∧ now.toNat + jitter.toNat < 2 ^ 64) :
    isValidBlockTimestamp current prev now jitter = none := by
  have upper : (now + jitter).toNat = now.toNat + jitter.toNat := by
    rw [UInt64.toNat_add]
    exact Nat.mod_eq_of_lt noWrap.2
  have lower : (now - jitter).toNat = now.toNat - jitter.toNat :=
    UInt64.toNat_sub_of_le _ _ (UInt64.le_iff_toNat_le.mpr noWrap.1)
  have notStale : ¬prev ≥ current := UInt64.not_le.mpr after
  have notAboveLimit : ¬current > now + jitter := by
    rw [gt_iff_lt, UInt64.lt_iff_toNat_lt, upper]
    omega
  have notBelowLimit : ¬current < now - jitter := by
    rw [UInt64.lt_iff_toNat_lt, lower]
    omega
  simp only [isValidBlockTimestamp, if_neg notStale, if_neg notAboveLimit, if_neg notBelowLimit]

/-- A block `createTransactionsBlock` returns: the header it fills in, over the batch the pool
proposed and the trigger. -/
theorem createTransactionsBlock_ok {cfg : ConsensusContextConfig} {transactionPool transactionPool' : TransactionPool.Service}
    {transactionSetPreOrder : TransactionSetPreOrder} {now : UInt64} {input : RequestNewTransactionsBlockInput}
    {block : TransactionsBlockContainer}
    (created : createTransactionsBlock calcSha256 calcTxHash cfg transactionPool transactionSetPreOrder now input =
      some (transactionPool', .ok block)) :
    ∃ proposed : GetTransactionsForOrderingOutput,
      transactionPool.getTransactionsForOrdering calcTxHash transactionSetPreOrder now
          ⟨input.currentBlockHeight, input.prevBlockTimestamp, cfg.consensusContextMaximumTransactionsInBlock, 0⟩ =
        some (transactionPool', .ok proposed) ∧
      proposed.proposedBlockTimestamp ≠ 0 ∧
      block.header.protocolVersion = cfg.protocolVersion ∧ block.header.virtualChainId = cfg.virtualChainId ∧
      block.header.blockHeight = input.currentBlockHeight ∧ block.header.prevBlockHashPtr = input.prevBlockHash ∧
      block.header.timestamp = proposed.proposedBlockTimestamp ∧
      block.header.blockProposerAddress = input.blockProposerAddress ∧
      block.header.transactionsMerkleRootHash = Merkle.calculateOrderedTreeRoot calcSha256
        (block.signedTransactions.map fun tx => calcTxHash tx.transaction) ∧
      block.header.metadataHash = calcTransactionMetaDataHash calcSha256 block.metadata ∧
      block.signedTransactions =
        updateTransactions cfg proposed.signedTransactions proposed.proposedBlockTimestamp := by
  unfold createTransactionsBlock at created
  obtain ⟨⟨pool, fetched⟩, answered, result⟩ := Option.map_eq_some_iff.mp created
  simp only [Prod.mk.injEq] at result
  obtain ⟨rfl, built⟩ := result
  cases fetched with
  | error err => cases built
  | ok proposed =>
    simp only [calcTransactionsMerkleRoot] at built
    split_ifs at built with zero
    cases built
    exact ⟨proposed, answered, zero, rfl, rfl, rfl, rfl, rfl, rfl, rfl, rfl, rfl⟩

/-- The transactions a proposer puts in its block, the trigger included, comply when none of the
pool's calls the trigger. -/
theorem triggerCompliant_updateTransactions {cfg : ConsensusContextConfig} {block : TransactionsBlockContainer}
    {txs : List SignedTransaction} (noTriggerCall : ∀ tx ∈ txs, ¬IsTriggerCall tx)
    (appended : block.signedTransactions = updateTransactions cfg txs block.header.timestamp) :
    TriggerCompliant cfg block := by
  unfold TriggerCompliant
  unfold updateTransactions at appended
  cases enabled : cfg.consensusContextTriggersEnabled
  · simpa [enabled, appended] using noTriggerCall
  · simp only [enabled, if_true] at appended ⊢
    refine ⟨txs, _, appended, ?_, fun tx member => noTriggerCall tx (List.mem_of_mem_dropLast member)⟩
    simp [ValidTrigger, IsTriggerCall, createTriggerTransaction]

/-- The pool is asked about the proposer's transactions, without the trigger. -/
theorem validateTxTransactionOrdering_updateTransactions {cfg : ConsensusContextConfig}
    {validateForOrdering : ValidateTransactionsForOrderingInput → Except OrderingError Unit}
    {block : TransactionsBlockContainer} {txs : List SignedTransaction} {blockTime : UInt64}
    (appended : block.signedTransactions = updateTransactions cfg txs blockTime)
    (accepted : validateForOrdering ⟨block.header.blockHeight, block.header.timestamp, txs⟩ = .ok ()) :
    validateTxTransactionOrdering cfg validateForOrdering block = none := by
  unfold validateTxTransactionOrdering
  unfold updateTransactions at appended
  cases enabled : cfg.consensusContextTriggersEnabled
  · simp [enabled, appended, accepted]
  · simp [enabled, appended, accepted]

/-- Whatever the pool answers, a block `ValidateTransactionsBlock` accepts is trigger-compliant. -/
theorem triggerCompliant_of_validateTransactionsBlock {cfg : ConsensusContextConfig}
    {transactionPool : TransactionPool.Service} {transactionSetPreOrder : TransactionSetPreOrder} {now : UInt64}
    {input : ValidateTransactionsBlockInput}
    (accepted : validateTransactionsBlock calcSha256 calcTxHash cfg transactionPool transactionSetPreOrder now input =
      .ok ()) :
    TriggerCompliant cfg input.transactionsBlock := by
  unfold validateTransactionsBlock at accepted
  split at accepted
  · cases accepted
  · split at accepted
    · cases accepted
    · rename_i compliant
      exact (triggerCompliance_iff cfg input.transactionsBlock).mp compliant

/-- An honest proposer's block is accepted by a validator whose pool has the proposer's
configuration, committed pool and block tracker, and whose virtual machine judges each transaction
as the proposer's does, on a clock within the allowed jitter of the block's timestamp: when no
pending transaction calls the trigger, and neither jitter limit of the validator wraps. -/
theorem honest_block_accepted {cfg : ConsensusContextConfig}
    {proposerPool proposerPool' validatorPool : TransactionPool.Service}
    {verdict : SignedTransaction → Nat → UInt64 → TransactionStatus} {now validatorNow : UInt64}
    {input : RequestNewTransactionsBlockInput} {block : TransactionsBlockContainer}
    (sameConfig : validatorPool.config = proposerPool.config)
    (sameCommitted : validatorPool.committedPool = proposerPool.committedPool)
    (sameTracker : validatorPool.blockTracker = proposerPool.blockTracker)
    (noTriggerCall : ∀ tx ∈ proposerPool.pendingPool.transactionList.elements.map Prod.snd, ¬IsTriggerCall tx)
    (created : createTransactionsBlock calcSha256 calcTxHash cfg proposerPool (perTransactionPreOrder verdict) now
      input = some (proposerPool', .ok block))
    (notAbove : block.header.timestamp.toNat ≤
      validatorNow.toNat + cfg.consensusContextSystemTimestampAllowedJitter.toNat)
    (notBelow : validatorNow.toNat ≤
      block.header.timestamp.toNat + cfg.consensusContextSystemTimestampAllowedJitter.toNat)
    (noWrap : cfg.consensusContextSystemTimestampAllowedJitter.toNat ≤ validatorNow.toNat ∧
      validatorNow.toNat + cfg.consensusContextSystemTimestampAllowedJitter.toNat < 2 ^ 64) :
    validateTransactionsBlock calcSha256 calcTxHash cfg validatorPool (perTransactionPreOrder verdict) validatorNow
      ⟨input.currentBlockHeight, block, input.prevBlockHash, input.prevBlockTimestamp, input.blockProposerAddress⟩ =
      .ok () := by
  obtain ⟨proposed, fetched, nonzero, version, chain, height, prevHash, time, proposer, root, metadata, appended⟩ :=
    createTransactionsBlock_ok calcSha256 calcTxHash created
  obtain ⟨stamped, _, orderable⟩ := Service.getTransactionsForOrdering_ok fetched
  have after : input.prevBlockTimestamp < block.header.timestamp := by
    rw [time, stamped]
    exact calcNewBlockTimestamp_gt (stamped ▸ nonzero)
  have headerChecked : (txValidators calcSha256 calcTxHash cfg validatorNow
      ⟨input.currentBlockHeight, block, input.prevBlockHash, input.prevBlockTimestamp,
        input.blockProposerAddress⟩).findSome? id = none := (txValidators_eq_none_iff calcSha256 calcTxHash).mpr
    ⟨version, chain, height, prevHash, isValidBlockTimestamp_eq_none after notAbove notBelow noWrap,
      Or.inr proposer, root, metadata⟩
  have compliant := (triggerCompliance_iff cfg block).mpr
    (triggerCompliant_updateTransactions (fun tx member => noTriggerCall tx (orderable tx member).1)
      (by rw [appended, time]))
  -- the ordering, asked of the validator's pool about the proposer's batch
  have accepted := Service.validateTransactionsForOrdering_of_proposed fetched sameConfig sameCommitted sameTracker
  have ordered := validateTxTransactionOrdering_updateTransactions appended (by rw [height, time]; exact accepted)
  simp only [validateTransactionsBlock, headerChecked, compliant, ordered]

end Digest

/-- A consensus configuration without triggers: version 1 on chain 42, a jitter of 5. -/
def triggersDisabledConfig : ConsensusContextConfig :=
  ⟨1, 42, 10, 5, false⟩

/-- The same configuration with triggers. -/
def triggersEnabledConfig : ConsensusContextConfig :=
  ⟨1, 42, 10, 5, true⟩

/-- A pool configuration for chain 42 with windows of 100. -/
def syncedPoolConfig : TransactionPoolConfig :=
  ⟨42, [], 1000, 100, 100, 100, 5⟩

/-- The pool of a node that has committed block 1, empty, at timestamp 1000. -/
def poolAfterFirstBlock : TransactionPool.Service :=
  { newTransactionPool syncedPoolConfig with
    blockTracker := ⟨5, 1⟩
    lastCommittedBlockHeight := 1
    lastCommittedTimestamp := 1000 }

/-- A hash of a transaction by its timestamp. -/
def timestampByteHash (t : Transaction) : Bytes :=
  [t.timestamp.toUInt8]

/-- A virtual machine that finds every transaction valid. -/
def acceptAll : TransactionSetPreOrder :=
  perTransactionPreOrder fun _ _ _ => .preOrderValid

/-- A user's signed transfer. -/
def transferCall : SignedTransaction :=
  ⟨⟨1, 42, 1000, ⟨true, List.replicate 32 7, []⟩, "BenchmarkToken", "transfer", []⟩, [1], [1, 2, 3]⟩

def poolWithTransfer : TransactionPool.Service :=
  (poolAfterFirstBlock.addNewTransaction timestampByteHash acceptAll 1000 transferCall).1

/-- The block proposed at height 2 and clock 1001 from the pool holding the transfer. -/
def transferBlock : TransactionsBlockContainer :=
  ⟨⟨1, 42, 2, [], 1001, [232], [], 1, []⟩, [], [transferCall]⟩

theorem honest_block_accepted_transfer :
    poolAfterFirstBlock.config = poolWithTransfer.config ∧
      poolAfterFirstBlock.committedPool = poolWithTransfer.committedPool ∧
      poolAfterFirstBlock.blockTracker = poolWithTransfer.blockTracker ∧
      (∀ tx ∈ poolWithTransfer.pendingPool.transactionList.elements.map Prod.snd, ¬IsTriggerCall tx) ∧
      createTransactionsBlock id timestampByteHash triggersDisabledConfig poolWithTransfer acceptAll 1001
        ⟨2, [], 1000, []⟩ = some (poolWithTransfer, .ok transferBlock) ∧
      validateTransactionsBlock id timestampByteHash triggersDisabledConfig poolAfterFirstBlock acceptAll 1001
        ⟨2, transferBlock, [], 1000, []⟩ = .ok () :=
  have sameConfig : poolAfterFirstBlock.config = poolWithTransfer.config := rfl
  have sameCommitted : poolAfterFirstBlock.committedPool = poolWithTransfer.committedPool := rfl
  have sameTracker : poolAfterFirstBlock.blockTracker = poolWithTransfer.blockTracker := rfl
  have noTriggerCall : ∀ tx ∈ poolWithTransfer.pendingPool.transactionList.elements.map Prod.snd,
      ¬IsTriggerCall tx := by
    decide
  have created : createTransactionsBlock id timestampByteHash triggersDisabledConfig poolWithTransfer acceptAll 1001
      ⟨2, [], 1000, []⟩ = some (poolWithTransfer, .ok transferBlock) := rfl
  have accepted : validateTransactionsBlock id timestampByteHash triggersDisabledConfig poolAfterFirstBlock acceptAll
      1001 ⟨2, transferBlock, [], 1000, []⟩ = .ok () :=
    honest_block_accepted id timestampByteHash sameConfig sameCommitted sameTracker noTriggerCall created
      (by decide) (by decide) (by decide)
  ⟨sameConfig, sameCommitted, sameTracker, noTriggerCall, created, accepted⟩

/-- A user's signed call of the trigger method, which every check of the pool lets through. -/
def userTriggerCall : SignedTransaction :=
  ⟨⟨1, 42, 1000, ⟨true, List.replicate 32 7, []⟩, "_Triggers", "trigger", []⟩, [1], [1, 2, 3]⟩

def poolWithUserTrigger : TransactionPool.Service :=
  (poolAfterFirstBlock.addNewTransaction timestampByteHash acceptAll 1000 userTriggerCall).1

def userTriggerBlock : TransactionsBlockContainer :=
  ⟨⟨1, 42, 2, [], 1001, [232], [], 1, []⟩, [], [userTriggerCall]⟩

/-- Without triggers, the block an honest proposer makes after the pool took a user's call of the
trigger is refused by a validator that committed the same block 1, on the proposer's clock. -/
theorem user_trigger_call_rejected :
    (newTransactionPool syncedPoolConfig).commitTransactionReceipts ⟨⟨1, 1000⟩, [], 1⟩ =
        some (poolAfterFirstBlock, ⟨2, 1⟩, []) ∧
      (poolAfterFirstBlock.addNewTransaction timestampByteHash acceptAll 1000 userTriggerCall).2 =
        (⟨none, .pending, 1, 1000⟩, none) ∧
      createTransactionsBlock id timestampByteHash triggersDisabledConfig poolWithUserTrigger acceptAll 1001
        ⟨2, [], 1000, []⟩ = some (poolWithUserTrigger, .ok userTriggerBlock) ∧
      validateTransactionsBlock id timestampByteHash triggersDisabledConfig poolAfterFirstBlock acceptAll 1001
        ⟨2, userTriggerBlock, [], 1000, []⟩ = .error .triggerDisabledAndTriggerExists :=
  ⟨rfl, rfl, rfl, rfl⟩

/-- The block proposed with triggers at height 2 and clock 1001 from the pool holding the user's
call: the call, then the trigger. -/
def userTriggerThenTriggerBlock : TransactionsBlockContainer :=
  ⟨⟨1, 42, 2, [], 1001, [232, 233], [], 2, []⟩, [],
    [userTriggerCall, createTriggerTransaction triggersEnabledConfig 1001]⟩

/-- With triggers, a block whose first of two transactions calls the trigger is accepted: the
compliance loop scans no transaction of a block of two. -/
theorem trigger_call_before_trigger_accepted :
    createTransactionsBlock id timestampByteHash triggersEnabledConfig poolWithUserTrigger acceptAll 1001
        ⟨2, [], 1000, []⟩ = some (poolWithUserTrigger, .ok userTriggerThenTriggerBlock) ∧
      validateTransactionsBlock id timestampByteHash triggersEnabledConfig poolAfterFirstBlock acceptAll 1001
        ⟨2, userTriggerThenTriggerBlock, [], 1000, []⟩ = .ok () ∧
      userTriggerThenTriggerBlock.signedTransactions.head? = some userTriggerCall ∧ IsTriggerCall userTriggerCall :=
  ⟨rfl, rfl, rfl, by decide⟩

end OrbsNetwork.ConsensusContext
