import OrbsNetwork.BlockStorage.ServiceSync
import OrbsNetwork.BlockStorage.NodeSyncSpec
import OrbsNetwork.TransactionPool.ServiceSpec

/-! Along every run of block storage and `servicesync`, a service that takes block pairs in order
is the replay of the stored chain up to its height. -/

namespace OrbsNetwork.BlockStorage

open Paging

theorem toUInt64_lt_toUInt64_iff {a b : Nat} (aLt : a < 2 ^ 64) (bLt : b < 2 ^ 64) :
    a.toUInt64 < b.toUInt64 ↔ a < b := by
  simp only [UInt64.lt_iff_toNat_lt, UInt64.toNat_ofNat_of_lt' aLt, UInt64.toNat_ofNat_of_lt' bLt]

section Chain

variable (protocol : Protocol) in
/-- Both headers of the block pair at index `i` have height `i + 1`. -/
def HeightsIndexed (blocks : List BlockPairContainer) : Prop :=
  ∀ i b, blocks[i]? = some b → txHeight protocol b = i + 1 ∧ protocol.resultsBlockHeight b.resultsBlock.header = i + 1

variable {protocol : Protocol} {blocks : List BlockPairContainer}

theorem heightsIndexed_nil : HeightsIndexed protocol [] := fun _ _ stored => by simp at stored

theorem HeightsIndexed.append (heights : HeightsIndexed protocol blocks) {b : BlockPairContainer}
    (next : txHeight protocol b = blocks.length + 1)
    (sameHeight : protocol.resultsBlockHeight b.resultsBlock.header = txHeight protocol b) :
    HeightsIndexed protocol (blocks ++ [b]) := by
  intro i b' stored
  rcases getElem?_append_singleton_cases stored with old | ⟨rfl, rfl⟩
  · exact heights i b' old
  · exact ⟨next, sameHeight.trans next⟩

theorem heightsIndexed_threeBlocks : HeightsIndexed firstByteProtocol threeBlocks.blocks :=
  ((heightsIndexed_nil.append (b := numberedBlock 1) rfl rfl).append (b := numberedBlock 2) rfl rfl).append
    (b := numberedBlock 3) rfl rfl

theorem HeightsIndexed.resultsBlockHeight (heights : HeightsIndexed protocol blocks) {i : Nat}
    (within : i < blocks.length) : protocol.resultsBlockHeight blocks[i].resultsBlock.header = i + 1 :=
  (heights i _ (List.getElem?_eq_getElem within)).2

theorem HeightsIndexed.getLast (heights : HeightsIndexed protocol blocks) (nonempty : blocks ≠ []) :
    txHeight protocol (blocks.getLast nonempty) = blocks.length ∧
      protocol.resultsBlockHeight (blocks.getLast nonempty).resultsBlock.header = blocks.length := by
  have positive := List.length_pos_iff.mpr nonempty
  have top := heights (blocks.length - 1) _ (List.getLast?_eq_getElem? ▸ List.getLast?_eq_some_getLast nonempty)
  omega

end Chain

section Sync

variable {σ : Type} {protocol : Protocol} {committer : BlockPairCommitter σ}

variable (protocol committer) in
/-- A service that takes block pairs in order, as the transaction pool and state storage do:
`height s` is the last height it committed, and `valid` what its state keeps. It commits the block
pair of the next height and asks for the one after; for any other it asks again for the next. -/
structure InOrder (height : σ → Nat) (valid : σ → Prop) : Prop where
  next : ∀ s b, valid s → protocol.resultsBlockHeight b.resultsBlock.header = height s + 1 →
    ∃ s', committer s b = some (s', .ok (height s + 2).toUInt64) ∧ height s' = height s + 1 ∧ valid s'
  other : ∀ s b, valid s → protocol.resultsBlockHeight b.resultsBlock.header ≠ height s + 1 →
    committer s b = some (s, .ok (height s + 1).toUInt64)

variable (committer) in
/-- The service's state after it was offered a block pair, when it did not panic. -/
def committedState (s : σ) (b : BlockPairContainer) : σ :=
  match committer s b with
  | some (s', _) => s'
  | none => s

variable {height : σ → Nat} {valid : σ → Prop}

theorem InOrder.committedState_next (ordered : InOrder protocol committer height valid) {s : σ} {b : BlockPairContainer}
    (validS : valid s) (next : protocol.resultsBlockHeight b.resultsBlock.header = height s + 1) :
    committer s b = some (committedState committer s b, .ok (height s + 2).toUInt64) ∧
      height (committedState committer s b) = height s + 1 ∧ valid (committedState committer s b) := by
  obtain ⟨s', committed, higher, valid'⟩ := ordered.next s b validS next
  simp only [committedState, committed, true_and]
  exact ⟨higher, valid'⟩

theorem InOrder.committedState_other (ordered : InOrder protocol committer height valid) {s : σ} {b : BlockPairContainer}
    (validS : valid s) (other : protocol.resultsBlockHeight b.resultsBlock.header ≠ height s + 1) :
    committedState committer s b = s := by
  simp only [committedState, ordered.other s b validS other]

theorem InOrder.syncOneBlock_next (ordered : InOrder protocol committer height valid) {s : σ} {b : BlockPairContainer}
    (validS : valid s) (next : protocol.resultsBlockHeight b.resultsBlock.header = height s + 1) :
    syncOneBlock committer s b = some (committedState committer s b, (height s + 2).toUInt64) := by
  simp only [syncOneBlock, (ordered.committedState_next validS next).1]

theorem InOrder.syncOneBlock_other (ordered : InOrder protocol committer height valid) {s : σ} {b : BlockPairContainer}
    (validS : valid s) (other : protocol.resultsBlockHeight b.resultsBlock.header ≠ height s + 1) :
    syncOneBlock committer s b = some (s, (height s + 1).toUInt64) := by
  simp only [syncOneBlock, ordered.other s b validS other]

theorem InOrder.syncCursor_next (ordered : InOrder protocol committer height valid) {s : σ} {b : BlockPairContainer}
    (validS : valid s) (next : protocol.resultsBlockHeight b.resultsBlock.header = height s + 1) (committedHeight : UInt64)
    (rest : List BlockPairContainer) :
    syncCursor committer (some (s, committedHeight)) (height s + 1) (b :: rest) =
      (some (committedState committer s b, (height s + 1).toUInt64), true) := by
  simp [syncCursor, ordered.syncOneBlock_next validS next, toUInt64_succ]

/-- Scanning block pairs whose heights follow the service's, one a page, commits each of them, and
leaves as committed height that of the last. -/
theorem InOrder.deliver_syncCursor (ordered : InOrder protocol committer height valid) (bs : List BlockPairContainer)
    (s : σ) (validS : valid s) (committedHeight : UInt64)
    (heights : ∀ i (within : i < bs.length), protocol.resultsBlockHeight bs[i].resultsBlock.header = height s + 1 + i) :
    deliver (syncCursor committer) (height s + 1) (bs.map fun b => [b]) (some (s, committedHeight)) =
        some (bs.foldl (committedState committer) s,
          if bs = [] then committedHeight else (height s + bs.length).toUInt64) ∧
      height (bs.foldl (committedState committer) s) = height s + bs.length ∧
      valid (bs.foldl (committedState committer) s) := by
  induction bs generalizing s committedHeight with
  | nil => simpa using validS
  | cons b bs ih =>
    have first : protocol.resultsBlockHeight b.resultsBlock.header = height s + 1 := by
      have := heights 0 (by simp)
      rwa [List.getElem_cons_zero, Nat.add_zero] at this
    obtain ⟨-, higher, valid'⟩ := ordered.committedState_next validS first
    have later : ∀ i (within : i < bs.length),
        protocol.resultsBlockHeight bs[i].resultsBlock.header = height (committedState committer s b) + 1 + i := by
      intro i within
      have := heights (i + 1) (by simpa using within)
      rw [List.getElem_cons_succ] at this
      omega
    obtain ⟨delivered, height', valid''⟩ := ih (committedState committer s b) valid' ((height s + 1).toUInt64) later
    have index : height s + 1 + [b].length = height (committedState committer s b) + 1 := by
      rw [higher, List.length_singleton]
    rw [List.map_cons, deliver_cons, ordered.syncCursor_next validS first, if_pos rfl, index]
    dsimp only
    rw [delivered, List.foldl_cons]
    refine ⟨?_, by rw [height', higher, List.length_cons]; omega, valid''⟩
    by_cases empty : bs = []
    · simp [empty]
    · simp only [empty, if_false, higher, List.cons_ne_nil, List.length_cons]
      rw [Nat.add_assoc, Nat.add_comm 1]

/-- The scan `syncToTopBlock` makes from the height after the service's commits every stored block
pair from there to the top, and leaves the chain's height as the committed one. -/
theorem InOrder.scanBlocks_syncCursor (ordered : InOrder protocol committer height valid) {bp : InMemoryBlockPersistence}
    (heights : HeightsIndexed protocol bp.blocks) {s : σ} (validS : valid s) (behind : height s < bp.blocks.length)
    (committedHeight : UInt64) :
    bp.scanBlocks (height s + 1) 1 (syncCursor committer) (some (s, committedHeight)) =
        some (some ((bp.blocks.drop (height s)).foldl (committedState committer) s, bp.blocks.length.toUInt64), .ok ()) ∧
      height ((bp.blocks.drop (height s)).foldl (committedState committer) s) = bp.blocks.length ∧
      valid ((bp.blocks.drop (height s)).foldl (committedState committer) s) := by
  have following : ∀ i (within : i < (bp.blocks.drop (height s)).length),
      protocol.resultsBlockHeight (bp.blocks.drop (height s))[i].resultsBlock.header = height s + 1 + i := by
    intro i within
    rw [List.length_drop] at within
    rw [List.getElem_drop, heights.resultsBlockHeight]
    omega
  have nonempty : bp.blocks.drop (height s) ≠ [] := by
    rw [← List.length_pos_iff, List.length_drop]
    omega
  have toTop : height s + (bp.blocks.drop (height s)).length = bp.blocks.length := by
    rw [List.length_drop]
    omega
  obtain ⟨delivered, higher, valid'⟩ := ordered.deliver_syncCursor _ s validS committedHeight following
  rw [if_neg nonempty, toTop] at delivered
  rw [toTop] at higher
  refine ⟨?_, higher, valid'⟩
  rw [bp.scanBlocks_eq (by omega) (by omega) Nat.one_pos, Nat.add_sub_cancel, pages_one, delivered]

/-- One pass of `syncToTopBlock` over a chain indexed by height, from a service at most at its
top: the service has committed every block pair above its height, in order, and the pass reports
the chain's height. -/
theorem InOrder.syncToTopBlock_eq (ordered : InOrder protocol committer height valid) {bp : InMemoryBlockPersistence}
    (heights : HeightsIndexed protocol bp.blocks) (nonempty : bp.blocks ≠ []) (lengthLt : bp.blocks.length + 1 < 2 ^ 64)
    {s : σ} (validS : valid s) (behind : height s ≤ bp.blocks.length) :
    syncToTopBlock protocol committer bp s =
        some ((bp.blocks.drop (height s)).foldl (committedState committer) s, .ok bp.blocks.length.toUInt64) ∧
      height ((bp.blocks.drop (height s)).foldl (committedState committer) s) = bp.blocks.length ∧
      valid ((bp.blocks.drop (height s)).foldl (committedState committer) s) := by
  obtain ⟨topTx, topRs⟩ := heights.getLast nonempty
  have lastBlock : bp.getLastBlock = some (bp.blocks.getLast nonempty) := List.getLast?_eq_some_getLast nonempty
  rcases Nat.lt_or_ge (height s + 1) bp.blocks.length with below | atTop
  · -- the service asks for the height after its own, below the top: the scan commits from there
    have other : protocol.resultsBlockHeight (bp.blocks.getLast nonempty).resultsBlock.header ≠ height s + 1 := by
      omega
    have notAbove : ¬ (txHeight protocol (bp.blocks.getLast nonempty)).toUInt64 < (height s + 1).toUInt64 := by
      rw [toUInt64_lt_toUInt64_iff (by omega) (by omega)]
      omega
    have requested : (height s + 1).toUInt64.toNat = height s + 1 :=
      UInt64.toNat_ofNat_of_lt' (show height s + 1 < 2 ^ 64 by omega)
    obtain ⟨scanned, higher, valid'⟩ := ordered.scanBlocks_syncCursor heights validS (by omega) (height s).toUInt64
    refine ⟨?_, higher, valid'⟩
    simp only [syncToTopBlock, lastBlock, ordered.syncOneBlock_other validS other]
    rw [if_neg notAbove, requested, toUInt64_succ, UInt64.add_sub_cancel, scanned]
  · rcases Nat.eq_or_lt_of_le behind with atTopAlready | next
    · -- the service is at the top: it asks for the height above, and nothing is scanned
      have other : protocol.resultsBlockHeight (bp.blocks.getLast nonempty).resultsBlock.header ≠ height s + 1 := by
        omega
      have above : (txHeight protocol (bp.blocks.getLast nonempty)).toUInt64 < (height s + 1).toUInt64 := by
        rw [toUInt64_lt_toUInt64_iff (by omega) (by omega)]
        omega
      rw [atTopAlready, List.drop_length, List.foldl_nil]
      refine ⟨?_, atTopAlready, validS⟩
      simp only [syncToTopBlock, lastBlock, ordered.syncOneBlock_other validS other]
      rw [if_pos above, toUInt64_succ, UInt64.add_sub_cancel, atTopAlready]
    · -- the top block is the next one: the service commits it and asks for the height above
      have next' : protocol.resultsBlockHeight (bp.blocks.getLast nonempty).resultsBlock.header = height s + 1 := by
        omega
      obtain ⟨-, higher, valid'⟩ := ordered.committedState_next validS next'
      have above : (txHeight protocol (bp.blocks.getLast nonempty)).toUInt64 < (height s + 2).toUInt64 := by
        rw [toUInt64_lt_toUInt64_iff (by omega) (by omega)]
        omega
      have onlyTop : bp.blocks.drop (height s) = [bp.blocks.getLast nonempty] := by
        rw [show height s = bp.blocks.length - 1 by omega, List.drop_length_sub_one nonempty]
      rw [onlyTop, List.foldl_cons, List.foldl_nil, higher]
      refine ⟨?_, by omega, valid'⟩
      have reported : (height s + 2).toUInt64 - 1 = bp.blocks.length.toUInt64 := by
        rw [show height s + 2 = bp.blocks.length + 1 by omega, toUInt64_succ, UInt64.add_sub_cancel]
      simp only [syncToTopBlock, lastBlock, ordered.syncOneBlock_next validS next', if_pos above, reported]

end Sync

section TransactionPool

open TransactionPool

variable {protocol : Protocol}

/-- The receipts of a results block, as the transaction pool takes them. -/
abbrev poolReceipts (protocol : Protocol) (b : BlockPairContainer) : List TransactionReceipt :=
  b.resultsBlock.transactionReceipts.map fun receipt => ⟨protocol.txhash receipt⟩

/-- The transaction pool offered the block pair of the height after its own commits its receipts at
that height and the results block's time, and asks for the height after. -/
theorem transactionPoolCommitter_next {s : Service} {b : BlockPairContainer}
    (next : protocol.resultsBlockHeight b.resultsBlock.header = s.lastCommittedBlockHeight + 1)
    (tracked : s.blockTracker.currentHeight = s.lastCommittedBlockHeight) :
    transactionPoolCommitter protocol s b =
      some ({ s with
          lastCommittedBlockHeight := s.lastCommittedBlockHeight + 1
          lastCommittedTimestamp := (protocol.resultsTimestamp b.resultsBlock.header).toUInt64
          committedPool := (commitReceipts s.config.nodeAddress (s.lastCommittedBlockHeight + 1)
            (protocol.resultsTimestamp b.resultsBlock.header).toUInt64 s.committedPool s.pendingPool
            (poolReceipts protocol b)).1
          pendingPool := (commitReceipts s.config.nodeAddress (s.lastCommittedBlockHeight + 1)
            (protocol.resultsTimestamp b.resultsBlock.header).toUInt64 s.committedPool s.pendingPool
            (poolReceipts protocol b)).2.1
          blockTracker := { s.blockTracker with currentHeight := s.blockTracker.currentHeight + 1 } },
        .ok (s.lastCommittedBlockHeight + 2).toUInt64) := by
  have committed := @Service.commitTransactionReceipts_next s
    ⟨s.lastCommittedBlockHeight + 1, (protocol.resultsTimestamp b.resultsBlock.header).toUInt64⟩
    (poolReceipts protocol b) rfl tracked
  simp only [transactionPoolCommitter, next, committed, Option.map_some]

theorem transactionPoolCommitter_other {s : Service} {b : BlockPairContainer}
    (other : protocol.resultsBlockHeight b.resultsBlock.header ≠ s.lastCommittedBlockHeight + 1) :
    transactionPoolCommitter protocol s b = some (s, .ok (s.lastCommittedBlockHeight + 1).toUInt64) := by
  simp only [transactionPoolCommitter, Service.commitTransactionReceipts, other, ne_eq, not_false_eq_true, if_true,
    Option.map_some]

/-- The transaction pool takes block pairs in order, its block tracker at its last committed height. -/
theorem transactionPoolCommitter_inOrder :
    InOrder protocol (transactionPoolCommitter protocol) Service.lastCommittedBlockHeight
      fun s => s.blockTracker.currentHeight = s.lastCommittedBlockHeight where
  next _ _ tracked next := ⟨_, transactionPoolCommitter_next next tracked, rfl, congrArg (· + 1) tracked⟩
  other _ _ _ other := transactionPoolCommitter_other other

/-- Committing block pairs of consecutive heights from the pool's own adds their receipts to its
committed pool and keeps what it held. -/
theorem committedPool_foldl_committedState (bs : List BlockPairContainer) (s : Service)
    (tracked : s.blockTracker.currentHeight = s.lastCommittedBlockHeight)
    (following : ∀ i (within : i < bs.length),
      protocol.resultsBlockHeight bs[i].resultsBlock.header = s.lastCommittedBlockHeight + 1 + i)
    (txHash : Bytes) :
    ((bs.foldl (committedState (transactionPoolCommitter protocol)) s).committedPool.transactions txHash).isSome =
      ((s.committedPool.transactions txHash).isSome ||
        bs.any fun b => b.resultsBlock.transactionReceipts.any fun receipt => protocol.txhash receipt = txHash) := by
  induction bs generalizing s with
  | nil => simp
  | cons b bs ih =>
    have first : protocol.resultsBlockHeight b.resultsBlock.header = s.lastCommittedBlockHeight + 1 := by
      have := following 0 (by simp)
      rwa [List.getElem_cons_zero, Nat.add_zero] at this
    obtain ⟨committed, higher, tracked'⟩ := transactionPoolCommitter_inOrder.committedState_next tracked first
    have later : ∀ i (within : i < bs.length),
        protocol.resultsBlockHeight bs[i].resultsBlock.header =
          (committedState (transactionPoolCommitter protocol) s b).lastCommittedBlockHeight + 1 + i := by
      intro i within
      have := following (i + 1) (by simpa using within)
      rw [List.getElem_cons_succ] at this
      omega
    have added : ((commitReceipts s.config.nodeAddress (s.lastCommittedBlockHeight + 1)
        (protocol.resultsTimestamp b.resultsBlock.header).toUInt64 s.committedPool s.pendingPool
        (poolReceipts protocol b)).1.transactions txHash).isSome = _ :=
      (commitReceipts_transactions s.committedPool s.pendingPool (poolReceipts protocol b) txHash).1
    have pool : (committedState (transactionPoolCommitter protocol) s b).committedPool =
        (commitReceipts s.config.nodeAddress (s.lastCommittedBlockHeight + 1)
          (protocol.resultsTimestamp b.resultsBlock.header).toUInt64 s.committedPool s.pendingPool
          (poolReceipts protocol b)).1 := by
      simp only [committedState, transactionPoolCommitter_next first tracked]
    rw [List.foldl_cons, ih _ tracked' later, pool, added, List.any_cons, Bool.or_assoc, List.any_map]
    rfl

/-- One pass of `syncToTopBlock` for the transaction pool, over a chain indexed by height and a pool
at most at its top: the pass reports the chain's height, the pool and its block tracker are at
that height, and its committed pool holds what it held and every receipt of the stored block pairs
above the pool's height, nothing else. -/
theorem txPool_sync_commits_chain {bp : InMemoryBlockPersistence} (heights : HeightsIndexed protocol bp.blocks)
    (nonempty : bp.blocks ≠ []) (lengthLt : bp.blocks.length + 1 < 2 ^ 64) {s : Service}
    (tracked : s.blockTracker.currentHeight = s.lastCommittedBlockHeight)
    (behind : s.lastCommittedBlockHeight ≤ bp.blocks.length) :
    ∃ s', syncToTopBlock protocol (transactionPoolCommitter protocol) bp s = some (s', .ok bp.blocks.length.toUInt64) ∧
      s'.lastCommittedBlockHeight = bp.blocks.length ∧ s'.blockTracker.currentHeight = bp.blocks.length ∧
      ∀ txHash, (s'.committedPool.transactions txHash).isSome =
        ((s.committedPool.transactions txHash).isSome ||
          (bp.blocks.drop s.lastCommittedBlockHeight).any fun b =>
            b.resultsBlock.transactionReceipts.any fun receipt => protocol.txhash receipt = txHash) := by
  obtain ⟨synced, higher, tracked'⟩ :=
    transactionPoolCommitter_inOrder.syncToTopBlock_eq heights nonempty lengthLt tracked behind
  have following : ∀ i (within : i < (bp.blocks.drop s.lastCommittedBlockHeight).length),
      protocol.resultsBlockHeight (bp.blocks.drop s.lastCommittedBlockHeight)[i].resultsBlock.header =
        s.lastCommittedBlockHeight + 1 + i := by
    intro i within
    rw [List.length_drop] at within
    rw [List.getElem_drop, heights.resultsBlockHeight]
    omega
  exact ⟨_, synced, higher, tracked'.trans higher,
    committedPool_foldl_committedState _ s tracked following⟩

theorem txPool_sync_commits_chain_three :
    ∃ s', syncToTopBlock firstByteProtocol (transactionPoolCommitter firstByteProtocol) threeBlocks
          (newTransactionPool sampleConfig) = some (s', .ok threeBlocks.blocks.length.toUInt64) ∧
      s'.lastCommittedBlockHeight = threeBlocks.blocks.length ∧ s'.blockTracker.currentHeight = threeBlocks.blocks.length ∧
      ∀ txHash, (s'.committedPool.transactions txHash).isSome =
        (((newTransactionPool sampleConfig).committedPool.transactions txHash).isSome ||
          (threeBlocks.blocks.drop (newTransactionPool sampleConfig).lastCommittedBlockHeight).any fun b =>
            b.resultsBlock.transactionReceipts.any fun receipt => firstByteProtocol.txhash receipt = txHash) :=
  txPool_sync_commits_chain heightsIndexed_threeBlocks (List.cons_ne_nil _ _) (by norm_num [threeBlocks]) rfl
    (Nat.zero_le _)

end TransactionPool

section Machine

variable {σ : Type} {protocol : Protocol} {versions : Versions} {committer : BlockPairCommitter σ}
  {graceDistance : UInt16}

variable (protocol versions committer graceDistance) in
/-- The nodes that steps lead to from `node` while the consensus algorithm commits block pairs whose
two headers have the same height, below `2^64 - 1`. -/
def ServiceSyncNode.ReachesConsistent (node : ServiceSyncNode σ) : ServiceSyncNode σ → Prop :=
  Relation.ReflTransGen (fun node node' => ∃ event, node.step protocol versions committer graceDistance event = node' ∧
    ∀ blockPair, event = .commitBlock blockPair →
      protocol.resultsBlockHeight blockPair.resultsBlock.header = txHeight protocol blockPair ∧
        txHeight protocol blockPair + 1 < 2 ^ 64) node

theorem ServiceSyncNode.step_wakeUp_persistence (node : ServiceSyncNode σ) :
    (node.step protocol versions committer graceDistance .wakeUp).persistence = node.persistence := by
  simp only [ServiceSyncNode.step]
  split
  · rfl
  · split_ifs
    · split <;> rfl
    · rfl
    · rfl

variable {height : σ → Nat} {valid : σ → Prop}

variable (protocol committer height valid) in
/-- The node of a run from a service in state `s₀`: the stored chain is indexed by height, the
service is valid, between its first height and the chain's, and in the state that committing the
stored block pairs above its first height up to its own leads `s₀` to; the goroutine waits, at most
at the service's height. -/
structure Synced (s₀ : σ) (node : ServiceSyncNode σ) : Prop where
  heights : HeightsIndexed protocol node.persistence.blocks
  lengthLt : node.persistence.blocks.length + 1 < 2 ^ 64
  valid : valid node.service
  low : height s₀ ≤ height node.service
  high : height node.service ≤ node.persistence.blocks.length
  replay : node.service =
    ((node.persistence.blocks.take (height node.service)).drop (height s₀)).foldl (committedState committer) s₀
  waiting : ∃ h : UInt64, node.waitingAbove = some h ∧ h.toNat ≤ height node.service

theorem synced_newServiceBlockSync {bp : InMemoryBlockPersistence} (heights : HeightsIndexed protocol bp.blocks)
    (lengthLt : bp.blocks.length + 1 < 2 ^ 64) {s₀ : σ} (valid₀ : valid s₀) (behind : height s₀ ≤ bp.blocks.length) :
    Synced protocol committer height valid s₀ (newServiceBlockSync bp s₀) where
  heights := heights
  lengthLt := lengthLt
  valid := valid₀
  low := le_refl _
  high := behind
  replay := by simp [newServiceBlockSync]
  waiting := ⟨0, rfl, Nat.zero_le _⟩

variable {s₀ : σ} {node : ServiceSyncNode σ}

/-- Block storage appending to the chain keeps a node synced. -/
theorem Synced.of_prefix (synced : Synced protocol committer height valid s₀ node) {persistence : InMemoryBlockPersistence}
    (grows : node.persistence.blocks <+: persistence.blocks) (heights : HeightsIndexed protocol persistence.blocks)
    (lengthLt : persistence.blocks.length + 1 < 2 ^ 64) :
    Synced protocol committer height valid s₀ { node with persistence } where
  heights := heights
  lengthLt := lengthLt
  valid := synced.valid
  low := synced.low
  high := synced.high.trans grows.length_le
  replay := by
    obtain ⟨rest, extended⟩ := grows
    dsimp only
    rw [← extended, List.take_append_of_le_length synced.high]
    exact synced.replay
  waiting := synced.waiting

theorem Synced.commitBlock (synced : Synced protocol committer height valid s₀ node) {b : BlockPairContainer}
    (sameHeight : protocol.resultsBlockHeight b.resultsBlock.header = txHeight protocol b)
    (heightLt : txHeight protocol b + 1 < 2 ^ 64) :
    Synced protocol committer height valid s₀ (node.step protocol versions committer graceDistance (.commitBlock b)) := by
  simp only [ServiceSyncNode.step]
  split
  · next persistence err committed =>
    have blocks := commitBlock_blocks committed
    split_ifs at blocks with appended
    · refine synced.of_prefix (by rw [blocks]; exact List.prefix_append _ _) ?_ ?_
      · rw [blocks]
        exact synced.heights.append appended.2 sameHeight
      · rw [blocks, List.length_append, List.length_singleton]
        omega
    · refine synced.of_prefix (by rw [blocks]) ?_ ?_
      · rw [blocks]
        exact synced.heights
      · rw [blocks]
        exact synced.lengthLt
  · exact synced

/-- The replay of the chain above the service's height from its state is that of the chain above
its first height from `s₀`. -/
theorem Synced.foldl_drop (synced : Synced protocol committer height valid s₀ node) :
    (node.persistence.blocks.drop (height node.service)).foldl (committedState committer) node.service =
      (node.persistence.blocks.drop (height s₀)).foldl (committedState committer) s₀ := by
  have split : node.persistence.blocks.drop (height s₀) =
      (node.persistence.blocks.take (height node.service)).drop (height s₀) ++
        node.persistence.blocks.drop (height node.service) := by
    conv_lhs => rw [← List.take_append_drop (height node.service) node.persistence.blocks]
    rw [List.drop_append_of_le_length (by rw [List.length_take]; exact le_min synced.low (synced.low.trans synced.high))]
  rw [split, List.foldl_append, ← synced.replay]

variable (versions graceDistance) in
/-- A wake-up of the goroutine keeps the node synced and brings the service to the chain's height. -/
theorem Synced.wakeUp (ordered : InOrder protocol committer height valid)
    (synced : Synced protocol committer height valid s₀ node) :
    Synced protocol committer height valid s₀ (node.step protocol versions committer graceDistance .wakeUp) ∧
      height (node.step protocol versions committer graceDistance .wakeUp).service = node.persistence.blocks.length := by
  obtain ⟨h, waiting, below⟩ := synced.waiting
  have high := synced.high
  have lengthLt := synced.lengthLt
  have requested : (h + 1).toNat = h.toNat + 1 := by
    rw [UInt64.toNat_add, UInt64.toNat_one]
    omega
  by_cases due : h.toNat + 1 ≤ node.persistence.blocks.length
  · have nonempty : node.persistence.blocks ≠ [] := by
      rw [← List.length_pos_iff]
      omega
    obtain ⟨passed, higher, valid'⟩ := ordered.syncToTopBlock_eq synced.heights nonempty lengthLt synced.valid high
    simp only [ServiceSyncNode.step, waiting, requested, if_pos due, passed]
    refine ⟨⟨synced.heights, lengthLt, valid', by rw [higher]; exact synced.low.trans high, higher.le, ?_, ?_⟩, higher⟩
    · dsimp only
      rw [higher, List.take_length, synced.foldl_drop]
    · refine ⟨_, rfl, ?_⟩
      rw [higher, UInt64.toNat_ofNat_of_lt' (show node.persistence.blocks.length < 2 ^ 64 by omega)]
  · -- the goroutine waits above the top, so the service is already there
    have atTop : height node.service = node.persistence.blocks.length := by omega
    simp only [ServiceSyncNode.step, waiting, requested, if_neg due]
    split_ifs
    · exact ⟨⟨synced.heights, lengthLt, synced.valid, synced.low, high, synced.replay, ⟨0, rfl, Nat.zero_le _⟩⟩, atTop⟩
    · exact ⟨synced, atTop⟩

theorem Synced.step (ordered : InOrder protocol committer height valid)
    (synced : Synced protocol committer height valid s₀ node) {event : ServiceSyncEvent}
    (consistent : ∀ blockPair, event = .commitBlock blockPair →
      protocol.resultsBlockHeight blockPair.resultsBlock.header = txHeight protocol blockPair ∧
        txHeight protocol blockPair + 1 < 2 ^ 64) :
    Synced protocol committer height valid s₀ (node.step protocol versions committer graceDistance event) := by
  cases event with
  | commitBlock b =>
    obtain ⟨sameHeight, heightLt⟩ := consistent b rfl
    exact synced.commitBlock sameHeight heightLt
  | wakeUp => exact (synced.wakeUp versions graceDistance ordered).1

theorem ServiceSyncNode.ReachesConsistent.synced (ordered : InOrder protocol committer height valid)
    {node₀ : ServiceSyncNode σ} (synced₀ : Synced protocol committer height valid s₀ node₀)
    (run : node₀.ReachesConsistent protocol versions committer graceDistance node) :
    Synced protocol committer height valid s₀ node := by
  induction run with
  | refl => exact synced₀
  | tail _ step ih =>
    obtain ⟨event, rfl, consistent⟩ := step
    exact ih.step ordered consistent

/-- Along every run of block storage and the service sync goroutine, from a service at most at the
chain's top and while the consensus algorithm commits block pairs whose headers agree on the
height: the goroutine never stops, the service is the replay, from its first state, of the stored
block pairs above its first height up to its own height, and the next wake-up brings it to the
replay of the whole chain. -/
theorem service_sync_replays_chain (ordered : InOrder protocol committer height valid) {bp : InMemoryBlockPersistence}
    (heights : HeightsIndexed protocol bp.blocks) (lengthLt : bp.blocks.length + 1 < 2 ^ 64) (valid₀ : valid s₀)
    (behind : height s₀ ≤ bp.blocks.length)
    (run : (newServiceBlockSync bp s₀).ReachesConsistent protocol versions committer graceDistance node) :
    node.waitingAbove ≠ none ∧ height s₀ ≤ height node.service ∧ height node.service ≤ node.persistence.blocks.length ∧
      node.service =
        ((node.persistence.blocks.take (height node.service)).drop (height s₀)).foldl (committedState committer) s₀ ∧
      (node.step protocol versions committer graceDistance .wakeUp).service =
        (node.persistence.blocks.drop (height s₀)).foldl (committedState committer) s₀ := by
  have synced := run.synced ordered (synced_newServiceBlockSync heights lengthLt valid₀ behind)
  obtain ⟨woken, higher⟩ := synced.wakeUp versions graceDistance ordered
  obtain ⟨h, waiting, -⟩ := synced.waiting
  refine ⟨by rw [waiting]; exact Option.some_ne_none h, synced.low, synced.high, synced.replay, ?_⟩
  rw [woken.replay, higher, ServiceSyncNode.step_wakeUp_persistence, List.take_length]

open TransactionPool in
theorem service_sync_replays_chain_three :
    (newServiceBlockSync threeBlocks (newTransactionPool sampleConfig)).waitingAbove ≠ none ∧
      (newTransactionPool sampleConfig).lastCommittedBlockHeight ≤
        (newServiceBlockSync threeBlocks (newTransactionPool sampleConfig)).service.lastCommittedBlockHeight ∧
      (newServiceBlockSync threeBlocks (newTransactionPool sampleConfig)).service.lastCommittedBlockHeight ≤
        (newServiceBlockSync threeBlocks (newTransactionPool sampleConfig)).persistence.blocks.length ∧
      (newServiceBlockSync threeBlocks (newTransactionPool sampleConfig)).service =
        (((newServiceBlockSync threeBlocks (newTransactionPool sampleConfig)).persistence.blocks.take
          (newServiceBlockSync threeBlocks (newTransactionPool sampleConfig)).service.lastCommittedBlockHeight).drop
            (newTransactionPool sampleConfig).lastCommittedBlockHeight).foldl
          (committedState (transactionPoolCommitter firstByteProtocol)) (newTransactionPool sampleConfig) ∧
      ((newServiceBlockSync threeBlocks (newTransactionPool sampleConfig)).step firstByteProtocol versionOne
          (transactionPoolCommitter firstByteProtocol) 5 .wakeUp).service =
        ((newServiceBlockSync threeBlocks (newTransactionPool sampleConfig)).persistence.blocks.drop
          (newTransactionPool sampleConfig).lastCommittedBlockHeight).foldl
          (committedState (transactionPoolCommitter firstByteProtocol)) (newTransactionPool sampleConfig) :=
  service_sync_replays_chain transactionPoolCommitter_inOrder heightsIndexed_threeBlocks (by norm_num [threeBlocks]) rfl
    (Nat.zero_le _) .refl

end Machine

end OrbsNetwork.BlockStorage
