import OrbsNetwork.BlockStorage.NodeSync
import OrbsNetwork.BlockStorage.AdapterSpec
import OrbsNetwork.BlockStorage.BlockSyncSpec
import OrbsNetwork.Library.KeyedList

namespace OrbsNetwork.BlockStorage

section Commit

variable {protocol : Protocol} {versions : Versions} {bp bp' : InMemoryBlockPersistence} {b : BlockPairContainer}

/-- The height the transactions header of `b` carries. -/
abbrev txHeight (protocol : Protocol) (b : BlockPairContainer) : Nat :=
  protocol.transactionsBlockHeight b.transactionsBlock.header

theorem writeNextBlock_of_next (next : txHeight protocol b = bp.blocks.length + 1) :
    bp.writeNextBlock protocol b = (⟨bp.blocks ++ [b]⟩, true, protocol.resultsBlockHeight b.resultsBlock.header, none) := by
  simp [InMemoryBlockPersistence.writeNextBlock, next]

theorem writeNextBlock_of_ne (other : txHeight protocol b ≠ bp.blocks.length + 1) :
    bp.writeNextBlock protocol b = (bp, false, bp.blocks.length, none) := by
  simp [InMemoryBlockPersistence.writeNextBlock, Ne.symm other]

/-- A refused block leaves the persistence as it was, whatever the error. -/
theorem commitBlock_refused (versionsOk : validateProtocolVersion versions b = none)
    (other : txHeight protocol b ≠ bp.blocks.length + 1) (committed : commitBlock protocol versions bp b = some (bp', err)) :
    bp' = bp := by
  simp only [commitBlock, versionsOk, writeNextBlock_of_ne other, Bool.not_false, if_true] at committed
  split_ifs at committed with future
  · exact (Prod.mk.inj (Option.some.inj committed)).1.symm
  · obtain ⟨rs, -, read⟩ := Option.bind_eq_some_iff.mp committed
    split at read
    · exact (Prod.mk.inj (Option.some.inj read)).1.symm
    · obtain ⟨tx, -, done⟩ := Option.map_eq_some_iff.mp read
      split at done <;> exact (Prod.mk.inj done).1.symm

/-- What `commitBlock` does to the chain: it appends the block pair when both headers carry the
protocol version and its height is the next one, and changes nothing otherwise. -/
theorem commitBlock_blocks (committed : commitBlock protocol versions bp b = some (bp', err)) :
    bp'.blocks = if validateProtocolVersion versions b = none ∧ txHeight protocol b = bp.blocks.length + 1
      then bp.blocks ++ [b] else bp.blocks := by
  by_cases versionsOk : validateProtocolVersion versions b = none
  · by_cases next : txHeight protocol b = bp.blocks.length + 1
    · simp only [commitBlock, versionsOk, writeNextBlock_of_next next, Bool.not_true, Bool.false_eq_true,
        if_false] at committed
      rw [if_pos ⟨versionsOk, next⟩]
      split_ifs at committed <;> rw [← (Prod.mk.inj (Option.some.inj committed)).1]
    · rw [if_neg (fun both => next both.2), commitBlock_refused versionsOk next committed]
  · obtain ⟨err', mismatch⟩ := Option.ne_none_iff_exists'.mp versionsOk
    simp only [commitBlock, mismatch] at committed
    rw [if_neg (fun both => versionsOk both.1), ← (Prod.mk.inj (Option.some.inj committed)).1]

theorem detectForks_eq_none_iff (stored : BlockPairContainer) :
    detectForks protocol b stored.transactionsBlock.header stored.resultsBlock.header = none ↔
      b.transactionsBlock.header = stored.transactionsBlock.header ∧ b.resultsBlock.header = stored.resultsBlock.header := by
  unfold detectForks
  split_ifs with timestamp txHeader rsHeader
  · exact ⟨nofun, fun same => timestamp (by rw [same.1])⟩
  · exact ⟨nofun, fun same => txHeader same.1⟩
  · exact ⟨nofun, fun same => rsHeader same.2⟩
  · exact ⟨fun _ => ⟨not_not.mp txHeader, not_not.mp rsHeader⟩, fun _ => rfl⟩

/-- The future-block check of `commitBlock`, made in uint64, is that of `Nat` below `2^64`. -/
theorem toUInt64_gt_succ_iff {a n : Nat} (aLt : a < 2 ^ 64) (nLt : n + 1 < 2 ^ 64) :
    a.toUInt64 > n.toUInt64 + 1 ↔ n + 1 < a := by
  simp only [gt_iff_lt, UInt64.lt_iff_toNat_lt, UInt64.toNat_add, UInt64.toNat_ofNat', UInt64.toNat_one]
  omega

section Heights

variable (versionsOk : validateProtocolVersion versions b = none) (heightLt : txHeight protocol b < 2 ^ 64)
  (lengthLt : bp.blocks.length + 2 < 2 ^ 64)

include versionsOk heightLt lengthLt

omit heightLt in
theorem commitBlock_of_next (next : txHeight protocol b = bp.blocks.length + 1)
    (sameHeight : protocol.resultsBlockHeight b.resultsBlock.header = txHeight protocol b) :
    commitBlock protocol versions bp b = some (⟨bp.blocks ++ [b]⟩, none) := by
  have notFuture : ¬ (txHeight protocol b).toUInt64 > (protocol.resultsBlockHeight b.resultsBlock.header).toUInt64 + 1 := by
    rw [toUInt64_gt_succ_iff (by omega) (by omega)]
    omega
  simp only [commitBlock, versionsOk, writeNextBlock_of_next next, Bool.not_true, Bool.false_eq_true, if_false,
    if_neg notFuture]

theorem commitBlock_of_stored (low : 1 ≤ txHeight protocol b) (high : txHeight protocol b ≤ bp.blocks.length) :
    commitBlock protocol versions bp b =
      some (bp, detectForks protocol b bp.blocks[txHeight protocol b - 1].transactionsBlock.header
        bp.blocks[txHeight protocol b - 1].resultsBlock.header) := by
  have other : txHeight protocol b ≠ bp.blocks.length + 1 := by omega
  have notFuture : ¬ (txHeight protocol b).toUInt64 > bp.blocks.length.toUInt64 + 1 := by
    rw [toUInt64_gt_succ_iff heightLt (by omega)]
    omega
  have height : (txHeight protocol b).toUInt64.toNat = txHeight protocol b := UInt64.toNat_ofNat_of_lt' heightLt
  simp only [commitBlock, versionsOk, writeNextBlock_of_ne other, if_neg notFuture, Bool.not_false, if_true, height,
    InMemoryBlockPersistence.getResultsBlock, InMemoryBlockPersistence.getTransactionsBlock,
    bp.getBlockPairAtHeight_of_le low high, Option.map_some, Except.map, Option.bind_some]

theorem commitBlock_of_future (future : bp.blocks.length + 1 < txHeight protocol b) :
    commitBlock protocol versions bp b =
      some (bp, some s!"attempt to write future block {(txHeight protocol b).toUInt64}. current top height is {bp.blocks.length.toUInt64}") := by
  have other : txHeight protocol b ≠ bp.blocks.length + 1 := by omega
  have isFuture : (txHeight protocol b).toUInt64 > bp.blocks.length.toUInt64 + 1 :=
    (toUInt64_gt_succ_iff heightLt (by omega)).mpr future
  simp only [commitBlock, versionsOk, writeNextBlock_of_ne other, if_pos isFuture]

omit heightLt in
theorem commitBlock_of_zero (zero : txHeight protocol b = 0) : commitBlock protocol versions bp b = none := by
  have other : txHeight protocol b ≠ bp.blocks.length + 1 := by omega
  have notFuture : ¬ (0 : Nat).toUInt64 > bp.blocks.length.toUInt64 + 1 := by
    rw [toUInt64_gt_succ_iff (by norm_num) (by omega)]
    omega
  simp only [commitBlock, versionsOk, writeNextBlock_of_ne other, zero, if_neg notFuture, Bool.not_false, if_true,
    InMemoryBlockPersistence.getResultsBlock, InMemoryBlockPersistence.getBlockPairAtHeight]
  simp

end Heights

/-- `CommitBlock` of a block pair whose headers carry the protocol version, on a chain shorter than
`2^64 - 2` blocks: at the next height the block pair is appended; at a height already stored the
chain is left as it is and the commit succeeds exactly when both headers equal the stored ones,
with a fork error otherwise; above the next height the chain is left as it is and the error names
the future block; at height 0 the persistence panics. -/
theorem commitBlock_outcomes (versionsOk : validateProtocolVersion versions b = none)
    (heightLt : txHeight protocol b < 2 ^ 64) (lengthLt : bp.blocks.length + 2 < 2 ^ 64) :
    (txHeight protocol b = bp.blocks.length + 1 →
      protocol.resultsBlockHeight b.resultsBlock.header = txHeight protocol b →
      commitBlock protocol versions bp b = some (⟨bp.blocks ++ [b]⟩, none)) ∧
    (∀ stored, bp.blocks[txHeight protocol b - 1]? = some stored → 1 ≤ txHeight protocol b →
      ∃ err, commitBlock protocol versions bp b = some (bp, err) ∧
        (err = none ↔ b.transactionsBlock.header = stored.transactionsBlock.header ∧
          b.resultsBlock.header = stored.resultsBlock.header)) ∧
    (bp.blocks.length + 1 < txHeight protocol b →
      commitBlock protocol versions bp b =
        some (bp, some s!"attempt to write future block {(txHeight protocol b).toUInt64}. current top height is {bp.blocks.length.toUInt64}")) ∧
    (txHeight protocol b = 0 → commitBlock protocol versions bp b = none) := by
  refine ⟨commitBlock_of_next versionsOk lengthLt, fun stored atHeight low => ?_,
    commitBlock_of_future versionsOk heightLt lengthLt, commitBlock_of_zero versionsOk lengthLt⟩
  obtain ⟨within, same⟩ := List.getElem?_eq_some_iff.mp atHeight
  refine ⟨_, commitBlock_of_stored versionsOk heightLt lengthLt low (by omega), ?_⟩
  rw [same]
  exact detectForks_eq_none_iff stored

/-- Headers that all carry the protocol version. -/
def versionOne : Versions := ⟨fun _ => 1, fun _ => 1⟩

theorem firstByteProtocol_heights_lt (raw : Bytes) : firstByteProtocol.transactionsBlockHeight raw < 2 ^ 64 :=
  (UInt8.toNat_lt _).trans (by norm_num)

theorem firstByteProtocol_results_heights_lt (raw : Bytes) : firstByteProtocol.resultsBlockHeight raw < 2 ^ 64 :=
  (UInt8.toNat_lt _).trans (by norm_num)

theorem commitBlock_outcomes_recommit :
    ∃ err, commitBlock firstByteProtocol versionOne threeBlocks (numberedBlock 2) = some (threeBlocks, err) ∧
      (err = none ↔ (numberedBlock 2).transactionsBlock.header = (numberedBlock 2).transactionsBlock.header ∧
        (numberedBlock 2).resultsBlock.header = (numberedBlock 2).resultsBlock.header) :=
  (commitBlock_outcomes (by decide) (by decide) (by decide)).2.1 (numberedBlock 2) rfl (by decide)

end Commit

section Chain

variable {protocol : Protocol} {versions : Versions} {bp bp' : InMemoryBlockPersistence} {b : BlockPairContainer}

theorem getElem?_append_singleton_cases {blocks : List BlockPairContainer} {i : Nat} {b' : BlockPairContainer}
    (stored : (blocks ++ [b])[i]? = some b') : blocks[i]? = some b' ∨ i = blocks.length ∧ b' = b := by
  rw [List.getElem?_append] at stored
  split_ifs at stored with inside
  · exact .inl stored
  · rw [List.getElem?_singleton] at stored
    split_ifs at stored with atEnd
    exact .inr ⟨by omega, (Option.some.inj stored).symm⟩

variable (protocol versions) in
/-- The chain as block storage keeps it: the block pair at index `i` has height `i + 1` in its
transactions header, and both its headers carry the protocol version. -/
def WellFormedChain (blocks : List BlockPairContainer) : Prop :=
  ∀ i b, blocks[i]? = some b → txHeight protocol b = i + 1 ∧ validateProtocolVersion versions b = none

/-- Every block pair was accepted by a consensus algorithm against the one stored before it, the
first against none. -/
def Linked (handlers : List ConsensusBlocksHandler) (blocks : List BlockPairContainer) : Prop :=
  ∀ i b, blocks[i]? = some b → notifyConsensusAlgos handlers (blocks.take i).getLast? b .verifyAndUpdate false = none

theorem wellFormedChain_nil : WellFormedChain protocol versions [] := fun _ _ stored => by simp at stored

theorem linked_nil (handlers : List ConsensusBlocksHandler) : Linked handlers [] := fun _ _ stored => by simp at stored

theorem WellFormedChain.append {blocks : List BlockPairContainer} (chain : WellFormedChain protocol versions blocks)
    (versionsOk : validateProtocolVersion versions b = none) (next : txHeight protocol b = blocks.length + 1) :
    WellFormedChain protocol versions (blocks ++ [b]) := by
  intro i b' stored
  rcases getElem?_append_singleton_cases stored with old | ⟨rfl, rfl⟩
  · exact chain i b' old
  · exact ⟨next, versionsOk⟩

theorem Linked.append {handlers : List ConsensusBlocksHandler} {blocks : List BlockPairContainer}
    (linked : Linked handlers blocks)
    (accepted : notifyConsensusAlgos handlers blocks.getLast? b .verifyAndUpdate false = none) :
    Linked handlers (blocks ++ [b]) := by
  intro i b' stored
  rcases getElem?_append_singleton_cases stored with old | ⟨rfl, rfl⟩
  · have inside : i ≤ blocks.length := (List.getElem?_eq_some_iff.mp old).1.le
    rw [List.take_append_of_le_length inside]
    exact linked i b' old
  · rwa [List.take_left]

/-- A commit keeps the chain well formed and extends it. -/
theorem WellFormedChain.commitBlock (chain : WellFormedChain protocol versions bp.blocks)
    (committed : commitBlock protocol versions bp b = some (bp', err)) :
    WellFormedChain protocol versions bp'.blocks ∧ bp.blocks <+: bp'.blocks := by
  rw [commitBlock_blocks committed]
  split_ifs with appended
  · exact ⟨chain.append appended.1 appended.2, List.prefix_append _ _⟩
  · exact ⟨chain, List.prefix_refl _⟩

theorem WellFormedChain.getBlockHeight_getLastBlock (chain : WellFormedChain protocol versions bp.blocks) :
    getBlockHeight protocol bp.getLastBlock = bp.blocks.length.toUInt64 := by
  cases last : bp.blocks.getLast? with
  | none =>
    rw [List.getLast?_eq_none_iff.mp last]
    simp [InMemoryBlockPersistence.getLastBlock, last, getBlockHeight]
  | some b =>
    have height : protocol.transactionsBlockHeight b.transactionsBlock.header = bp.blocks.length - 1 + 1 :=
      (chain _ b (by rwa [← List.getLast?_eq_getElem?])).1
    have nonempty : bp.blocks ≠ [] := by rintro empty; simp [empty] at last
    have positive := List.length_pos_iff.mpr nonempty
    simp only [InMemoryBlockPersistence.getLastBlock, last, getBlockHeight]
    rw [height, Nat.sub_add_cancel positive]

end Chain


section Machine

variable {protocol : Protocol} {versions : Versions} {config : BlockSyncConfig} {blockTypeBlockPair : Nat}
  {handlers : List ConsensusBlocksHandler}

/-- The sync goroutine changes the chain only when it commits the block pair it validated. -/
theorem SyncState.step_persistence (state : SyncState) (bp : InMemoryBlockPersistence) (event : SyncEvent) :
    (state.step protocol versions config blockTypeBlockPair handlers bp event).2 = bp ∨
      ∃ blockPair rest err, state = .processingCommit blockPair rest ∧ event = .proceed ∧
        commitBlock protocol versions bp blockPair =
          some ((state.step protocol versions config blockTypeBlockPair handlers bp event).2, err) := by
  cases state <;> cases event <;> simp only [SyncState.step] <;> (try split) <;> (try split) <;> simp_all

/-- The sync goroutine reaches the commit of a block pair only by validating it, at the drain
before it. -/
theorem SyncState.step_processingCommit {state : SyncState} {bp : InMemoryBlockPersistence} {event : SyncEvent}
    {blockPair : BlockPairContainer} {rest : List BlockPairContainer}
    (next : (state.step protocol versions config blockTypeBlockPair handlers bp event).1 = some (.processingCommit blockPair rest)) :
    state = .processingCommit blockPair rest ∧ (state.step protocol versions config blockTypeBlockPair handlers bp event).2 = bp ∨
      ∃ contextDone, state = .processingBlocks (blockPair :: rest) ∧ event = .conduitEmpty contextDone ∧
        validateBlockForCommit protocol versions handlers bp blockPair contextDone = none ∧
        (state.step protocol versions config blockTypeBlockPair handlers bp event).2 = bp := by
  cases state <;> cases event <;> simp only [SyncState.step, createFinishedCARState] at next ⊢ <;>
    (try split at next) <;> (try split at next) <;> simp_all

theorem Node.step_persistence (node : Node) (event : Event) :
    (node.step protocol versions config blockTypeBlockPair handlers event).persistence = node.persistence ∨
      ∃ blockPair err, commitBlock protocol versions node.persistence blockPair =
        some ((node.step protocol versions config blockTypeBlockPair handlers event).persistence, err) := by
  cases event with
  | sync event =>
    cases atState : node.sync with
    | none => left; simp [Node.step, atState]
    | some state =>
      simp only [Node.step, atState]
      rcases state.step_persistence node.persistence event with same | ⟨blockPair, rest, err, -, -, committed⟩
      · exact .inl same
      · exact .inr ⟨blockPair, err, committed⟩
  | commitBlock blockPair =>
    cases committed : commitBlock protocol versions node.persistence blockPair with
    | none => left; simp [Node.step, committed]
    | some result => right; exact ⟨blockPair, result.2, by simp [Node.step, committed]⟩

/-- Whatever the peers send, the timers and the consensus algorithm do, and however their steps
interleave, the stored chain only grows and stays well formed. -/
theorem node_chain_grows {node₀ node : Node} (chain : WellFormedChain protocol versions node₀.persistence.blocks)
    (run : node₀.Reaches protocol versions config blockTypeBlockPair handlers node) :
    WellFormedChain protocol versions node.persistence.blocks ∧ node₀.persistence.blocks <+: node.persistence.blocks := by
  induction run with
  | refl => exact ⟨chain, List.prefix_refl _⟩
  | @tail node node' _ step ih =>
    obtain ⟨event, rfl⟩ := step
    rcases node.step_persistence event with same | ⟨blockPair, err, committed⟩
    · rw [same]
      exact ih
    · obtain ⟨chain', grows⟩ := ih.1.commitBlock committed
      exact ⟨chain', ih.2.trans grows⟩

theorem node_chain_grows_after_commit :
    WellFormedChain firstByteProtocol versionOne
        ((newBlockSync ⟨[]⟩).step firstByteProtocol versionOne batchOfTen 1 [] (.commitBlock (numberedBlock 1))).persistence.blocks ∧
      (newBlockSync ⟨[]⟩).persistence.blocks <+:
        ((newBlockSync ⟨[]⟩).step firstByteProtocol versionOne batchOfTen 1 [] (.commitBlock (numberedBlock 1))).persistence.blocks :=
  node_chain_grows wellFormedChain_nil (Relation.ReflTransGen.single ⟨_, rfl⟩)

theorem validateBlockForCommit_eq_none {bp : InMemoryBlockPersistence} {b : BlockPairContainer} {contextDone : Bool}
    (valid : validateBlockForCommit protocol versions handlers bp b contextDone = none) :
    validateProtocolVersion versions b = none ∧
      (txHeight protocol b).toUInt64 = (protocol.resultsBlockHeight b.resultsBlock.header).toUInt64 ∧
      (txHeight protocol b).toUInt64 = getBlockHeight protocol bp.getLastBlock + 1 ∧
      notifyConsensusAlgos handlers bp.getLastBlock b .verifyAndUpdate contextDone = none := by
  unfold validateBlockForCommit at valid
  split at valid
  · cases valid
  · rename_i versionsOk
    dsimp only at valid
    split at valid
    · cases valid
    · rename_i consecutive
      unfold validateConsecutiveBlockHeight at consecutive
      dsimp only at consecutive
      split_ifs at consecutive with sameHeight nextHeight
      exact ⟨versionsOk, not_not.mp sameHeight, not_not.mp nextHeight, valid⟩

variable (protocol versions handlers) in
/-- What the sync goroutine knows of the block pair it is about to commit: block storage validated
it when the chain had `n` of its blocks, and a consensus algorithm accepted it against the last of
those `n`. -/
def Validated (node : Node) : Prop :=
  ∀ blockPair rest, node.sync = some (.processingCommit blockPair rest) →
    ∃ n ≤ node.persistence.blocks.length, validateProtocolVersion versions blockPair = none ∧
      (txHeight protocol blockPair).toUInt64 = (n + 1).toUInt64 ∧
      notifyConsensusAlgos handlers (node.persistence.blocks.take n).getLast? blockPair .verifyAndUpdate false = none

variable (protocol versions handlers) in
/-- The invariant of a node: its chain well formed and linked, and the block pair the sync
goroutine is about to commit validated. -/
structure SyncInvariant (node : Node) : Prop where
  chain : WellFormedChain protocol versions node.persistence.blocks
  linked : Linked handlers node.persistence.blocks
  validated : Validated protocol versions handlers node

theorem toUInt64_succ (n : Nat) : (n + 1).toUInt64 = n.toUInt64 + 1 := by
  rw [← UInt64.toNat_inj]
  simp only [UInt64.toNat_ofNat', UInt64.toNat_add, UInt64.toNat_one]
  omega

/-- A validation against the current chain leaves the goroutine with what `Validated` asks. -/
theorem validated_of_validate {bp : InMemoryBlockPersistence} {b : BlockPairContainer}
    (chain : WellFormedChain protocol versions bp.blocks) (valid : validateBlockForCommit protocol versions handlers bp b false = none) :
    ∃ n ≤ bp.blocks.length, validateProtocolVersion versions b = none ∧ (txHeight protocol b).toUInt64 = (n + 1).toUInt64 ∧
      notifyConsensusAlgos handlers (bp.blocks.take n).getLast? b .verifyAndUpdate false = none := by
  obtain ⟨versionsOk, -, height, accepted⟩ := validateBlockForCommit_eq_none valid
  refine ⟨bp.blocks.length, le_rfl, versionsOk, ?_, ?_⟩
  · rw [height, chain.getBlockHeight_getLastBlock, toUInt64_succ]
  · rwa [List.take_length]

/-- A commit keeps the chain linked when the block pair, if it is appended, was accepted against
the last stored one. -/
theorem Linked.commitBlock {bp bp' : InMemoryBlockPersistence} {b : BlockPairContainer} {err : Option String}
    (linked : Linked handlers bp.blocks)
    (accepted : validateProtocolVersion versions b = none → txHeight protocol b = bp.blocks.length + 1 →
      notifyConsensusAlgos handlers bp.blocks.getLast? b .verifyAndUpdate false = none)
    (committed : commitBlock protocol versions bp b = some (bp', err)) : Linked handlers bp'.blocks := by
  rw [commitBlock_blocks committed]
  split_ifs with appended
  · exact linked.append (accepted appended.1 appended.2)
  · exact linked

/-- A block pair validated when the chain had `n` blocks is appended only if the chain still has
`n` blocks: its height, taken in uint64, is `n + 1`. -/
theorem eq_length_of_validated {b : BlockPairContainer} {n length : Nat}
    (heightsLt : ∀ raw, protocol.transactionsBlockHeight raw < 2 ^ 64) (within : n ≤ length)
    (height : (txHeight protocol b).toUInt64 = (n + 1).toUInt64) (next : txHeight protocol b = length + 1) :
    n = length := by
  have heightLt : txHeight protocol b < 2 ^ 64 := heightsLt b.transactionsBlock.header
  rw [← UInt64.toNat_inj, UInt64.toNat_ofNat', UInt64.toNat_ofNat'] at height
  omega

/-- A commit keeps what the sync goroutine knows of the block pair it is about to commit. -/
theorem validated_of_prefix {bp bp' : InMemoryBlockPersistence} {b : BlockPairContainer} {n : Nat}
    (grows : bp.blocks <+: bp'.blocks)
    (known : n ≤ bp.blocks.length ∧ validateProtocolVersion versions b = none ∧ (txHeight protocol b).toUInt64 = (n + 1).toUInt64 ∧
      notifyConsensusAlgos handlers (bp.blocks.take n).getLast? b .verifyAndUpdate false = none) :
    n ≤ bp'.blocks.length ∧ validateProtocolVersion versions b = none ∧ (txHeight protocol b).toUInt64 = (n + 1).toUInt64 ∧
      notifyConsensusAlgos handlers (bp'.blocks.take n).getLast? b .verifyAndUpdate false = none := by
  obtain ⟨within, versionsOk, height, accepted⟩ := known
  obtain ⟨added, grown⟩ := grows
  rw [← grown]
  refine ⟨within.trans (by simp), versionsOk, height, ?_⟩
  rwa [List.take_append_of_le_length within]

variable (protocol versions config blockTypeBlockPair handlers) in
/-- The nodes that steps lead to from `node` when the consensus algorithm commits only block pairs
that the registered handlers accept against the last stored one, and the context does not end
while block storage validates a block pair for sync. -/
def Node.ReachesAccepting (node : Node) : Node → Prop :=
  Relation.ReflTransGen (fun node node' => ∃ event,
    node.step protocol versions config blockTypeBlockPair handlers event = node' ∧
      (∀ blockPair, event = .commitBlock blockPair →
        notifyConsensusAlgos handlers node.persistence.getLastBlock blockPair .verifyAndUpdate false = none) ∧
      event ≠ .sync (.conduitEmpty true)) node

section Invariant

variable (heightsLt : ∀ raw, protocol.transactionsBlockHeight raw < 2 ^ 64)

include heightsLt

omit heightsLt in
/-- A concurrent commit of the consensus algorithm, of a block pair accepted against the last stored
one, keeps the invariant. -/
theorem SyncInvariant.commitBlock {node : Node} (inv : SyncInvariant protocol versions handlers node)
    {blockPair : BlockPairContainer}
    (accepted : notifyConsensusAlgos handlers node.persistence.getLastBlock blockPair .verifyAndUpdate false = none) :
    SyncInvariant protocol versions handlers
      (node.step protocol versions config blockTypeBlockPair handlers (.commitBlock blockPair)) := by
  cases committed : BlockStorage.commitBlock protocol versions node.persistence blockPair with
  | none => simpa [Node.step, committed] using inv
  | some result =>
    obtain ⟨bp', err⟩ := result
    have stepped : node.step protocol versions config blockTypeBlockPair handlers (.commitBlock blockPair) =
        ⟨node.sync, bp'⟩ := by
      simp [Node.step, committed]
    obtain ⟨chain', grows⟩ := inv.chain.commitBlock committed
    rw [stepped]
    refine ⟨chain', inv.linked.commitBlock (fun _ _ => accepted) committed, ?_⟩
    intro b rest atCommit
    obtain ⟨n, within, known⟩ := inv.validated b rest atCommit
    obtain ⟨within', known'⟩ := validated_of_prefix grows ⟨within, known⟩
    exact ⟨n, within', known'⟩

/-- The sync goroutine's commit of the block pair it validated keeps the invariant. -/
theorem SyncInvariant.syncCommit {node : Node} (inv : SyncInvariant protocol versions handlers node)
    {blockPair : BlockPairContainer} {rest : List BlockPairContainer} {bp' : InMemoryBlockPersistence}
    {err : Option String} (atCommit : node.sync = some (.processingCommit blockPair rest))
    (committed : BlockStorage.commitBlock protocol versions node.persistence blockPair = some (bp', err)) :
    SyncInvariant protocol versions handlers
      (node.step protocol versions config blockTypeBlockPair handlers (.sync .proceed)) := by
  obtain ⟨n, within, -, height, accepted⟩ := inv.validated blockPair rest atCommit
  have linked' := inv.linked.commitBlock (fun _ next => by
    rwa [eq_length_of_validated heightsLt within height next, List.take_length] at accepted) committed
  -- after the commit the goroutine drains again: there is no block pair it is about to commit
  cases err with
  | none =>
    have stepped : node.step protocol versions config blockTypeBlockPair handlers (.sync .proceed) =
        ⟨some (.processingBlocks rest), bp'⟩ := by
      simp [Node.step, atCommit, SyncState.step, committed]
    rw [stepped]
    exact ⟨(inv.chain.commitBlock committed).1, linked', by simp [Validated]⟩
  | some err =>
    have stepped : node.step protocol versions config blockTypeBlockPair handlers (.sync .proceed) =
        ⟨some (.processingBlocks []), bp'⟩ := by
      simp [Node.step, atCommit, SyncState.step, committed]
    rw [stepped]
    exact ⟨(inv.chain.commitBlock committed).1, linked', by simp [Validated]⟩

theorem SyncInvariant.step {node : Node} (inv : SyncInvariant protocol versions handlers node) (event : Event)
    (accepting : ∀ blockPair, event = .commitBlock blockPair →
      notifyConsensusAlgos handlers node.persistence.getLastBlock blockPair .verifyAndUpdate false = none)
    (live : event ≠ .sync (.conduitEmpty true)) :
    SyncInvariant protocol versions handlers (node.step protocol versions config blockTypeBlockPair handlers event) := by
  cases event with
  | commitBlock blockPair => exact inv.commitBlock (accepting blockPair rfl)
  | sync event =>
    cases atState : node.sync with
    | none => simpa [Node.step, atState] using inv
    | some state =>
      rcases @SyncState.step_persistence protocol versions config blockTypeBlockPair handlers state node.persistence event
        with same | ⟨blockPair, rest, err, rfl, rfl, committed⟩
      · have stepped : node.step protocol versions config blockTypeBlockPair handlers (.sync event) =
            ⟨(state.step protocol versions config blockTypeBlockPair handlers node.persistence event).1,
              node.persistence⟩ := by
          simp only [Node.step, atState, same]
        rw [stepped]
        refine ⟨inv.chain, inv.linked, fun blockPair rest next => ?_⟩
        rcases SyncState.step_processingCommit next with ⟨rfl, -⟩ | ⟨contextDone, -, rfl, valid, -⟩
        · exact inv.validated blockPair rest atState
        · -- the context was live through the validation, so its verdict is the handlers'
          have live : contextDone = false := by simpa using live
          subst live
          exact validated_of_validate inv.chain valid
      · exact inv.syncCommit heightsLt atState committed

theorem SyncInvariant.reachesAccepting {node₀ node : Node} (inv : SyncInvariant protocol versions handlers node₀)
    (run : node₀.ReachesAccepting protocol versions config blockTypeBlockPair handlers node) :
    SyncInvariant protocol versions handlers node := by
  induction run with
  | refl => exact inv
  | tail _ step ih =>
    obtain ⟨event, rfl, accepting, live⟩ := step
    exact ih.step heightsLt event accepting live

end Invariant

theorem notifyConsensusAlgos_contextDone (prevBlockPair : Option BlockPairContainer) (blockPair : BlockPairContainer)
    (mode : HandleBlockConsensusMode) : notifyConsensusAlgos handlers prevBlockPair blockPair mode true = none := by
  simp [notifyConsensusAlgos]

/-- Once the context has ended, a block pair of the next height with the protocol version passes
`ValidateBlockForCommit`, whatever the consensus algorithms answer. -/
theorem validateBlockForCommit_contextDone {bp : InMemoryBlockPersistence} {b : BlockPairContainer}
    (chain : WellFormedChain protocol versions bp.blocks) (versionsOk : validateProtocolVersion versions b = none)
    (next : txHeight protocol b = bp.blocks.length + 1)
    (sameHeight : protocol.resultsBlockHeight b.resultsBlock.header = txHeight protocol b) :
    validateBlockForCommit protocol versions handlers bp b true = none := by
  have consecutive : validateConsecutiveBlockHeight protocol b bp.getLastBlock = none := by
    unfold validateConsecutiveBlockHeight
    rw [chain.getBlockHeight_getLastBlock, ← toUInt64_succ, ← next, sameHeight]
    simp
  simp only [validateBlockForCommit, versionsOk, consecutive, notifyConsensusAlgos_contextDone]

/-- On shutdown block sync commits a block pair that no consensus algorithm accepted: when the
context ends while block storage validates a block pair of the next height with the protocol
version, `notifyConsensusAlgos` does not report the refusals, and the sync goroutine goes on to
commit the block pair, whatever the registered consensus algorithms answered. -/
theorem node_sync_commits_refused_on_shutdown {bp : InMemoryBlockPersistence} {b : BlockPairContainer}
    (chain : WellFormedChain protocol versions bp.blocks) (lengthLt : bp.blocks.length + 2 < 2 ^ 64)
    (versionsOk : validateProtocolVersion versions b = none) (next : txHeight protocol b = bp.blocks.length + 1)
    (sameHeight : protocol.resultsBlockHeight b.resultsBlock.header = txHeight protocol b) (rest : List BlockPairContainer) :
    (((⟨some (.processingBlocks (b :: rest)), bp⟩ : Node).step protocol versions config blockTypeBlockPair handlers
        (.sync (.conduitEmpty true))).step protocol versions config blockTypeBlockPair handlers (.sync .proceed)) =
      ⟨some (.processingBlocks rest), ⟨bp.blocks ++ [b]⟩⟩ := by
  have valid := @validateBlockForCommit_contextDone protocol versions handlers bp b chain versionsOk next sameHeight
  have committed := commitBlock_of_next versionsOk lengthLt next sameHeight
  simp only [Node.step, SyncState.step, valid, committed]

/-- Every consensus algorithm refuses, and the context ends during the validation of the first
block pair. -/
theorem node_sync_commits_refused_on_shutdown_first :
    (((⟨some (.processingBlocks [numberedBlock 1]), ⟨[]⟩⟩ : Node).step firstByteProtocol versionOne batchOfTen 1
        [fun _ _ _ => some "refused"] (.sync (.conduitEmpty true))).step firstByteProtocol versionOne batchOfTen 1
        [fun _ _ _ => some "refused"] (.sync .proceed)) =
      ⟨some (.processingBlocks []), ⟨[] ++ [numberedBlock 1]⟩⟩ :=
  node_sync_commits_refused_on_shutdown wellFormedChain_nil (by decide) rfl rfl rfl []

section Round

variable (protocol versions handlers) in
/-- Each block pair of `q` passes `ValidateBlockForCommit` on the chain `bp` followed by the block
pairs of `q` before it. -/
def ValidatesInTurn (bp : InMemoryBlockPersistence) (q : List BlockPairContainer) : Prop :=
  ∀ i (within : i < q.length), validateBlockForCommit protocol versions handlers ⟨bp.blocks ++ q.take i⟩ q[i] false = none

theorem validatesInTurn_cons {bp : InMemoryBlockPersistence} {b : BlockPairContainer} {q : List BlockPairContainer} :
    ValidatesInTurn protocol versions handlers bp (b :: q) ↔
      validateBlockForCommit protocol versions handlers bp b false = none ∧
        ValidatesInTurn protocol versions handlers ⟨bp.blocks ++ [b]⟩ q := by
  constructor
  · intro valid
    have first := valid 0 (by simp)
    rw [List.take_zero, List.append_nil] at first
    refine ⟨first, fun i within => ?_⟩
    rw [List.append_assoc, List.singleton_append]
    exact valid (i + 1) (by simp [within])
  · rintro ⟨first, later⟩ i within
    cases i with
    | zero => rwa [List.take_zero, List.append_nil]
    | succ i =>
      have next := later i (by simpa using within)
      rwa [List.append_assoc, List.singleton_append] at next

/-- The answers of a processing round that nothing interrupts: for each block pair an empty
conduit and the run on to its commit, and a last empty conduit. -/
def processingRound (n : Nat) : List Event :=
  (List.replicate n [.sync (.conduitEmpty false), .sync .proceed]).flatten ++ [.sync (.conduitEmpty false)]

/-- Collecting, the goroutine waits for its broadcast and lets the answers of a round pass. -/
theorem foldl_step_collectingBroadcast (bp : InMemoryBlockPersistence) (events : List Event)
    (quiet : ∀ event ∈ events, event = .sync (.conduitEmpty false) ∨ event = .sync .proceed) :
    events.foldl (Node.step protocol versions config blockTypeBlockPair handlers) ⟨some .collectingBroadcast, bp⟩ =
      ⟨some .collectingBroadcast, bp⟩ := by
  induction events with
  | nil => rfl
  | cons event events ih =>
    rcases quiet event List.mem_cons_self with rfl | rfl <;>
    · rw [List.foldl_cons]
      exact ih fun e member => quiet e (List.mem_cons_of_mem _ member)

theorem processingRound_quiet (n : Nat) :
    ∀ event ∈ processingRound n, event = .sync (.conduitEmpty false) ∨ event = .sync .proceed := by
  intro event member
  simp only [processingRound, List.mem_append, List.mem_flatten, List.mem_replicate, List.mem_singleton] at member
  rcases member with ⟨l, ⟨-, rfl⟩, inPair⟩ | rfl
  · simpa using inPair
  · exact .inl rfl

/-- After a refused block pair the round only drains once more and returns to collecting. -/
theorem foldl_processingRound_of_break (bp : InMemoryBlockPersistence) (n : Nat) :
    (processingRound n).foldl (Node.step protocol versions config blockTypeBlockPair handlers)
      ⟨some (.processingBlocks []), bp⟩ = ⟨some .collectingBroadcast, bp⟩ := by
  cases n with
  | zero => rfl
  | succ n =>
    have later := processingRound_quiet n
    simp only [processingRound, List.replicate_succ, List.flatten_cons, List.cons_append, List.foldl_cons]
    exact foldl_step_collectingBroadcast bp _ (by simpa [processingRound] using later)

/-- On a chain that nothing else extends, a block pair that validates is committed. -/
theorem commitBlock_of_validate {bp : InMemoryBlockPersistence} {b : BlockPairContainer}
    (heightsLt : ∀ raw, protocol.transactionsBlockHeight raw < 2 ^ 64)
    (resultsHeightsLt : ∀ raw, protocol.resultsBlockHeight raw < 2 ^ 64)
    (chain : WellFormedChain protocol versions bp.blocks) (lengthLt : bp.blocks.length + 2 < 2 ^ 64)
    (valid : validateBlockForCommit protocol versions handlers bp b false = none) :
    BlockStorage.commitBlock protocol versions bp b = some (⟨bp.blocks ++ [b]⟩, none) := by
  obtain ⟨versionsOk, sameHeight, nextHeight, -⟩ := validateBlockForCommit_eq_none valid
  have txLt : txHeight protocol b < 2 ^ 64 := heightsLt _
  have rsLt := resultsHeightsLt b.resultsBlock.header
  rw [chain.getBlockHeight_getLastBlock, ← toUInt64_succ] at nextHeight
  rw [← UInt64.toNat_inj, UInt64.toNat_ofNat', UInt64.toNat_ofNat'] at sameHeight nextHeight
  exact commitBlock_of_next versionsOk lengthLt (by omega) (by omega)

/-- A processing round that nothing interrupts commits the longest prefix of the received block
pairs that pass `ValidateBlockForCommit` one after the other, drops the rest, and returns to
collecting. -/
theorem processingRound_commits (heightsLt : ∀ raw, protocol.transactionsBlockHeight raw < 2 ^ 64)
    (resultsHeightsLt : ∀ raw, protocol.resultsBlockHeight raw < 2 ^ 64) (bs : List BlockPairContainer)
    (bp : InMemoryBlockPersistence) (chain : WellFormedChain protocol versions bp.blocks)
    (lengthLt : bp.blocks.length + bs.length + 2 < 2 ^ 64) :
    ∃ p, List.IsLongestPrefix (ValidatesInTurn protocol versions handlers bp) p bs ∧
      (processingRound bs.length).foldl (Node.step protocol versions config blockTypeBlockPair handlers)
        ⟨some (.processingBlocks bs), bp⟩ = ⟨some .collectingBroadcast, ⟨bp.blocks ++ p⟩⟩ := by
  induction bs generalizing bp with
  | nil =>
    refine ⟨[], List.isLongestPrefix_self nofun, ?_⟩
    rw [List.append_nil]
    rfl
  | cons b rest ih =>
    have roundSucc : processingRound (rest.length + 1) =
        .sync (.conduitEmpty false) :: .sync .proceed :: processingRound rest.length := by
      simp [processingRound, List.replicate_succ]
    rw [List.length_cons, roundSucc, List.foldl_cons, List.foldl_cons]
    by_cases valid : validateBlockForCommit protocol versions handlers bp b false = none
    · -- the block pair is committed and the round goes on with the rest on the longer chain
      have committed := commitBlock_of_validate heightsLt resultsHeightsLt chain (by omega) valid
      obtain ⟨versionsOk, -, -, -⟩ := validateBlockForCommit_eq_none valid
      have next : txHeight protocol b = bp.blocks.length + 1 := by
        have := (BlockStorage.commitBlock_blocks committed)
        split_ifs at this with appended
        · exact appended.2
        · simp at this
      have longerLt : (bp.blocks ++ [b]).length + rest.length + 2 < 2 ^ 64 := by
        rw [List.length_cons] at lengthLt
        rw [List.length_append, List.length_singleton]
        omega
      obtain ⟨p, longest, round⟩ := ih ⟨bp.blocks ++ [b]⟩ (chain.append versionsOk next) longerLt
      refine ⟨b :: p, List.isLongestPrefix_cons (fun q => by rw [validatesInTurn_cons]; simp [valid]) longest, ?_⟩
      simp only [Node.step, SyncState.step, valid, committed]
      rw [round, List.append_assoc, List.singleton_append]
    · -- validation fails: the loop breaks and nothing of the batch is committed
      refine ⟨[], List.isLongestPrefix_nil nofun fun q inTurn => valid (validatesInTurn_cons.mp inTurn).1, ?_⟩
      obtain ⟨err, refused⟩ := Option.ne_none_iff_exists'.mp valid
      simp only [Node.step, SyncState.step, refused]
      rw [List.append_nil]
      exact foldl_processingRound_of_break bp rest.length

theorem processingRound_commits_gap :
    ∃ p, List.IsLongestPrefix (ValidatesInTurn firstByteProtocol versionOne [fun _ _ _ => none] ⟨[]⟩) p
        [numberedBlock 1, numberedBlock 3] ∧
      (processingRound 2).foldl (Node.step firstByteProtocol versionOne batchOfTen 1 [fun _ _ _ => none])
        ⟨some (.processingBlocks [numberedBlock 1, numberedBlock 3]), ⟨[]⟩⟩ = ⟨some .collectingBroadcast, ⟨[] ++ p⟩⟩ :=
  processingRound_commits firstByteProtocol_heights_lt firstByteProtocol_results_heights_lt _ _ wellFormedChain_nil
    (by decide)

end Round

end Machine

end OrbsNetwork.BlockStorage
