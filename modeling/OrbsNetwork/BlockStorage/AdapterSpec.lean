import OrbsNetwork.BlockStorage.ScanSpec
import OrbsNetwork.Library.FirstHit

namespace OrbsNetwork.BlockStorage

open ByteStream Paging

/-- `WriteNextBlock` of each of `blocks` in turn on the in-memory persistence: the persistence at
the end and the reply of every call. -/
def InMemoryBlockPersistence.writeBlocks (protocol : Protocol) (bp : InMemoryBlockPersistence) :
    List BlockPairContainer → InMemoryBlockPersistence × List (Bool × Nat × Option String)
  | [] => (bp, [])
  | b :: bs =>
    let (bp, reply) := bp.writeNextBlock protocol b
    let (bp, replies) := bp.writeBlocks protocol bs
    (bp, reply :: replies)

section Agreement

variable (protocol : Protocol) (crc32c : Bytes → UInt32) (conf : FilesystemBlockPersistenceConfig)

/-- The block pairs that the write calls may pass: each with one height and one timestamp in its
two headers, header counts that match its lists and an encoding within the size limit, and
timestamps that do not decrease with height. -/
structure WellFormedCalls (calls : List BlockPairContainer) : Prop where
  heights : ∀ b ∈ calls,
    protocol.transactionsBlockHeight b.transactionsBlock.header = protocol.resultsBlockHeight b.resultsBlock.header
  timestamps : ∀ b ∈ calls,
    protocol.transactionsTimestamp b.transactionsBlock.header = protocol.resultsTimestamp b.resultsBlock.header
  counts : ∀ b ∈ calls, CountsMatch protocol b
  fits : ∀ b ∈ calls, (b.fullBlock crc32c).length ≤ conf.blockStorageFileSystemMaxBlockSizeInBytes.toNat
  monotone : ∀ b ∈ calls, ∀ b' ∈ calls,
    protocol.resultsBlockHeight b.resultsBlock.header < protocol.resultsBlockHeight b'.resultsBlock.header →
      protocol.resultsTimestamp b.resultsBlock.header ≤ protocol.resultsTimestamp b'.resultsBlock.header

/-- The two persistences after the same write calls, all from `calls`: the memory holds a chain of
blocks of `calls`, and the blocks file holds the header and that chain, indexed. -/
structure Agree (calls : List BlockPairContainer) (f : BlockPersistence) (m : InMemoryBlockPersistence) : Prop where
  holds : Holds protocol crc32c f (conf.fileHeader.write crc32c) m.blocks []
  codec : f.codec = newCodec conf.blockStorageFileSystemMaxBlockSizeInBytes
  heights : ∀ i (h : i < m.blocks.length), protocol.resultsBlockHeight m.blocks[i].resultsBlock.header = i + 1
  subset : ∀ b ∈ m.blocks, b ∈ calls

variable {protocol crc32c conf}

theorem WellFormedCalls.encodable {calls : List BlockPairContainer} (wf : WellFormedCalls protocol crc32c conf calls)
    {b : BlockPairContainer} (member : b ∈ calls) :
    Encodable protocol crc32c (newCodec conf.blockStorageFileSystemMaxBlockSizeInBytes) b :=
  ⟨wf.counts b member, wf.fits b member⟩

theorem Agree.chain {calls : List BlockPairContainer} {f : BlockPersistence} {m : InMemoryBlockPersistence}
    (wf : WellFormedCalls protocol crc32c conf calls) (agree : Agree protocol crc32c conf calls f m) :
    Chain protocol crc32c f.codec m.blocks :=
  ⟨agree.heights, fun b member => agree.codec ▸ wf.encodable (agree.subset b member)⟩

/-- The timestamps of the chain do not decrease along it. -/
theorem Agree.sorted {calls : List BlockPairContainer} {f : BlockPersistence} {m : InMemoryBlockPersistence}
    (wf : WellFormedCalls protocol crc32c conf calls) (agree : Agree protocol crc32c conf calls f m) :
    m.blocks.Pairwise fun b b' => protocol.resultsTimestamp b.resultsBlock.header ≤ protocol.resultsTimestamp b'.resultsBlock.header := by
  rw [List.pairwise_iff_getElem]
  intro i j hi hj before
  apply wf.monotone _ (agree.subset _ (List.getElem_mem hi)) _ (agree.subset _ (List.getElem_mem hj))
  rw [agree.heights i hi, agree.heights j hj]
  omega

/-- One write call on both persistences: the same reply, and they still agree. A block of the
next height is appended by both; any other is refused by both. -/
theorem writeNextBlock_agree {calls : List BlockPairContainer} {f : BlockPersistence} {m : InMemoryBlockPersistence}
    (wf : WellFormedCalls protocol crc32c conf calls) (agree : Agree protocol crc32c conf calls f m)
    {b : BlockPairContainer} (member : b ∈ calls) :
    ∃ f', f.writeNextBlock protocol crc32c b = some (f', (m.writeNextBlock protocol b).2) ∧
      Agree protocol crc32c conf calls f' (m.writeNextBlock protocol b).1 := by
  have top : f.bhIndex.topBlockHeight = m.blocks.length := by rw [agree.holds.bhIndex]; rfl
  by_cases next : protocol.resultsBlockHeight b.resultsBlock.header = m.blocks.length + 1
  · obtain ⟨f', step, codec, holds⟩ := writeNextBlock_holds protocol crc32c agree.holds next
      (agree.codec ▸ wf.encodable member) (by simp)
    have accepted : m.writeNextBlock protocol b = (⟨m.blocks ++ [b]⟩, true, m.blocks.length + 1, none) := by
      simp [InMemoryBlockPersistence.writeNextBlock, wf.heights b member, next]
    refine ⟨f', by rw [step, accepted], ?_⟩
    rw [accepted]
    refine ⟨holds, codec.trans agree.codec, fun i h => ?_, fun b' inside => ?_⟩
    · by_cases old : i < m.blocks.length
      · simpa [List.getElem_append_left old] using agree.heights i old
      · have last : i = m.blocks.length := by simp at h; omega
        subst last
        simpa using next
    · rcases List.mem_append.mp inside with old | new
      · exact agree.subset b' old
      · rw [List.mem_singleton.mp new]
        exact member
  · have refused : m.writeNextBlock protocol b = (m, false, m.blocks.length, none) := by
      simp [InMemoryBlockPersistence.writeNextBlock, wf.heights b member, Ne.symm next]
    refine ⟨f, ?_, by rw [refused]; exact agree⟩
    simp [BlockPersistence.writeNextBlock, top, next, refused]

/-- A run of write calls on both persistences gives the same replies and leaves them agreeing.
The induction is on the calls, each step `writeNextBlock_agree`. -/
theorem writeBlocks_agree {calls : List BlockPairContainer} {f : BlockPersistence} {m : InMemoryBlockPersistence}
    (wf : WellFormedCalls protocol crc32c conf calls) (agree : Agree protocol crc32c conf calls f m)
    (run : List BlockPairContainer) (within : ∀ b ∈ run, b ∈ calls) :
    ∃ f', f.writeBlocks protocol crc32c run = some (f', (m.writeBlocks protocol run).2) ∧
      Agree protocol crc32c conf calls f' (m.writeBlocks protocol run).1 := by
  induction run generalizing f m with
  | nil => exact ⟨f, rfl, agree⟩
  | cons b run ih =>
    obtain ⟨f', step, agree'⟩ := writeNextBlock_agree wf agree (within b (by simp))
    obtain ⟨f'', rest, agree''⟩ := ih agree' (fun b' member => within b' (by simp [member]))
    refine ⟨f'', ?_, agree''⟩
    simp [BlockPersistence.writeBlocks, InMemoryBlockPersistence.writeBlocks, step, rest]

end Agreement

section Buckets

theorem blockTsBucketKey_of_lt {nano : Nat} (short : nano < 2 ^ 64) :
    blockTsBucketKey nano = nano / minuteToNanoRatio := by
  have room : (2 : Nat) ^ 64 ≤ minuteToNanoRatio * 2 ^ 32 := by norm_num [minuteToNanoRatio]
  rw [blockTsBucketKey, uint32_of_lt (Nat.div_lt_of_lt_mul (lt_of_lt_of_le short room))]

theorem blockTsBucketKey_le {a b : Nat} (le : a ≤ b) (short : b < 2 ^ 64) :
    blockTsBucketKey a ≤ blockTsBucketKey b := by
  rw [blockTsBucketKey_of_lt (lt_of_le_of_lt le short), blockTsBucketKey_of_lt short]
  exact Nat.div_le_div_right le

theorem lt_of_blockTsBucketKey_lt {a b : Nat} (shortA : a < 2 ^ 64) (shortB : b < 2 ^ 64)
    (before : blockTsBucketKey a < blockTsBucketKey b) : a < b := by
  rw [blockTsBucketKey_of_lt shortA, blockTsBucketKey_of_lt shortB] at before
  exact Nat.lt_of_div_lt_div before

end Buckets

section Transactions

variable (protocol : Protocol)

/-- What `GetBlockByTx` finds in a block: the first receipt with the hash, in a block whose results
timestamp is in the range. -/
def txHit (txHash : Bytes) (minBlockTs maxBlockTs : Nat) (b : BlockPairContainer) : Option (BlockPairContainer × Nat) :=
  if minBlockTs ≤ protocol.resultsTimestamp b.resultsBlock.header ∧
      protocol.resultsTimestamp b.resultsBlock.header ≤ maxBlockTs then
    (b.resultsBlock.transactionReceipts.findIdx? fun receipt => protocol.txhash receipt == txHash).map (b, ·)
  else none

/-- The cursor of `GetBlockByTx`, shown blocks in timestamp order one a page, keeps the first hit.
It stops at the first block past the range, and no block after that one is in the range. -/
theorem deliver_txCursor (txHash : Bytes) (minBlockTs maxBlockTs first : Nat) (bs : List BlockPairContainer)
    (sorted : bs.Pairwise fun b b' =>
      protocol.resultsTimestamp b.resultsBlock.header ≤ protocol.resultsTimestamp b'.resultsBlock.header) :
    deliver (txCursor protocol txHash minBlockTs maxBlockTs) first (bs.map fun b => [b]) none =
      bs.findSome? (txHit protocol txHash minBlockTs maxBlockTs) := by
  induction bs generalizing first with
  | nil => rfl
  | cons b bs ih =>
    obtain ⟨later, sorted⟩ := List.pairwise_cons.mp sorted
    rw [List.map_cons, deliver_cons, List.findSome?_cons]
    by_cases past : maxBlockTs < protocol.resultsTimestamp b.resultsBlock.header
    · have none_later : bs.findSome? (txHit protocol txHash minBlockTs maxBlockTs) = none :=
        List.findSome?_eq_none_iff.mpr fun b' member => by
          have := later b' member
          simp only [txHit]
          rw [if_neg (by omega)]
      have outside : ¬ protocol.resultsTimestamp b.resultsBlock.header ≤ maxBlockTs := by omega
      simp [txCursor, past, txHit, outside, none_later]
    · by_cases early : protocol.resultsTimestamp b.resultsBlock.header < minBlockTs
      · have outside : ¬ minBlockTs ≤ protocol.resultsTimestamp b.resultsBlock.header := by omega
        simp [txCursor, past, early, txHit, outside, ih _ sorted]
      · have inside : minBlockTs ≤ protocol.resultsTimestamp b.resultsBlock.header ∧
            protocol.resultsTimestamp b.resultsBlock.header ≤ maxBlockTs := ⟨by omega, by omega⟩
        cases found : b.resultsBlock.transactionReceipts.findIdx? fun receipt => protocol.txhash receipt == txHash with
        | none => simp [txCursor, past, early, txHit, inside, found, ih _ sorted]
        | some i => simp [txCursor, past, early, txHit, inside, found]

theorem indexedIn_of_txHit {txHash : Bytes} {minBlockTs maxBlockTs : Nat} {b : BlockPairContainer}
    (counts : CountsMatch protocol b) {hit : BlockPairContainer × Nat}
    (found : txHit protocol txHash minBlockTs maxBlockTs b = some hit) :
    indexedIn protocol (blockTsBucketKey (protocol.resultsTimestamp b.resultsBlock.header)) b = true ∧
      minBlockTs ≤ protocol.resultsTimestamp b.resultsBlock.header ∧
      protocol.resultsTimestamp b.resultsBlock.header ≤ maxBlockTs := by
  simp only [txHit] at found
  split_ifs at found with inRange
  obtain ⟨i, atI, -⟩ := Option.map_eq_some_iff.mp found
  obtain ⟨bound, -, -⟩ := List.findIdx?_eq_some_iff_getElem.mp atI
  refine ⟨?_, inRange⟩
  simp only [indexedIn, counts.receipts, Bool.and_eq_true, decide_eq_true_eq, beq_self_eq_true, and_true]
  omega

end Transactions

section Index

variable (protocol : Protocol) (crc32c : Bytes → UInt32) (first : Nat) (chain : List BlockPairContainer)

theorem firstBlockInTsBucket_of_indexedIn {key j : Nat} (within : j < chain.length)
    (indexed : indexedIn protocol key chain[j] = true) :
    ∃ i ≤ j, (chainIndex protocol crc32c first chain).firstBlockInTsBucket key = some (i + 1) := by
  obtain ⟨i, found⟩ : ∃ i, chain.findIdx? (indexedIn protocol key) = some i :=
    Option.isSome_iff_exists.mp (by
      simp only [List.findIdx?_isSome, List.any_eq_true]
      exact ⟨chain[j], List.getElem_mem within, indexed⟩)
  obtain ⟨bound, -, before⟩ := List.findIdx?_eq_some_iff_getElem.mp found
  refine ⟨i, ?_, by simp [chainIndex, found]⟩
  by_contra later
  exact before j (by omega) indexed

theorem indexedIn_of_firstBlockInTsBucket {key s : Nat}
    (found : (chainIndex protocol crc32c first chain).firstBlockInTsBucket key = some s) :
    ∃ within : s - 1 < chain.length, 1 ≤ s ∧ indexedIn protocol key chain[s - 1] = true ∧
      ∀ j (before : j < s - 1), indexedIn protocol key (chain[j]) = false := by
  simp only [chainIndex, Option.map_eq_some_iff] at found
  obtain ⟨i, atI, rfl⟩ := found
  obtain ⟨within, indexed, before⟩ := List.findIdx?_eq_some_iff_getElem.mp atI
  exact ⟨by simpa using within, by omega, by simpa using indexed, fun j short => by simpa using before j (by simpa using short)⟩

variable {protocol chain}

theorem earliest_bounds {minBlockTs maxBlockTs s : Nat}
    (earliest : (chainIndex protocol crc32c first chain).getEarliestTxBlockInBucketForTsRange minBlockTs maxBlockTs = some s) :
    1 ≤ s ∧ s ≤ chain.length := by
  simp only [BlockHeightIndex.getEarliestTxBlockInBucketForTsRange] at earliest
  obtain ⟨k, -, -, atK, -⟩ := List.findSome?_range'_eq_some earliest
  obtain ⟨bound, positive, -⟩ := indexedIn_of_firstBlockInTsBucket protocol crc32c first chain atK
  omega

/-- A hit at block `j + 1` of a chain in timestamp order means that the buckets of the range name a
block at or before it: the first block of the first bucket of the range that has one. -/
theorem earliest_le_of_txHit
    (sorted : chain.Pairwise fun b b' =>
      protocol.resultsTimestamp b.resultsBlock.header ≤ protocol.resultsTimestamp b'.resultsBlock.header)
    (counts : ∀ b ∈ chain, CountsMatch protocol b) {txHash : Bytes} {minBlockTs maxBlockTs : Nat}
    (maxShort : maxBlockTs < 2 ^ 64) {j : Nat} (within : j < chain.length) {hit : BlockPairContainer × Nat}
    (found : txHit protocol txHash minBlockTs maxBlockTs chain[j] = some hit) :
    ∃ s, (chainIndex protocol crc32c first chain).getEarliestTxBlockInBucketForTsRange minBlockTs maxBlockTs = some s ∧
      s ≤ j + 1 := by
  obtain ⟨indexed, low, high⟩ := indexedIn_of_txHit protocol (counts _ (List.getElem_mem within)) found
  have tsShort := protocol.resultsTimestamp_lt chain[j].resultsBlock.header
  have fromLe := blockTsBucketKey_le low tsShort
  have leTo := blockTsBucketKey_le high maxShort
  obtain ⟨i, -, entry⟩ := firstBlockInTsBucket_of_indexedIn protocol crc32c first chain within indexed
  simp only [BlockHeightIndex.getEarliestTxBlockInBucketForTsRange]
  -- the bucket of block `j + 1` is in the range and has a block, so the scan of the buckets stops
  have stops : (List.range' (blockTsBucketKey minBlockTs) (blockTsBucketKey maxBlockTs + 1 - blockTsBucketKey minBlockTs)).findSome?
      (chainIndex protocol crc32c first chain).firstBlockInTsBucket ≠ none := by
    rw [ne_eq, List.findSome?_eq_none_iff]
    intro none_all
    have := none_all _ (List.mem_range'_1.mpr ⟨fromLe, by omega⟩)
    rw [entry] at this
    contradiction
  obtain ⟨s, earliest⟩ := Option.ne_none_iff_exists'.mp stops
  refine ⟨s, earliest, ?_⟩
  obtain ⟨k, kLow, -, atK, none_before⟩ := List.findSome?_range'_eq_some earliest
  have keyLe : k ≤ blockTsBucketKey (protocol.resultsTimestamp chain[j].resultsBlock.header) := by
    by_contra after
    have := none_before _ fromLe (by omega)
    rw [entry] at this
    contradiction
  obtain ⟨bound, -, indexedK, first_in_k⟩ := indexedIn_of_firstBlockInTsBucket protocol crc32c first chain atK
  by_contra late
  rcases Nat.eq_or_lt_of_le keyLe with same | earlier
  -- block `j + 1` is in bucket `k`, before the first block of bucket `k`
  · have := first_in_k j (by omega)
    rw [same, indexed] at this
    contradiction
  -- block `s` is in an earlier bucket, so it is earlier, yet it comes after block `j + 1`
  · have bucket : blockTsBucketKey (protocol.resultsTimestamp chain[s - 1].resultsBlock.header) = k := by
      simp only [indexedIn, Bool.and_eq_true, decide_eq_true_eq, beq_iff_eq] at indexedK
      exact indexedK.2
    have earlierTs := lt_of_blockTsBucketKey_lt (protocol.resultsTimestamp_lt _) tsShort (bucket ▸ earlier)
    have laterTs := List.pairwise_iff_getElem.mp sorted j (s - 1) within bound (by omega)
    omega

end Index

section Queries

variable {protocol : Protocol} {crc32c : Bytes → UInt32} {conf : FilesystemBlockPersistenceConfig}
  {calls : List BlockPairContainer} {f : BlockPersistence} {m : InMemoryBlockPersistence}

theorem getLastBlockHeight_agree (agree : Agree protocol crc32c conf calls f m) :
    f.getLastBlockHeight = m.getLastBlockHeight := by
  rw [BlockPersistence.getLastBlockHeight, agree.holds.bhIndex]
  rfl

theorem getLastBlock_agree (agree : Agree protocol crc32c conf calls f m) : f.getLastBlock = m.getLastBlock := by
  rw [BlockPersistence.getLastBlock, agree.holds.bhIndex]
  rfl

/-- Both scans from a height of at least 1, with pages of at least one block, end the same way
and show any cursor the same pages. -/
theorem scanBlocks_agree (wf : WellFormedCalls protocol crc32c conf calls) (agree : Agree protocol crc32c conf calls f m)
    {σ : Type} {fromHeight pageSize : Nat} (low : 1 ≤ fromHeight) (positive : 0 < pageSize)
    (cursor : σ → Nat → List BlockPairContainer → σ × Bool) (s : σ) :
    f.scanBlocks protocol crc32c fromHeight pageSize cursor s = m.scanBlocks fromHeight pageSize cursor s := by
  by_cases beyond : m.blocks.length < fromHeight
  · have top : f.bhIndex.topBlockHeight = m.blocks.length := by rw [agree.holds.bhIndex]; rfl
    simp [BlockPersistence.scanBlocks, InMemoryBlockPersistence.scanBlocks, top, beyond]
  · rw [scanBlocks_holds protocol crc32c agree.holds (agree.chain wf) low (by omega) positive,
      m.scanBlocks_eq low (by omega) positive]

/-- A part of the block at a known height, which the blocks file reads through a scan of one
page of one block. -/
theorem getBlockPart_holds {pre : Bytes} {blocks : List BlockPairContainer}
    (holds : Holds protocol crc32c f pre blocks []) (chain : Chain protocol crc32c f.codec blocks)
    {α : Type} (part : BlockPairContainer → α) {height : Nat} (low : 1 ≤ height) (high : height ≤ blocks.length) :
    f.getBlockPart protocol crc32c part height = some (.ok (part (blocks[height - 1]))) := by
  have rest : blocks.drop (height - 1) = blocks[height - 1] :: blocks.drop height := by
    rw [List.drop_eq_getElem_cons (by omega)]
    congr 2
    omega
  simp [BlockPersistence.getBlockPart, BlockPersistence.getBlockAtHeight,
    scanBlocks_holds protocol crc32c holds chain low high Nat.one_pos, pages_one, rest, deliver_cons]

theorem InMemoryBlockPersistence.getBlockPairAtHeight_of_le (bp : InMemoryBlockPersistence) {height : Nat}
    (low : 1 ≤ height) (high : height ≤ bp.blocks.length) :
    bp.getBlockPairAtHeight height = some (.ok (bp.blocks[height - 1])) := by
  obtain ⟨h, rfl⟩ : ∃ h, height = h + 1 := ⟨height - 1, by omega⟩
  have present : ¬ bp.blocks.length < h + 1 := by omega
  simp [InMemoryBlockPersistence.getBlockPairAtHeight, present, List.getElem?_eq_getElem (show h < bp.blocks.length by omega)]

theorem getBlock_agree (wf : WellFormedCalls protocol crc32c conf calls) (agree : Agree protocol crc32c conf calls f m)
    {height : Nat} (low : 1 ≤ height) (high : height ≤ m.blocks.length) :
    f.getTransactionsBlock protocol crc32c height = m.getTransactionsBlock height ∧
      f.getResultsBlock protocol crc32c height = m.getResultsBlock height := by
  simp [BlockPersistence.getTransactionsBlock, BlockPersistence.getResultsBlock, InMemoryBlockPersistence.getTransactionsBlock,
    InMemoryBlockPersistence.getResultsBlock, getBlockPart_holds agree.holds (agree.chain wf) _ low high,
    m.getBlockPairAtHeight_of_le low high]
  exact ⟨rfl, rfl⟩

/-- Both find the same transaction. The blocks file starts its scan at the block the timestamp
buckets name and stops past the range; the memory filters every block by its timestamp. On a
chain in timestamp order no block before the named one holds the transaction. -/
theorem getBlockByTx_agree (wf : WellFormedCalls protocol crc32c conf calls) (agree : Agree protocol crc32c conf calls f m)
    (txHash : Bytes) {minBlockTs maxBlockTs : Nat} (maxShort : maxBlockTs < 2 ^ 64) :
    f.getBlockByTx protocol crc32c txHash minBlockTs maxBlockTs = some (m.getBlockByTx protocol txHash minBlockTs maxBlockTs) := by
  have sorted := agree.sorted wf
  have counts : ∀ b ∈ m.blocks, CountsMatch protocol b := fun b member => wf.counts b (agree.subset b member)
  simp only [BlockPersistence.getBlockByTx, InMemoryBlockPersistence.getBlockByTx]
  -- the memory filters by the transactions timestamp, which is the results timestamp
  rw [List.findSome?_filter_eq_guarded, List.findSome?_congr_of_mem (g := txHit protocol txHash minBlockTs maxBlockTs)
    (fun b member => by
      simp only [txHit, wf.timestamps b (agree.subset b member)]
      by_cases inside : minBlockTs ≤ protocol.resultsTimestamp b.resultsBlock.header ∧
          protocol.resultsTimestamp b.resultsBlock.header ≤ maxBlockTs
      · simp [inside]
      · simp only [decide_eq_true_eq, if_neg inside]
        rw [if_neg (by omega)])]
  rw [agree.holds.bhIndex]
  cases earliest : (chainIndex protocol crc32c (conf.fileHeader.write crc32c).length m.blocks).getEarliestTxBlockInBucketForTsRange
      minBlockTs maxBlockTs with
  | none =>
    have nothing : m.blocks.findSome? (txHit protocol txHash minBlockTs maxBlockTs) = none :=
      List.findSome?_eq_none_iff.mpr fun b member => by
        obtain ⟨j, within, rfl⟩ := List.getElem_of_mem member
        cases hit : txHit protocol txHash minBlockTs maxBlockTs m.blocks[j] with
        | none => rfl
        | some r =>
          obtain ⟨s, found, -⟩ := earliest_le_of_txHit crc32c _ sorted counts maxShort within hit
          rw [earliest] at found
          contradiction
    simp [nothing]
  | some s =>
    obtain ⟨low, high⟩ := earliest_bounds crc32c _ earliest
    have skip : m.blocks.findSome? (txHit protocol txHash minBlockTs maxBlockTs) =
        (m.blocks.drop (s - 1)).findSome? (txHit protocol txHash minBlockTs maxBlockTs) := by
      have before : (m.blocks.take (s - 1)).findSome? (txHit protocol txHash minBlockTs maxBlockTs) = none :=
        List.findSome?_eq_none_iff.mpr fun b member => by
          obtain ⟨j, within, rfl⟩ := List.getElem_of_mem member
          have inChain : j < m.blocks.length := by simp at within; omega
          rw [List.getElem_take]
          cases hit : txHit protocol txHash minBlockTs maxBlockTs m.blocks[j] with
          | none => rfl
          | some r =>
            obtain ⟨s', found, le⟩ := earliest_le_of_txHit crc32c _ sorted counts maxShort inChain hit
            rw [earliest, Option.some.injEq] at found
            simp at within
            omega
      conv_lhs => rw [← List.take_append_drop (s - 1) m.blocks]
      rw [List.findSome?_append, before, Option.none_or]
    have scanned := scanBlocks_holds protocol crc32c agree.holds (agree.chain wf) low high Nat.one_pos
      (txCursor protocol txHash minBlockTs maxBlockTs) none
    rw [pages_one, deliver_txCursor protocol txHash minBlockTs maxBlockTs s _ (sorted.sublist (List.drop_sublist _ _))]
      at scanned
    simp only [scanned, skip, Option.map_some]
    cases (m.blocks.drop (s - 1)).findSome? (txHit protocol txHash minBlockTs maxBlockTs) <;> rfl

end Queries

section Claim

variable (protocol : Protocol) (crc32c : Bytes → UInt32)

/-- A new blocks file and a new in-memory persistence agree over any run of write calls whose
block pairs carry one height and one timestamp in their two headers, have header counts matching
their lists, have timestamps that do not decrease with height, and fit the blocks file's size
limit. Every call gets the same reply. Afterwards both give the same last block and height, the
same two parts of every block, the same result and cursor calls from every scan from a height of
at least 1 with pages of at least one block, and the same transaction for every hash and time
range. -/
theorem persistences_agree (conf : FilesystemBlockPersistenceConfig) (calls : List BlockPairContainer)
    (heights : ∀ b ∈ calls,
      protocol.transactionsBlockHeight b.transactionsBlock.header = protocol.resultsBlockHeight b.resultsBlock.header)
    (timestamps : ∀ b ∈ calls,
      protocol.transactionsTimestamp b.transactionsBlock.header = protocol.resultsTimestamp b.resultsBlock.header)
    (counts : ∀ b ∈ calls, CountsMatch protocol b)
    (monotone : ∀ b ∈ calls, ∀ b' ∈ calls,
      protocol.resultsBlockHeight b.resultsBlock.header < protocol.resultsBlockHeight b'.resultsBlock.header →
        protocol.resultsTimestamp b.resultsBlock.header ≤ protocol.resultsTimestamp b'.resultsBlock.header)
    (fits : ∀ b ∈ calls, (b.fullBlock crc32c).length ≤ conf.blockStorageFileSystemMaxBlockSizeInBytes.toNat) :
    ∃ f₀ f, newBlockPersistence protocol crc32c conf [] = some (.ok f₀) ∧
      f₀.writeBlocks protocol crc32c calls = some (f, ((newInMemoryBlockPersistence []).writeBlocks protocol calls).2) ∧
      let m := ((newInMemoryBlockPersistence []).writeBlocks protocol calls).1
      f.getLastBlockHeight = m.getLastBlockHeight ∧ f.getLastBlock = m.getLastBlock ∧
      (∀ h, 1 ≤ h → h ≤ m.getLastBlockHeight →
        f.getTransactionsBlock protocol crc32c h = m.getTransactionsBlock h ∧
          f.getResultsBlock protocol crc32c h = m.getResultsBlock h) ∧
      (∀ (σ : Type) (cursor : σ → Nat → List BlockPairContainer → σ × Bool) (s : σ) (fromHeight pageSize : Nat),
        1 ≤ fromHeight → 1 ≤ pageSize →
          f.scanBlocks protocol crc32c fromHeight pageSize cursor s = m.scanBlocks fromHeight pageSize cursor s) ∧
      ∀ txHash minBlockTs maxBlockTs, maxBlockTs < 2 ^ 64 →
        f.getBlockByTx protocol crc32c txHash minBlockTs maxBlockTs =
          some (m.getBlockByTx protocol txHash minBlockTs maxBlockTs) := by
  have wf : WellFormedCalls protocol crc32c conf calls := ⟨heights, timestamps, counts, fits, monotone⟩
  obtain ⟨f₀, opened, codec, fresh⟩ := holds_newBlockPersistence_nil protocol crc32c conf
  have start : Agree protocol crc32c conf calls f₀ (newInMemoryBlockPersistence []) :=
    ⟨fresh, codec, fun i h => by simp [newInMemoryBlockPersistence] at h,
      fun b member => by simp [newInMemoryBlockPersistence] at member⟩
  obtain ⟨f, written, agree⟩ := writeBlocks_agree wf start calls fun b member => member
  exact ⟨f₀, f, opened, written, getLastBlockHeight_agree agree, getLastBlock_agree agree,
    fun h low high => getBlock_agree wf agree low high,
    fun σ cursor s fromHeight pageSize low positive => scanBlocks_agree wf agree low positive cursor s,
    fun txHash minBlockTs maxBlockTs maxShort => getBlockByTx_agree wf agree txHash maxShort⟩

end Claim

theorem persistences_agree_rejected_repeat :
    (∀ b ∈ [singleBlock, singleBlock], singleBlockProtocol.transactionsBlockHeight b.transactionsBlock.header =
      singleBlockProtocol.resultsBlockHeight b.resultsBlock.header) ∧
    (∀ b ∈ [singleBlock, singleBlock], singleBlockProtocol.transactionsTimestamp b.transactionsBlock.header =
      singleBlockProtocol.resultsTimestamp b.resultsBlock.header) ∧
    (∀ b ∈ [singleBlock, singleBlock], CountsMatch singleBlockProtocol b) ∧
    (∀ b ∈ [singleBlock, singleBlock], ∀ b' ∈ [singleBlock, singleBlock],
      singleBlockProtocol.resultsBlockHeight b.resultsBlock.header < singleBlockProtocol.resultsBlockHeight b'.resultsBlock.header →
        singleBlockProtocol.resultsTimestamp b.resultsBlock.header ≤ singleBlockProtocol.resultsTimestamp b'.resultsBlock.header) ∧
    (∀ b ∈ [singleBlock, singleBlock], (b.fullBlock fun _ => 0).length ≤ (1024 : UInt32).toNat) ∧
    ∃ f₀ f, newBlockPersistence singleBlockProtocol (fun _ => 0) ⟨1024, 0, 0, "blocks"⟩ [] = some (.ok f₀) ∧
      f₀.writeBlocks singleBlockProtocol (fun _ => 0) [singleBlock, singleBlock] =
        some (f, ((newInMemoryBlockPersistence []).writeBlocks singleBlockProtocol [singleBlock, singleBlock]).2) ∧
      let m := ((newInMemoryBlockPersistence []).writeBlocks singleBlockProtocol [singleBlock, singleBlock]).1
      f.getLastBlockHeight = m.getLastBlockHeight ∧ f.getLastBlock = m.getLastBlock ∧
      (∀ h, 1 ≤ h → h ≤ m.getLastBlockHeight →
        f.getTransactionsBlock singleBlockProtocol (fun _ => 0) h = m.getTransactionsBlock h ∧
          f.getResultsBlock singleBlockProtocol (fun _ => 0) h = m.getResultsBlock h) ∧
      (∀ (σ : Type) (cursor : σ → Nat → List BlockPairContainer → σ × Bool) (s : σ) (fromHeight pageSize : Nat),
        1 ≤ fromHeight → 1 ≤ pageSize →
          f.scanBlocks singleBlockProtocol (fun _ => 0) fromHeight pageSize cursor s = m.scanBlocks fromHeight pageSize cursor s) ∧
      ∀ txHash minBlockTs maxBlockTs, maxBlockTs < 2 ^ 64 →
        f.getBlockByTx singleBlockProtocol (fun _ => 0) txHash minBlockTs maxBlockTs =
          some (m.getBlockByTx singleBlockProtocol txHash minBlockTs maxBlockTs) := by
  have heights : ∀ b ∈ [singleBlock, singleBlock], singleBlockProtocol.transactionsBlockHeight b.transactionsBlock.header =
      singleBlockProtocol.resultsBlockHeight b.resultsBlock.header := by decide
  have timestamps : ∀ b ∈ [singleBlock, singleBlock], singleBlockProtocol.transactionsTimestamp b.transactionsBlock.header =
      singleBlockProtocol.resultsTimestamp b.resultsBlock.header := by decide
  have counts : ∀ b ∈ [singleBlock, singleBlock], CountsMatch singleBlockProtocol b := fun b member => by
    simp at member
    subst member
    exact ⟨rfl, rfl, rfl⟩
  have monotone : ∀ b ∈ [singleBlock, singleBlock], ∀ b' ∈ [singleBlock, singleBlock],
      singleBlockProtocol.resultsBlockHeight b.resultsBlock.header < singleBlockProtocol.resultsBlockHeight b'.resultsBlock.header →
        singleBlockProtocol.resultsTimestamp b.resultsBlock.header ≤ singleBlockProtocol.resultsTimestamp b'.resultsBlock.header := by
    decide
  have fits : ∀ b ∈ [singleBlock, singleBlock], (b.fullBlock fun _ => 0).length ≤ (1024 : UInt32).toNat := by decide
  exact ⟨heights, timestamps, counts, monotone, fits,
    persistences_agree singleBlockProtocol (fun _ => 0) ⟨1024, 0, 0, "blocks"⟩ _ heights timestamps counts monotone fits⟩

/-- Where the two persistences part. A block over the size limit, under otherwise the same
conditions, is refused by the blocks file with an error after part of it was written, and added by
the memory. A scan from height 0 makes the blocks file panic on the missing offset of height 0,
while the memory returns an error. -/
theorem persistences_diverge :
    (∃ f₀ f err, newBlockPersistence singleBlockProtocol (fun _ => 0) ⟨0, 0, 0, "blocks"⟩ [] = some (.ok f₀) ∧
      f₀.writeNextBlock singleBlockProtocol (fun _ => 0) singleBlock = some (f, false, 0, some err)) ∧
    (newInMemoryBlockPersistence []).writeNextBlock singleBlockProtocol singleBlock = (⟨[singleBlock]⟩, true, 1, none) ∧
    (∃ f₀, newBlockPersistence singleBlockProtocol (fun _ => 0) ⟨1024, 0, 0, "blocks"⟩ [] = some (.ok f₀) ∧
      f₀.scanBlocks singleBlockProtocol (fun _ => 0) 0 1 (fun s _ _ => (s, true)) () = none) ∧
    ∃ err, (newInMemoryBlockPersistence []).scanBlocks 0 1 (fun s _ _ => (s, true)) () = some ((), .error err) :=
  ⟨⟨_, _, _, newBlockPersistence_nil _ _ _, rfl⟩, rfl, ⟨_, newBlockPersistence_nil _ _ _, rfl⟩, ⟨_, rfl⟩⟩

end OrbsNetwork.BlockStorage
