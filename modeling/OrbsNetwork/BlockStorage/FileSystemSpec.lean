import OrbsNetwork.BlockStorage.CodecSpec
import OrbsNetwork.BlockStorage.FileSystem

namespace OrbsNetwork.BlockStorage

open ByteStream

section Index

variable (protocol : Protocol) (crc32c : Bytes → UInt32)

/-- Where block `h` (from 1) of `blocks` starts, in a file whose blocks start at `first`. -/
def blockOffset (first : Nat) (blocks : List BlockPairContainer) (h : Nat) : Nat :=
  first + ((blocks.take (h - 1)).map fun b => (b.encoded crc32c).length).sum

/-- A block that `appendBlock` files under the timestamp bucket `key`: one with receipts whose
results timestamp falls in that minute. -/
def indexedIn (key : Nat) (b : BlockPairContainer) : Bool :=
  decide (0 < protocol.numTransactionReceipts b.resultsBlock.header) &&
    blockTsBucketKey (protocol.resultsTimestamp b.resultsBlock.header) == key

/-- The index of a file whose blocks, from offset `first` on, are `blocks`, block `h` at
position `h - 1`. -/
def chainIndex (first : Nat) (blocks : List BlockPairContainer) : BlockHeightIndex where
  heightOffset h := if 1 ≤ h ∧ h ≤ blocks.length + 1 then some (blockOffset crc32c first blocks h) else none
  firstBlockInTsBucket key := (blocks.findIdx? (indexedIn protocol key)).map (· + 1)
  topBlock := blocks.getLast?
  topBlockHeight := blocks.length

theorem blockOffset_append_of_le (first : Nat) (blocks : List BlockPairContainer) (b : BlockPairContainer) {h : Nat}
    (within : h ≤ blocks.length + 1) : blockOffset crc32c first (blocks ++ [b]) h = blockOffset crc32c first blocks h := by
  rw [blockOffset, blockOffset, List.take_append_of_le_length (by omega)]

theorem blockOffset_append_last (first : Nat) (blocks : List BlockPairContainer) (b : BlockPairContainer) :
    blockOffset crc32c first (blocks ++ [b]) (blocks.length + 2) =
      blockOffset crc32c first blocks (blocks.length + 1) + (b.encoded crc32c).length := by
  have whole : (blocks ++ [b]).take (blocks.length + 2 - 1) = blocks ++ [b] := List.take_of_length_le (by simp)
  have front : blocks.take (blocks.length + 1 - 1) = blocks := List.take_of_length_le (by simp)
  rw [blockOffset, blockOffset, whole, front]
  simp [Nat.add_assoc]

theorem newBlockHeightIndex_eq (first : Nat) : newBlockHeightIndex first = chainIndex protocol crc32c first [] := by
  simp only [newBlockHeightIndex, chainIndex]
  congr
  funext h
  by_cases one : h = 1
  · simp [one, blockOffset]
  · rw [Function.update_of_ne one, if_neg (by simp; omega)]

theorem chainIndex_bucket_append (first : Nat) (blocks : List BlockPairContainer) (b : BlockPairContainer) (key : Nat) :
    (chainIndex protocol crc32c first (blocks ++ [b])).firstBlockInTsBucket key =
      ((chainIndex protocol crc32c first blocks).firstBlockInTsBucket key).or
        (if indexedIn protocol key b then some (blocks.length + 1) else none) := by
  simp only [chainIndex, List.findIdx?_append, List.findIdx?_cons, List.findIdx?_nil]
  cases indexedIn protocol key b <;> cases blocks.findIdx? (indexedIn protocol key) <;> simp

/-- `appendBlock` of the next block at the end of the file moves the index to the longer chain. -/
theorem appendBlock_chainIndex (first : Nat) (blocks : List BlockPairContainer) (b : BlockPairContainer)
    (height : protocol.resultsBlockHeight b.resultsBlock.header = blocks.length + 1) :
    (chainIndex protocol crc32c first blocks).appendBlock protocol (blockOffset crc32c first blocks (blocks.length + 1))
      (blockOffset crc32c first blocks (blocks.length + 1) + (b.encoded crc32c).length) b =
      .ok (chainIndex protocol crc32c first (blocks ++ [b])) := by
  have offsets : Function.update (chainIndex protocol crc32c first blocks).heightOffset (blocks.length + 1 + 1)
      (some (blockOffset crc32c first blocks (blocks.length + 1) + (b.encoded crc32c).length)) =
      (chainIndex protocol crc32c first (blocks ++ [b])).heightOffset := by
    funext h
    by_cases last : h = blocks.length + 2
    · subst last
      simp [chainIndex, blockOffset_append_last]
    · rw [Function.update_of_ne last]
      simp only [chainIndex, List.length_append, List.length_singleton]
      split_ifs with old new new
      · rw [blockOffset_append_of_le crc32c first blocks b old.2]
      · omega
      · omega
      · rfl
  have current : (chainIndex protocol crc32c first blocks).heightOffset (blocks.length + 1) =
      some (blockOffset crc32c first blocks (blocks.length + 1)) := by
    simp [chainIndex]
  have top : (chainIndex protocol crc32c first blocks).topBlockHeight = blocks.length := rfl
  simp only [BlockHeightIndex.appendBlock, height, top, current, ne_eq, not_true_eq_false, if_false]
  -- the bucket of the new block gets it only if it has receipts and the bucket had no block yet
  split_ifs with fresh
  · congr 1
    ext1
    · exact offsets
    · funext key
      rw [chainIndex_bucket_append]
      by_cases same : key = blockTsBucketKey (protocol.resultsTimestamp b.resultsBlock.header)
      · subst same
        simp [fresh.2, indexedIn, fresh.1]
      · dsimp only
        rw [Function.update_of_ne same]
        simp [indexedIn, Ne.symm same]
    · simp [chainIndex]
    · simp [chainIndex]
  · congr 1
    ext1
    · exact offsets
    · funext key
      rw [chainIndex_bucket_append]
      by_cases indexed : indexedIn protocol key b
      · simp only [indexedIn, Bool.and_eq_true, decide_eq_true_eq, beq_iff_eq] at indexed
        obtain ⟨receipts, rfl⟩ := indexed
        have kept : (chainIndex protocol crc32c first blocks).firstBlockInTsBucket
            (blockTsBucketKey (protocol.resultsTimestamp b.resultsBlock.header)) ≠ none := fun empty => fresh ⟨receipts, empty⟩
        obtain ⟨h, found⟩ := Option.ne_none_iff_exists'.mp kept
        simp [found]
      · simp [indexed]
    · simp [chainIndex]
    · simp [chainIndex]

end Index

section Header

variable (crc32c : Bytes → UInt32)

theorem wrapRead_run {α : Type} (message : String) (d : Reader UInt8 String α) {s rest : Bytes} {a : α}
    (reads : d.run s = .ok (a, rest)) : (wrapRead message d).run s = .ok (a, rest) := by
  simp only [StateT.run] at reads ⊢
  simp [wrapRead, reads]

theorem length_blocksFileHeader_write (bfh : BlocksFileHeader) : (bfh.write crc32c).length = 20 := by
  simp [BlocksFileHeader.write, length_writeFields, BlocksFileHeader.fields]

/-- The header reader reads back a written header, whatever follows it. -/
theorem blocksFileHeader_read_write {bfh : BlocksFileHeader} (short : ∀ x ∈ bfh.fields, x < 2 ^ 32)
    (magic : bfh.magic = orbsFormatMagic) (version : bfh.fileVersion = orbsFormatVersion) (rest : Bytes) :
    (BlocksFileHeader.read crc32c).run (bfh.write crc32c ++ rest) = .ok (bfh, rest) := by
  have fields : (writeFields bfh.fields).length = 16 := by
    simp [length_writeFields, BlocksFileHeader.fields]
  have teed := (decodes_tee (decodes_readFull (ε := String) _ fields)).exact
    (toLE 4 (crc32c (writeFields bfh.fields)).toNat ++ rest)
  have sum := (decodes_readUint32 (crc32c (writeFields bfh.fields)).toNat_lt).exact rest
  have read : BlocksFileHeader.ofBytes (writeFields bfh.fields) = bfh := by
    simp (disch := simp [BlocksFileHeader.fields]) only [BlocksFileHeader.ofBytes, fieldAt_writeFields short]
    rfl
  simp only [BlocksFileHeader.read, BlocksFileHeader.write, List.append_assoc, StateT.run_bind, teed]
  dsimp only [Bind.bind, Except.bind]
  rw [wrapRead_run _ _ sum]
  dsimp only [Except.bind]
  simp [read, magic, version]
  rfl

/-- A file that starts with the header of its own network and chain passes the check, which
finds its blocks after the 20 bytes of the header. -/
theorem validateFileHeader_written (networkType vchainId : Nat) (rest : Bytes) :
    validateFileHeader crc32c ((newBlocksFileHeader (uint32 networkType) (uint32 vchainId)).write crc32c ++ rest)
        networkType vchainId =
      ((newBlocksFileHeader (uint32 networkType) (uint32 vchainId)).write crc32c ++ rest, .ok 20) := by
  have short : ∀ x ∈ (newBlocksFileHeader (uint32 networkType) (uint32 vchainId)).fields, x < 2 ^ 32 := by
    simp only [newBlocksFileHeader, BlocksFileHeader.fields, List.mem_cons, List.not_mem_nil, or_false]
    rintro x (rfl | rfl | rfl | rfl) <;> first | exact uint32_lt _ | decide
  have length := length_blocksFileHeader_write crc32c (newBlocksFileHeader (uint32 networkType) (uint32 vchainId))
  have nonempty : ((newBlocksFileHeader (uint32 networkType) (uint32 vchainId)).write crc32c ++ rest).isEmpty = false := by
    rw [List.isEmpty_eq_false_iff, ← List.length_pos_iff]
    simp [length]
  simp only [validateFileHeader, nonempty, Bool.false_eq_true, if_false, blocksFileHeader_read_write crc32c short rfl rfl]
  simp [newBlocksFileHeader] at length ⊢
  omega

/-- An empty file gets the header, and passes the check. -/
theorem validateFileHeader_nil (networkType vchainId : Nat) :
    validateFileHeader crc32c [] networkType vchainId =
      ((newBlocksFileHeader (uint32 networkType) (uint32 vchainId)).write crc32c, .ok 20) := by
  have written := validateFileHeader_written crc32c networkType vchainId []
  rw [List.append_nil] at written
  have nonempty : ((newBlocksFileHeader (uint32 networkType) (uint32 vchainId)).write crc32c).isEmpty = false := by
    rw [List.isEmpty_eq_false_iff, ← List.length_pos_iff, length_blocksFileHeader_write]
    omega
  rw [← written]
  simp only [validateFileHeader, List.isEmpty_nil, nonempty, if_true, Bool.false_eq_true, if_false]

end Header

section Chain

variable (protocol : Protocol) (crc32c : Bytes → UInt32) (c : Codec)

/-- A block that `c` writes whole and reads back: its header counts agree with its lists, and
it fits the size limit. -/
structure Encodable (block : BlockPairContainer) : Prop where
  counts : CountsMatch protocol block
  fits : (block.fullBlock crc32c).length ≤ c.maxBlockSize

/-- A chain of blocks that `WriteNextBlock` accepts one after another: block `i + 1` at index `i`,
each of them encodable. -/
structure Chain (blocks : List BlockPairContainer) : Prop where
  heights : ∀ i (h : i < blocks.length), protocol.resultsBlockHeight blocks[i].resultsBlock.header = i + 1
  encodable : ∀ b ∈ blocks, Encodable protocol crc32c c b

theorem decode_encoded {block : BlockPairContainer} (encodable : Encodable protocol crc32c c block) (rest : Bytes) :
    (c.decode crc32c protocol).run (block.encoded crc32c ++ rest) =
      .ok ((block, (block.encoded crc32c).length), rest) :=
  (decodes_decode crc32c protocol c block encodable.counts encodable.fits).exact rest

theorem decode_nil : (c.decode crc32c protocol).run [] = .error .eof := rfl

/-- How many of `blocks`, written one after another, lie entirely within their first `budget`
bytes. -/
def completeBlocks (budget : Nat) : List BlockPairContainer → Nat
  | [] => 0
  | b :: bs =>
    if (b.encoded crc32c).length ≤ budget then completeBlocks (budget - (b.encoded crc32c).length) bs + 1 else 0

theorem length_encoded_pos (block : BlockPairContainer) : 0 < (block.encoded crc32c).length := by
  rw [length_encoded]
  simp [blockHeaderSize]

/-- The loop of `buildIndex` over the first `budget` bytes of the blocks `bs` that follow `done`
in the file: it indexes the blocks complete there and stops at the torn one. The induction is on
`bs`, each turn moving one block from `bs` to `done`. -/
theorem buildIndexLoop_take (first : Nat) (done bs : List BlockPairContainer) (budget fuel : Nat)
    (chain : Chain protocol crc32c c (done ++ bs))
    (enough : ((bs.flatMap (·.encoded crc32c)).take budget).length ≤ fuel) :
    buildIndexLoop protocol crc32c c fuel ((bs.flatMap (·.encoded crc32c)).take budget)
        (blockOffset crc32c first done (done.length + 1)) (chainIndex protocol crc32c first done) =
      .ok (chainIndex protocol crc32c first (done ++ bs.take (completeBlocks crc32c budget bs))) := by
  induction bs generalizing done budget fuel with
  | nil =>
    cases fuel with
    | zero => simp [buildIndexLoop, completeBlocks]
    | succ fuel => simp [buildIndexLoop, completeBlocks, decode_nil]
  | cons b bs ih =>
    have encodable := chain.encodable b (by simp)
    have height : protocol.resultsBlockHeight b.resultsBlock.header = done.length + 1 := by
      simpa using chain.heights done.length (by simp)
    by_cases fit : (b.encoded crc32c).length ≤ budget
    · have split : ((b :: bs).flatMap (·.encoded crc32c)).take budget =
          b.encoded crc32c ++ (bs.flatMap (·.encoded crc32c)).take (budget - (b.encoded crc32c).length) := by
        rw [List.flatMap_cons, List.take_append, List.take_of_length_le fit]
      have nonempty := length_encoded_pos crc32c b
      rw [split, List.length_append] at enough
      obtain ⟨fuel, rfl⟩ : ∃ f, fuel = f + 1 := ⟨fuel - 1, by omega⟩
      have next : blockOffset crc32c first done (done.length + 1) + (b.encoded crc32c).length =
          blockOffset crc32c first (done ++ [b]) ((done ++ [b]).length + 1) := by
        rw [← blockOffset_append_last]
        simp
      have moved : done ++ b :: bs = done ++ [b] ++ bs := by simp
      rw [split, buildIndexLoop, decode_encoded protocol crc32c c encodable]
      dsimp only
      rw [appendBlock_chainIndex protocol crc32c first done b height]
      dsimp only
      rw [next, ih (done ++ [b]) _ fuel (moved ▸ chain) (by omega)]
      simp [completeBlocks, fit]
    · have split : ((b :: bs).flatMap (·.encoded crc32c)).take budget = (b.encoded crc32c).take budget := by
        rw [List.flatMap_cons, List.take_append_of_le_length (by omega)]
      have torn : (b.encoded crc32c).take budget ≠ b.encoded crc32c := fun same => by
        have := congrArg List.length same
        simp at this
        omega
      rw [split, show completeBlocks crc32c budget (b :: bs) = 0 by simp [completeBlocks, fit]]
      cases fuel with
      | zero => simp [buildIndexLoop]
      | succ fuel =>
        obtain ⟨e, -, fails⟩ := (decodes_decode crc32c protocol c b encodable.counts encodable.fits).truncated _
          (List.take_prefix budget _) torn
        simp [buildIndexLoop, fails]

theorem completeBlocks_le_length (budget : Nat) (blocks : List BlockPairContainer) :
    completeBlocks crc32c budget blocks ≤ blocks.length := by
  induction blocks generalizing budget with
  | nil => simp [completeBlocks]
  | cons b bs ih =>
    simp only [completeBlocks, List.length_cons]
    split_ifs
    · exact Nat.succ_le_succ (ih _)
    · omega

/-- Every block of a file read whole is complete. -/
theorem completeBlocks_length (blocks : List BlockPairContainer) :
    completeBlocks crc32c (blocks.flatMap (·.encoded crc32c)).length blocks = blocks.length := by
  induction blocks with
  | nil => rfl
  | cons b bs ih =>
    have fit : (b.encoded crc32c).length ≤ ((b :: bs).flatMap (·.encoded crc32c)).length := by simp
    rw [completeBlocks, if_pos fit]
    simp only [List.flatMap_cons, List.length_append, Nat.add_sub_cancel_left, ih, List.length_cons]

theorem blockOffset_length (first : Nat) (blocks : List BlockPairContainer) :
    blockOffset crc32c first blocks (blocks.length + 1) = first + (blocks.flatMap (·.encoded crc32c)).length := by
  simp [blockOffset, List.length_flatMap]

theorem blockOffset_take (first : Nat) (blocks : List BlockPairContainer) {k h : Nat} (within : h ≤ k + 1) :
    blockOffset crc32c first (blocks.take k) h = blockOffset crc32c first blocks h := by
  rw [blockOffset, blockOffset, List.take_take, Nat.min_eq_left (by omega)]

theorem blockOffset_cons (first : Nat) (b : BlockPairContainer) (bs : List BlockPairContainer) (h : Nat) :
    blockOffset crc32c first (b :: bs) (h + 2) = blockOffset crc32c (first + (b.encoded crc32c).length) bs (h + 1) := by
  simp [blockOffset, Nat.add_assoc]

/-- The complete blocks end within the budget, and the next block does not. -/
theorem completeBlocks_spec (first budget : Nat) (blocks : List BlockPairContainer) :
    blockOffset crc32c first blocks (completeBlocks crc32c budget blocks + 1) ≤ first + budget ∧
      (completeBlocks crc32c budget blocks < blocks.length →
        first + budget < blockOffset crc32c first blocks (completeBlocks crc32c budget blocks + 2)) := by
  induction blocks generalizing first budget with
  | nil => simp [completeBlocks, blockOffset]
  | cons b bs ih =>
    by_cases fit : (b.encoded crc32c).length ≤ budget
    · obtain ⟨within, next⟩ := ih (first + (b.encoded crc32c).length) (budget - (b.encoded crc32c).length)
      rw [completeBlocks, if_pos fit, blockOffset_cons, blockOffset_cons, List.length_cons]
      refine ⟨by omega, fun more => ?_⟩
      have beyond := next (by omega)
      simp only [Nat.add_assoc, Nat.reduceAdd] at beyond ⊢
      omega
    · simp [completeBlocks, fit, blockOffset]
      omega

/-- `buildIndex` over the first `budget` bytes of a chain's blocks indexes its complete blocks. -/
theorem buildIndex_take (first budget : Nat) (blocks : List BlockPairContainer) (chain : Chain protocol crc32c c blocks) :
    buildIndex protocol crc32c c ((blocks.flatMap (·.encoded crc32c)).take budget) first =
      .ok (chainIndex protocol crc32c first (blocks.take (completeBlocks crc32c budget blocks))) := by
  have loop := buildIndexLoop_take protocol crc32c c first [] blocks budget _ (by simpa using chain) le_rfl
  rw [buildIndex, newBlockHeightIndex_eq protocol crc32c]
  simpa [blockOffset] using loop

theorem Chain.take {blocks : List BlockPairContainer} (chain : Chain protocol crc32c c blocks) (k : Nat) :
    Chain protocol crc32c c (blocks.take k) where
  heights i h := by simpa using chain.heights i (by simp at h; omega)
  encodable b member := chain.encodable b (List.mem_of_mem_take member)

/-- The first `budget` bytes of a chain's blocks: its complete blocks, then less than the whole
of the next one. -/
theorem take_flatMap_encoded (budget : Nat) (blocks : List BlockPairContainer) :
    ∃ tail, (blocks.flatMap (·.encoded crc32c)).take budget =
        (blocks.take (completeBlocks crc32c budget blocks)).flatMap (·.encoded crc32c) ++ tail ∧
      ∀ b, blocks[completeBlocks crc32c budget blocks]? = some b → tail.length < (b.encoded crc32c).length := by
  induction blocks generalizing budget with
  | nil => exact ⟨[], by simp, by simp⟩
  | cons b bs ih =>
    by_cases fit : (b.encoded crc32c).length ≤ budget
    · obtain ⟨tail, split, short⟩ := ih (budget - (b.encoded crc32c).length)
      refine ⟨tail, ?_, by simpa [completeBlocks, fit] using short⟩
      rw [completeBlocks, if_pos fit, List.take_succ_cons, List.flatMap_cons, List.flatMap_cons, List.take_append,
        List.take_of_length_le fit, split, List.append_assoc]
    -- the budget ends inside the first block, which the tail is a part of
    · refine ⟨(b.encoded crc32c).take budget, ?_, ?_⟩
      · simp [completeBlocks, fit, List.take_append_of_le_length (Nat.le_of_not_le fit)]
      · simp [completeBlocks, fit]
        omega

end Chain

section Persistence

variable (protocol : Protocol) (crc32c : Bytes → UInt32)

/-- The header `NewBlockPersistence` writes into an empty blocks file. -/
def FilesystemBlockPersistenceConfig.fileHeader (conf : FilesystemBlockPersistenceConfig) : BlocksFileHeader :=
  newBlocksFileHeader (uint32 conf.networkType) (uint32 conf.virtualChainId)

/-- Opening a blocks file that holds the header and the first `budget` bytes of a chain's blocks:
the writer is placed after the complete blocks, which the index holds. -/
theorem newBlockPersistence_take (conf : FilesystemBlockPersistenceConfig) (blocks : List BlockPairContainer)
    (chain : Chain protocol crc32c (newCodec conf.blockStorageFileSystemMaxBlockSizeInBytes) blocks) (budget : Nat) :
    newBlockPersistence protocol crc32c conf (conf.fileHeader.write crc32c ++ (blocks.flatMap (·.encoded crc32c)).take budget) =
      some (.ok ⟨newCodec conf.blockStorageFileSystemMaxBlockSizeInBytes,
        conf.fileHeader.write crc32c ++ (blocks.flatMap (·.encoded crc32c)).take budget,
        blockOffset crc32c 20 blocks (completeBlocks crc32c budget blocks + 1),
        chainIndex protocol crc32c 20 (blocks.take (completeBlocks crc32c budget blocks))⟩) := by
  have header := length_blocksFileHeader_write crc32c conf.fileHeader
  have complete := completeBlocks_le_length crc32c budget blocks
  have stream : (conf.fileHeader.write crc32c ++ (blocks.flatMap (·.encoded crc32c)).take budget).drop 20 =
      (blocks.flatMap (·.encoded crc32c)).take budget := List.drop_left' header
  simp only [newBlockPersistence, FilesystemBlockPersistenceConfig.fileHeader] at header stream ⊢
  rw [validateFileHeader_written]
  dsimp only
  rw [stream, buildIndex_take protocol crc32c _ 20 budget blocks chain]
  simp [BlockHeightIndex.fetchTopOffset, chainIndex, complete, blockOffset_take]

theorem newBlockPersistence_nil (conf : FilesystemBlockPersistenceConfig) :
    newBlockPersistence protocol crc32c conf [] =
      some (.ok ⟨newCodec conf.blockStorageFileSystemMaxBlockSizeInBytes, conf.fileHeader.write crc32c, 20,
        chainIndex protocol crc32c 20 []⟩) := by
  have empty := newBlockPersistence_take protocol crc32c conf [] ⟨by simp, by simp⟩ 0
  simp only [List.flatMap_nil, List.take_nil, List.append_nil, completeBlocks, blockOffset,
    List.map_nil, List.sum_nil, Nat.add_zero] at empty
  have written := validateFileHeader_written crc32c conf.networkType conf.virtualChainId []
  rw [List.append_nil] at written
  rw [← empty]
  simp only [newBlockPersistence, validateFileHeader_nil, FilesystemBlockPersistenceConfig.fileHeader, written]

/-- Writing at the end of `pre` replaces a leftover `tail` that the new data covers. -/
theorem writeAt_append (pre tail data : Bytes) (covered : tail.length ≤ data.length) :
    writeAt (pre ++ tail) pre.length data = pre ++ data := by
  simp [writeAt, List.drop_eq_nil_of_le covered]

/-- The persistence after `blocks` were written behind the file prefix `pre`, with `tail` left
past the write offset by an earlier, torn write. -/
structure Holds (f : BlockPersistence) (pre : Bytes) (blocks : List BlockPairContainer) (tail : Bytes) : Prop where
  file : f.file = pre ++ blocks.flatMap (·.encoded crc32c) ++ tail
  writeOffset : f.writeOffset = blockOffset crc32c pre.length blocks (blocks.length + 1)
  bhIndex : f.bhIndex = chainIndex protocol crc32c pre.length blocks

/-- `WriteNextBlock` of the next block of the chain adds it: the block goes at the write offset,
over the torn tail, and the index moves to the longer chain. -/
theorem writeNextBlock_holds {f : BlockPersistence} {pre tail : Bytes} {blocks : List BlockPairContainer}
    {b : BlockPairContainer} (holds : Holds protocol crc32c f pre blocks tail)
    (height : protocol.resultsBlockHeight b.resultsBlock.header = blocks.length + 1)
    (encodable : Encodable protocol crc32c f.codec b) (covered : tail.length ≤ (b.encoded crc32c).length) :
    ∃ g, f.writeNextBlock protocol crc32c b = some (g, true, blocks.length + 1, none) ∧ g.codec = f.codec ∧
      Holds protocol crc32c g pre (blocks ++ [b]) [] := by
  obtain ⟨file, offset, index⟩ := holds
  have start : blockOffset crc32c pre.length blocks (blocks.length + 1) = (pre ++ blocks.flatMap (·.encoded crc32c)).length := by
    rw [blockOffset_length, List.length_append]
  have written : writeAt f.file f.writeOffset (b.encoded crc32c) = pre ++ (blocks ++ [b]).flatMap (·.encoded crc32c) := by
    rw [file, offset, start, writeAt_append _ _ _ covered]
    simp
  have top : f.bhIndex.topBlockHeight = blocks.length := by rw [index]; rfl
  have found : f.bhIndex.fetchBlockOffset (blocks.length + 1) = some (blockOffset crc32c pre.length blocks (blocks.length + 1)) := by
    simp [index, BlockHeightIndex.fetchBlockOffset, chainIndex]
  simp only [BlockPersistence.writeNextBlock, BlockPersistence.writeBlock, height, top, ne_eq, not_true_eq_false, if_false,
    encode_of_fits crc32c f.codec b encodable.fits]
  rw [found, Option.map_some, index, appendBlock_chainIndex protocol crc32c pre.length blocks b height]
  refine ⟨_, rfl, rfl, ⟨by rw [written, List.append_nil], ?_, rfl⟩⟩
  rw [offset, List.length_append, List.length_singleton, ← blockOffset_append_last]

/-- `WriteNextBlock` of each of `blocks` in turn, each call on the persistence the one before
left: the persistence at the end and the reply of every call. -/
def BlockPersistence.writeBlocks (f : BlockPersistence) :
    List BlockPairContainer → Option (BlockPersistence × List (Bool × Nat × Option String))
  | [] => some (f, [])
  | b :: bs => (f.writeNextBlock protocol crc32c b).bind fun (f, reply) =>
      (f.writeBlocks bs).map fun (f, replies) => (f, reply :: replies)

/-- Writing the rest `bs` of a chain: every write is accepted and keeps the invariant. The
induction is on `bs`, each step `writeNextBlock_holds`. -/
theorem writeBlocks_holds {f : BlockPersistence} {pre : Bytes} {done bs : List BlockPairContainer}
    (holds : Holds protocol crc32c f pre done []) (chain : Chain protocol crc32c f.codec (done ++ bs)) :
    ∃ g, f.writeBlocks protocol crc32c bs = some (g, (List.range' (done.length + 1) bs.length).map fun h => (true, h, none)) ∧
      g.codec = f.codec ∧ Holds protocol crc32c g pre (done ++ bs) [] := by
  induction bs generalizing f done with
  | nil => exact ⟨f, rfl, rfl, by simpa using holds⟩
  | cons b bs ih =>
    have height : protocol.resultsBlockHeight b.resultsBlock.header = done.length + 1 := by
      simpa using chain.heights done.length (by simp)
    obtain ⟨g, step, codec, next⟩ :=
      writeNextBlock_holds protocol crc32c holds height (chain.encodable b (by simp)) (by simp)
    have moved : done ++ b :: bs = done ++ [b] ++ bs := by simp
    obtain ⟨h, run, codec', final⟩ := ih next (by rw [codec, ← moved]; exact chain)
    refine ⟨h, ?_, codec'.trans codec, by rwa [moved]⟩
    simp only [BlockPersistence.writeBlocks, step, Option.bind_some, run, Option.map_some, List.length_cons,
      List.range'_succ, List.map_cons]
    simp

/-- A new blocks file holds the header and no block. -/
theorem holds_newBlockPersistence_nil (conf : FilesystemBlockPersistenceConfig) :
    ∃ f₀, newBlockPersistence protocol crc32c conf [] = some (.ok f₀) ∧
      f₀.codec = newCodec conf.blockStorageFileSystemMaxBlockSizeInBytes ∧
      Holds protocol crc32c f₀ (conf.fileHeader.write crc32c) [] [] := by
  have header := length_blocksFileHeader_write crc32c conf.fileHeader
  exact ⟨_, newBlockPersistence_nil protocol crc32c conf, rfl, by simp, by simp [blockOffset, header], by simp [header]⟩

/-- Reopening a file written cleanly gives back the persistence that wrote it. -/
theorem newBlockPersistence_holds (conf : FilesystemBlockPersistenceConfig) {g : BlockPersistence}
    {blocks : List BlockPairContainer} (holds : Holds protocol crc32c g (conf.fileHeader.write crc32c) blocks [])
    (codec : g.codec = newCodec conf.blockStorageFileSystemMaxBlockSizeInBytes)
    (chain : Chain protocol crc32c g.codec blocks) :
    newBlockPersistence protocol crc32c conf g.file = some (.ok g) := by
  obtain ⟨codec', file, offset, index⟩ := g
  obtain ⟨stored, placed, indexed⟩ := holds
  dsimp only at codec stored placed indexed chain ⊢
  subst codec stored placed indexed
  have whole := newBlockPersistence_take protocol crc32c conf blocks chain (blocks.flatMap (·.encoded crc32c)).length
  rw [List.take_length, completeBlocks_length, List.take_length] at whole
  rw [List.append_nil, whole, length_blocksFileHeader_write]

/-- Recovery from a torn blocks file. A chain is written block after block into a new file, behind
its header, and the file is cut to its first `L` bytes. `k` counts the blocks complete in the cut
file. Rebuilding the index of the cut file gives height `k`, the start offset of every block
`1..k+1` and block `k` on top. Reopening it puts the writer at the end of block `k`. Block `k + 1`
written there leaves the header and blocks `1..k+1`, and a later reopening gives back exactly
that state. -/
theorem torn_file_recovery (conf : FilesystemBlockPersistenceConfig) (blocks : List BlockPairContainer)
    (chain : Chain protocol crc32c (newCodec conf.blockStorageFileSystemMaxBlockSizeInBytes) blocks)
    (L : Nat) (long : 20 ≤ L) :
    ∃ f₀ f, newBlockPersistence protocol crc32c conf [] = some (.ok f₀) ∧
      f₀.writeBlocks protocol crc32c blocks = some (f, (List.range' 1 blocks.length).map fun h => (true, h, none)) ∧
      f.file = conf.fileHeader.write crc32c ++ blocks.flatMap (·.encoded crc32c) ∧
      let k := completeBlocks crc32c (L - 20) blocks
      (k ≤ blocks.length ∧ blockOffset crc32c 20 blocks (k + 1) ≤ L ∧
        (k < blocks.length → L < blockOffset crc32c 20 blocks (k + 2))) ∧
      ∃ i, buildIndex protocol crc32c (newCodec conf.blockStorageFileSystemMaxBlockSizeInBytes)
          ((f.file.take L).drop 20) 20 = .ok i ∧
        i.topBlockHeight = k ∧ (∀ h, 1 ≤ h → h ≤ k + 1 → i.heightOffset h = some (blockOffset crc32c 20 blocks h)) ∧
        i.topBlock = (blocks.take k).getLast? ∧
      ∃ g, newBlockPersistence protocol crc32c conf (f.file.take L) = some (.ok g) ∧ g.bhIndex = i ∧
        g.writeOffset = blockOffset crc32c 20 blocks (k + 1) ∧
        ∀ b, blocks[k]? = some b → ∃ g', g.writeNextBlock protocol crc32c b = some (g', true, k + 1, none) ∧
          g'.file = conf.fileHeader.write crc32c ++ (blocks.take (k + 1)).flatMap (·.encoded crc32c) ∧
          g'.bhIndex.topBlockHeight = k + 1 ∧ newBlockPersistence protocol crc32c conf g'.file = some (.ok g') := by
  have header := length_blocksFileHeader_write crc32c conf.fileHeader
  -- the new file holds the header only; writing the chain keeps `Holds`
  obtain ⟨f₀, opened, codec, fresh⟩ := holds_newBlockPersistence_nil protocol crc32c conf
  obtain ⟨f, written, -, holds⟩ := writeBlocks_holds protocol crc32c fresh (by rw [codec]; simpa using chain)
  have file : f.file = conf.fileHeader.write crc32c ++ blocks.flatMap (·.encoded crc32c) := by
    simpa using holds.file
  refine ⟨f₀, f, opened, by simpa using written, file, ?_⟩
  intro k
  have complete : k ≤ blocks.length := completeBlocks_le_length crc32c (L - 20) blocks
  obtain ⟨within, beyond⟩ : blockOffset crc32c 20 blocks (k + 1) ≤ 20 + (L - 20) ∧
      (k < blocks.length → 20 + (L - 20) < blockOffset crc32c 20 blocks (k + 2)) :=
    completeBlocks_spec crc32c 20 (L - 20) blocks
  have cut : f.file.take L = conf.fileHeader.write crc32c ++ (blocks.flatMap (·.encoded crc32c)).take (L - 20) := by
    rw [file, List.take_append, List.take_of_length_le (by omega), header]
  refine ⟨⟨complete, by omega, fun more => by have := beyond more; omega⟩, chainIndex protocol crc32c 20 (blocks.take k),
    ?_, by simp [chainIndex, complete], ?_, rfl, ?_⟩
  · rw [cut, List.drop_left' header]
    exact buildIndex_take protocol crc32c _ 20 (L - 20) blocks chain
  · intro h low high
    simp [chainIndex, complete, low, high, blockOffset_take crc32c 20 blocks high]
  -- reopening the cut file; its torn tail is shorter than block `k + 1`
  obtain ⟨tail, split, short⟩ : ∃ tail, (blocks.flatMap (·.encoded crc32c)).take (L - 20) =
      (blocks.take k).flatMap (·.encoded crc32c) ++ tail ∧
      ∀ b, blocks[k]? = some b → tail.length < (b.encoded crc32c).length :=
    take_flatMap_encoded crc32c (L - 20) blocks
  refine ⟨_, by rw [cut]; exact newBlockPersistence_take protocol crc32c conf blocks chain (L - 20), rfl, rfl, ?_⟩
  intro b next
  have torn : Holds protocol crc32c ⟨newCodec conf.blockStorageFileSystemMaxBlockSizeInBytes,
      conf.fileHeader.write crc32c ++ (blocks.flatMap (·.encoded crc32c)).take (L - 20),
      blockOffset crc32c 20 blocks (k + 1), chainIndex protocol crc32c 20 (blocks.take k)⟩
      (conf.fileHeader.write crc32c) (blocks.take k) tail :=
    ⟨by simp [split], by simp [header, complete, blockOffset_take], by simp [header]⟩
  obtain ⟨index, found⟩ := List.getElem?_eq_some_iff.mp next
  have height : protocol.resultsBlockHeight b.resultsBlock.header = (blocks.take k).length + 1 := by
    simpa [complete, ← found] using chain.heights k index
  obtain ⟨g', step, codec', holds'⟩ := writeNextBlock_holds protocol crc32c torn height
    (chain.encodable b (List.mem_of_getElem? next)) (Nat.le_of_lt (short b next))
  have longer : blocks.take k ++ [b] = blocks.take (k + 1) := by simp [List.take_add_one, next]
  rw [longer] at holds'
  refine ⟨g', by simpa [complete] using step, by simpa using holds'.file, by simp [holds'.bhIndex, chainIndex]; omega, ?_⟩
  exact newBlockPersistence_holds protocol crc32c conf holds' codec' (codec' ▸ Chain.take protocol crc32c _ chain (k + 1))

end Persistence



/-- Membuffers readers under which every header reads as height 1, timestamp 0 and one receipt. -/
def singleBlockProtocol : Protocol :=
  ⟨fun _ => 1, fun _ => 0, fun _ => 0, fun _ => 1, fun _ => 0, fun _ => 1, fun _ => 0, fun _ => [],
    fun _ => Nat.two_pow_pos 64, fun _ => Nat.two_pow_pos 64⟩

/-- A block with one receipt. -/
def singleBlock : BlockPairContainer :=
  ⟨⟨[1], [], [], []⟩, ⟨[2], [[7, 7]], [], []⟩⟩

/-- The chain of that block alone. -/
def singleBlockChain : List BlockPairContainer :=
  [singleBlock]

theorem torn_file_recovery_inside_first_block :
    Chain singleBlockProtocol (fun _ => 0) (newCodec 1024) singleBlockChain ∧ 20 ≤ 30 ∧
    ∃ f₀ f, newBlockPersistence singleBlockProtocol (fun _ => 0) ⟨1024, 0, 0, "blocks"⟩ [] = some (.ok f₀) ∧
      f₀.writeBlocks singleBlockProtocol (fun _ => 0) singleBlockChain =
        some (f, (List.range' 1 singleBlockChain.length).map fun h => (true, h, none)) ∧
      f.file = BlocksFileHeader.write (fun _ => 0) (FilesystemBlockPersistenceConfig.fileHeader ⟨1024, 0, 0, "blocks"⟩) ++ singleBlockChain.flatMap (·.encoded fun _ => 0) ∧
      let k := completeBlocks (fun _ => 0) (30 - 20) singleBlockChain
      (k ≤ singleBlockChain.length ∧ blockOffset (fun _ => 0) 20 singleBlockChain (k + 1) ≤ 30 ∧
        (k < singleBlockChain.length → 30 < blockOffset (fun _ => 0) 20 singleBlockChain (k + 2))) ∧
      ∃ i, buildIndex singleBlockProtocol (fun _ => 0) (newCodec 1024) ((f.file.take 30).drop 20) 20 = .ok i ∧
        i.topBlockHeight = k ∧
        (∀ h, 1 ≤ h → h ≤ k + 1 → i.heightOffset h = some (blockOffset (fun _ => 0) 20 singleBlockChain h)) ∧
        i.topBlock = (singleBlockChain.take k).getLast? ∧
      ∃ g, newBlockPersistence singleBlockProtocol (fun _ => 0) ⟨1024, 0, 0, "blocks"⟩ (f.file.take 30) = some (.ok g) ∧
        g.bhIndex = i ∧ g.writeOffset = blockOffset (fun _ => 0) 20 singleBlockChain (k + 1) ∧
        ∀ b, singleBlockChain[k]? = some b →
          ∃ g', g.writeNextBlock singleBlockProtocol (fun _ => 0) b = some (g', true, k + 1, none) ∧
            g'.file = BlocksFileHeader.write (fun _ => 0) (FilesystemBlockPersistenceConfig.fileHeader ⟨1024, 0, 0, "blocks"⟩) ++ (singleBlockChain.take (k + 1)).flatMap (·.encoded fun _ => 0) ∧
            g'.bhIndex.topBlockHeight = k + 1 ∧
            newBlockPersistence singleBlockProtocol (fun _ => 0) ⟨1024, 0, 0, "blocks"⟩ g'.file = some (.ok g') := by
  have chain : Chain singleBlockProtocol (fun _ => 0) (newCodec 1024) singleBlockChain :=
    ⟨fun i h => by simp [singleBlockChain] at h; subst h; rfl,
      fun b member => by simp [singleBlockChain] at member; subst member; exact ⟨⟨rfl, rfl, rfl⟩, by decide⟩⟩
  exact ⟨chain, by decide, torn_file_recovery singleBlockProtocol (fun _ => 0) ⟨1024, 0, 0, "blocks"⟩ _ chain 30 (by decide)⟩

end OrbsNetwork.BlockStorage
