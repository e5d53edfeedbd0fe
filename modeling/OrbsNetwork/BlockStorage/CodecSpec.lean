import OrbsNetwork.BlockStorage.Codec

namespace OrbsNetwork.BlockStorage

open ByteStream

theorem uint32_of_lt {n : Nat} (short : n < 2 ^ 32) : uint32 n = n :=
  Nat.mod_eq_of_lt short

theorem uint32_lt (n : Nat) : uint32 n < 2 ^ 32 :=
  Nat.mod_lt n (by norm_num)

theorem decodes_readUint32 {n : Nat} (short : n < 2 ^ 32) : Decodes readUint32 (toLE 4 n) n :=
  decodes_readLE (by simpa using short)

/-- The bytes messages take on disk, each after its uint32 length. -/
def chunksSize (messages : List Bytes) : Nat :=
  (messages.map fun m => chunkLengthSize + m.length).sum

@[simp] theorem chunksSize_nil : chunksSize [] = 0 := rfl

@[simp] theorem chunksSize_cons (m : Bytes) (ms : List Bytes) :
    chunksSize (m :: ms) = chunkLengthSize + m.length + chunksSize ms := by
  simp [chunksSize]

theorem length_le_chunksSize (ms : List Bytes) : ms.length ≤ chunksSize ms := by
  induction ms with
  | nil => rfl
  | cons m ms ih => simp only [List.length_cons, chunksSize_cons, chunkLengthSize]; omega

theorem length_flatMap_writeMessage (ms : List Bytes) : (ms.flatMap writeMessage).length = chunksSize ms := by
  induction ms with
  | nil => rfl
  | cons m ms ih => simp [writeMessage, ih, chunkLengthSize, Nat.add_assoc]

/-- The budgeted bytes of a block after its header: every message with its length. -/
def BlockPairContainer.chunksTotal (block : BlockPairContainer) : Nat :=
  chunksSize block.fixedMessages + chunksSize block.resultsBlock.transactionReceipts +
    chunksSize block.resultsBlock.contractStateDiffs + chunksSize block.transactionsBlock.signedTransactions

/-- Every header count `decode` reads agrees with the list it counts. -/
structure CountsMatch (protocol : Protocol) (block : BlockPairContainer) : Prop where
  receipts : protocol.numTransactionReceipts block.resultsBlock.header = block.resultsBlock.transactionReceipts.length
  diffs : protocol.numContractStateDiffs block.resultsBlock.header = block.resultsBlock.contractStateDiffs.length
  txs : protocol.numSignedTransactions block.transactionsBlock.header =
    block.transactionsBlock.signedTransactions.length

/-! ### The header `encode` computes -/

theorem addChunk_eq (size : Nat) (raw : Bytes) : addChunk size raw = uint32 (size + (chunkLengthSize + raw.length)) := by
  simp only [addChunk, diskChunkSize, uint32, chunkLengthSize]
  omega

theorem foldl_addChunk (ms : List Bytes) {size : Nat} (short : size < 2 ^ 32) :
    ms.foldl addChunk size = uint32 (size + chunksSize ms) := by
  induction ms generalizing size with
  | nil => exact (uint32_of_lt short).symm
  | cons m ms ih =>
    rw [List.foldl_cons, addChunk_eq, ih (uint32_lt _), chunksSize_cons]
    simp only [uint32]
    omega

/-- A fold of one of the `add` methods sets its own size field to the uint32 sum and keeps the
others: the four of them are instances. -/
theorem foldl_setField {add : BlockHeader → Bytes → BlockHeader} {get : BlockHeader → Nat}
    {set : BlockHeader → Nat → BlockHeader} (adds : ∀ bh m, add bh m = set bh (addChunk (get bh) m))
    (getSet : ∀ bh n, get (set bh n) = n) (setSet : ∀ bh n n', set (set bh n) n' = set bh n')
    (setGet : ∀ bh, set bh (get bh) = bh) (ms : List Bytes) (bh : BlockHeader) :
    ms.foldl add bh = set bh (ms.foldl addChunk (get bh)) := by
  induction ms generalizing bh with
  | nil => exact (setGet bh).symm
  | cons m ms ih => rw [List.foldl_cons, ih, adds, getSet, setSet, List.foldl_cons]

theorem blockHeader_eq (block : BlockPairContainer) :
    block.blockHeader =
      { magic := blockMagic, version := blockVersion, fixedSize := uint32 (chunksSize block.fixedMessages)
        receiptsSize := uint32 (chunksSize block.resultsBlock.transactionReceipts)
        diffsSize := uint32 (chunksSize block.resultsBlock.contractStateDiffs)
        txsSize := uint32 (chunksSize block.transactionsBlock.signedTransactions) } := by
  have fixed := @foldl_setField BlockHeader.addFixed BlockHeader.fixedSize (fun bh n => { bh with fixedSize := n })
    (fun _ _ => rfl) (fun _ _ => rfl) (fun _ _ _ => rfl) (fun _ => rfl)
  have receipts := @foldl_setField BlockHeader.addReceipt BlockHeader.receiptsSize
    (fun bh n => { bh with receiptsSize := n }) (fun _ _ => rfl) (fun _ _ => rfl) (fun _ _ _ => rfl) (fun _ => rfl)
  have diffs := @foldl_setField BlockHeader.addDiff BlockHeader.diffsSize (fun bh n => { bh with diffsSize := n })
    (fun _ _ => rfl) (fun _ _ => rfl) (fun _ _ _ => rfl) (fun _ => rfl)
  have txs := @foldl_setField BlockHeader.addTx BlockHeader.txsSize (fun bh n => { bh with txsSize := n })
    (fun _ _ => rfl) (fun _ _ => rfl) (fun _ _ _ => rfl) (fun _ => rfl)
  have fromZero := fun ms => @foldl_addChunk ms 0 (by norm_num)
  simp only [BlockPairContainer.blockHeader, fixed, receipts, diffs, txs, newBlockHeader, fromZero, Nat.zero_add]


/-! ### Sizes -/

theorem length_lt_chunksSize {ms : List Bytes} {m : Bytes} (member : m ∈ ms) : m.length < chunksSize ms := by
  induction ms with
  | nil => cases member
  | cons m' ms ih =>
    rw [chunksSize_cons]
    rcases List.mem_cons.mp member with same | later
    · subst same; simp [chunkLengthSize]; omega
    · have := ih later; omega

theorem totalSize_eq (block : BlockPairContainer) (short : block.chunksTotal < 2 ^ 32) :
    block.blockHeader.totalSize = block.chunksTotal := by
  simp only [BlockPairContainer.chunksTotal] at short
  simp only [blockHeader_eq, BlockHeader.totalSize, BlockPairContainer.chunksTotal, uint32]
  omega

theorem blockHeader_fields_lt (block : BlockPairContainer) : ∀ x ∈ block.blockHeader.fields, x < 2 ^ 32 := by
  simp only [blockHeader_eq, BlockHeader.fields, List.mem_cons, List.not_mem_nil, or_false]
  rintro x (rfl | rfl | rfl | rfl | rfl | rfl) <;> first | exact uint32_lt _ | decide

theorem totalSize_le (block : BlockPairContainer) : block.blockHeader.totalSize ≤ block.chunksTotal := by
  simp only [blockHeader_eq, BlockHeader.totalSize, BlockPairContainer.chunksTotal, uint32]
  omega

theorem fieldAt_writeFields {fields : List Nat} (short : ∀ x ∈ fields, x < 2 ^ 32) {i : Nat}
    (index : i < fields.length) : fieldAt (writeFields fields) i = fields[i] := by
  induction fields generalizing i with
  | nil => simp at index
  | cons x xs ih =>
    have width : (toLE 4 x).length = 4 := length_toLE 4 x
    cases i with
    | zero =>
      simp only [fieldAt, writeFields, List.flatMap_cons, Nat.mul_zero, List.drop_zero]
      rw [List.take_left' width, ofLE_toLE_of_lt (by simpa using short x List.mem_cons_self)]
      rfl
    | succ i =>
      have step : 4 * (i + 1) = (toLE 4 x).length + 4 * i := by rw [width]; ring
      simp only [fieldAt, writeFields, List.flatMap_cons] at ih ⊢
      rw [step, List.drop_length_add_append]
      exact ih (fun y member => short y (List.mem_cons_of_mem x member)) (by simpa using index)

theorem length_writeFields (fields : List Nat) : (writeFields fields).length = 4 * fields.length := by
  induction fields with
  | nil => rfl
  | cons x xs ih => simp [writeFields] at ih ⊢; omega

theorem ofBytes_write {bh : BlockHeader} (short : ∀ x ∈ bh.fields, x < 2 ^ 32) :
    BlockHeader.ofBytes bh.write = bh := by
  simp (disch := simp [BlockHeader.fields]) only [BlockHeader.ofBytes, BlockHeader.write, fieldAt_writeFields short]
  rfl

theorem decodes_blockHeader_read {bh : BlockHeader} (magic : bh.magic = blockMagic) (version : bh.version = blockVersion)
    (short : ∀ x ∈ bh.fields, x < 2 ^ 32) : Decodes BlockHeader.read bh.write bh := by
  refine (decodes_readFull bh.write (by simp [BlockHeader.write, length_writeFields, BlockHeader.fields, blockHeaderSize])).bind_last ?_
  dsimp only
  rw [ofBytes_write short, if_neg (by simp [magic]), if_neg (by simp [version])]
  exact decodes_pure bh

/-! ### Decoding what `encode` wrote -/

theorem decodes_readChunk {budget : ReadingBudget} {m : Bytes} (short : m.length < 2 ^ 32)
    (room : budget.bytesRead + chunkLengthSize + m.length ≤ budget.limit) :
    Decodes (readChunk budget) (writeMessage m) (m, ⟨budget.limit, budget.bytesRead + chunkLengthSize + m.length⟩) := by
  rw [writeMessage, uint32_of_lt short]
  refine (decodes_readUint32 short).bind ?_
  dsimp only
  rw [if_neg (by omega)]
  exact (decodes_readFull m rfl).bind_last (decodes_pure _)

theorem decodes_readChunks (ms : List Bytes) {budget : ReadingBudget} (short : ∀ m ∈ ms, m.length < 2 ^ 32)
    (room : budget.bytesRead + chunksSize ms ≤ budget.limit) :
    Decodes (readChunks ms.length budget) (ms.flatMap writeMessage) (ms, ⟨budget.limit, budget.bytesRead + chunksSize ms⟩) := by
  induction ms generalizing budget with
  | nil => exact decodes_pure _
  | cons m ms ih =>
    rw [chunksSize_cons] at room
    rw [List.flatMap_cons, List.length_cons, readChunks]
    refine (decodes_readChunk (short m List.mem_cons_self) (by omega)).bind ?_
    refine (ih (fun m' member => short m' (List.mem_cons_of_mem m member)) (by dsimp only; omega)).bind_last ?_
    rw [chunksSize_cons, ← Nat.add_assoc, ← Nat.add_assoc]
    exact decodes_pure _

section Checksummed

variable (crc32c : Bytes → UInt32)

theorem decodes_readDynamicBlockSection (ms : List Bytes) {budget : ReadingBudget} (count : ms.length ≤ uint32 budget.limit)
    (short : ∀ m ∈ ms, m.length < 2 ^ 32) (room : budget.bytesRead + chunksSize ms ≤ budget.limit) :
    Decodes (readDynamicBlockSection budget ms.length) (sectionWithChecksum crc32c ms)
      (ms, (crc32c (ms.flatMap writeMessage)).toNat, ⟨budget.limit, budget.bytesRead + chunksSize ms⟩) := by
  rw [readDynamicBlockSection, if_neg (Nat.not_lt.mpr count)]
  refine (decodes_readChunks ms short room).bind ?_
  exact (decodes_readUint32 (crc32c _).toNat_lt).bind_last (decodes_pure _)


/-- What `readFixedSection` returns for the fixed section `encode` wrote. -/
def BlockPairContainer.fixedSection (block : BlockPairContainer) : FixedSizeBlockSection :=
  ⟨block.transactionsBlock.header, block.transactionsBlock.metadata, block.transactionsBlock.blockProof,
    block.resultsBlock.header, block.resultsBlock.blockProof⟩

theorem decodes_readFixedSection (block : BlockPairContainer) {budget : ReadingBudget}
    (short : ∀ m ∈ block.fixedMessages, m.length < 2 ^ 32) (room : budget.bytesRead + chunksSize block.fixedMessages ≤ budget.limit) :
    Decodes (readFixedSection budget) (writeFixedBlockSectionWithChecksum crc32c block)
      (block.fixedSection, (crc32c (block.fixedMessages.flatMap writeMessage)).toNat,
        ⟨budget.limit, budget.bytesRead + chunksSize block.fixedMessages⟩) := by
  simp only [BlockPairContainer.fixedMessages, List.mem_cons, List.not_mem_nil, or_false, forall_eq_or_imp, forall_eq] at short
  obtain ⟨header, metadata, proof, rbHeader, rbProof⟩ := short
  simp only [BlockPairContainer.fixedMessages, chunksSize_cons, chunksSize_nil] at room ⊢
  simp only [writeFixedBlockSectionWithChecksum, sectionWithChecksum, BlockPairContainer.fixedMessages, List.flatMap_cons,
    List.flatMap_nil, List.append_nil, List.append_assoc]
  refine (decodes_readChunk header (by omega)).bind ?_
  refine (decodes_readChunk metadata (by dsimp only; omega)).bind ?_
  refine (decodes_readChunk proof (by dsimp only; omega)).bind ?_
  refine (decodes_readChunk rbHeader (by dsimp only; omega)).bind ?_
  refine (decodes_readChunk rbProof (by dsimp only; omega)).bind ?_
  refine (decodes_readUint32 (crc32c _).toNat_lt).bind_last ?_
  exact decodes_pure_of_eq (by simp only [BlockPairContainer.fixedSection, Prod.mk.injEq, ReadingBudget.mk.injEq, true_and]; omega)

theorem length_sectionWithChecksum (ms : List Bytes) :
    (sectionWithChecksum crc32c ms).length = chunksSize ms + checksumSize := by
  simp only [sectionWithChecksum, List.length_append, length_flatMap_writeMessage, length_toLE, checksumSize]

theorem length_blockHeader_write (block : BlockPairContainer) : block.blockHeader.write.length = blockHeaderSize := by
  simp [BlockHeader.write, length_writeFields, BlockHeader.fields, blockHeaderSize]

theorem length_fullBlock (block : BlockPairContainer) :
    (block.fullBlock crc32c).length = blockHeaderSize + block.chunksTotal + 4 * checksumSize := by
  simp only [BlockPairContainer.fullBlock, writeFixedBlockSectionWithChecksum, writeDynamicBlockSectionWithChecksum,
    List.length_append, length_sectionWithChecksum, length_blockHeader_write, BlockPairContainer.chunksTotal]
  omega

variable (protocol : Protocol)

theorem decodes_decodeSections (c : Codec) (block : BlockPairContainer) (counts : CountsMatch protocol block)
    (fits : (block.fullBlock crc32c).length ≤ c.maxBlockSize) :
    Decodes (c.decodeSections protocol) (block.fullBlock crc32c) (block, blockHeaderSize + block.chunksTotal) := by
  have bound := c.maxBlockSize_lt
  have headerSize : blockHeaderSize = 24 := rfl
  have sumSize : checksumSize = 4 := rfl
  rw [length_fullBlock] at fits
  have parts : block.chunksTotal = chunksSize block.fixedMessages + chunksSize block.resultsBlock.transactionReceipts +
      chunksSize block.resultsBlock.contractStateDiffs + chunksSize block.transactionsBlock.signedTransactions := rfl
  have limit : uint32 (block.chunksTotal + blockHeaderSize) = block.chunksTotal + blockHeaderSize :=
    uint32_of_lt (by omega)
  -- every message, and every section's count, is within what the header's sizes allow
  have short : ∀ ms : List Bytes, chunksSize ms ≤ block.chunksTotal → ∀ m ∈ ms, m.length < 2 ^ 32 := by
    intro ms within m member
    have := length_lt_chunksSize member
    omega
  have count : ∀ ms : List Bytes, chunksSize ms ≤ block.chunksTotal →
      ms.length ≤ uint32 (block.chunksTotal + blockHeaderSize) := by
    intro ms within
    have := length_le_chunksSize ms
    omega
  have header := blockHeader_eq block
  simp only [BlockPairContainer.fullBlock, List.append_assoc]
  refine (decodes_blockHeader_read (by rw [header]) (by rw [header]) (blockHeader_fields_lt block)).bind ?_
  dsimp only
  rw [totalSize_eq block (by omega), if_neg (by omega)]
  refine (decodes_readFixedSection crc32c block (short _ (by omega)) (by dsimp only; omega)).bind ?_
  dsimp only [BlockPairContainer.fixedSection]
  rw [counts.receipts]
  refine (decodes_readDynamicBlockSection crc32c block.resultsBlock.transactionReceipts
    (count block.resultsBlock.transactionReceipts (by omega)) (short block.resultsBlock.transactionReceipts (by omega)) (by dsimp only; omega)).bind ?_
  dsimp only
  rw [counts.diffs]
  refine (decodes_readDynamicBlockSection crc32c block.resultsBlock.contractStateDiffs
    (count block.resultsBlock.contractStateDiffs (by omega)) (short block.resultsBlock.contractStateDiffs (by omega)) (by dsimp only; omega)).bind ?_
  dsimp only
  rw [counts.txs]
  refine (decodes_readDynamicBlockSection crc32c block.transactionsBlock.signedTransactions
    (count block.transactionsBlock.signedTransactions (by omega)) (short block.transactionsBlock.signedTransactions (by omega)) (by dsimp only; omega)).bind_last ?_
  dsimp only
  rw [if_neg (by omega)]
  exact decodes_pure_of_eq (by simp only [Prod.mk.injEq, true_and]; omega)

/-- The bytes of a block as `encode` leaves them when it accepts it: what went through the
full-block writer, then its checksum. -/
def BlockPairContainer.encoded (block : BlockPairContainer) : Bytes :=
  block.fullBlock crc32c ++ toLE 4 (crc32c (block.fullBlock crc32c)).toNat

theorem length_encoded (block : BlockPairContainer) :
    (block.encoded crc32c).length = blockHeaderSize + block.chunksTotal + checksumSize * 5 := by
  simp only [BlockPairContainer.encoded, List.length_append, length_fullBlock, length_toLE, checksumSize]

theorem decodes_decode (c : Codec) (block : BlockPairContainer) (counts : CountsMatch protocol block)
    (fits : (block.fullBlock crc32c).length ≤ c.maxBlockSize) :
    Decodes (c.decode crc32c protocol) (block.encoded crc32c) (block, (block.encoded crc32c).length) := by
  refine (decodes_tee (decodes_decodeSections crc32c protocol c block counts fits)).bind ?_
  refine (decodes_readUint32 (crc32c _).toNat_lt).bind_last ?_
  dsimp only
  rw [if_neg (by simp)]
  exact decodes_pure_of_eq (by rw [length_encoded])

theorem fits_of_encode_ok {c : Codec} {block : BlockPairContainer} {n : Nat}
    (accepted : (c.encode crc32c block).2 = .ok n) : (block.fullBlock crc32c).length ≤ c.maxBlockSize := by
  by_contra tooLarge
  exact absurd accepted (by simp [Codec.encode, Nat.lt_of_not_le tooLarge])

theorem encode_of_fits (c : Codec) (block : BlockPairContainer) (fits : (block.fullBlock crc32c).length ≤ c.maxBlockSize) :
    c.encode crc32c block = (block.encoded crc32c, .ok (block.encoded crc32c).length) := by
  have bound := c.maxBlockSize_lt
  have length := length_fullBlock crc32c block
  have total : block.chunksTotal < 2 ^ 32 := by
    simp only [blockHeaderSize, checksumSize] at length
    omega
  simp only [Codec.encode, if_neg (Nat.not_lt.mpr fits), totalSize_eq block total]
  rw [length_encoded]
  rfl

/-- A block that `encode` accepts is never refused by the size check of `decode`, which reads
the same header back; and a block whose header counts agree with its lists is written in `n`
bytes, with `n` returned, and read back from a stream that starts with them, whole and in
`n` bytes. -/
theorem codec_round_trip (c : Codec) :
    (∀ block n, (c.encode crc32c block).2 = .ok n →
      ∃ rest, BlockHeader.read.run (c.encode crc32c block).1 = .ok (block.blockHeader, rest) ∧
        ¬ c.maxBlockSize < block.blockHeader.totalSize + blockHeaderSize) ∧
    ∀ block, CountsMatch protocol block → (block.fullBlock crc32c).length ≤ c.maxBlockSize →
      ∃ bytes n, c.encode crc32c block = (bytes, .ok n) ∧ bytes.length = n ∧
        ∀ rest, (c.decode crc32c protocol).run (bytes ++ rest) = .ok ((block, n), rest) := by
  refine ⟨fun block n accepted => ?_, fun block counts fits => ?_⟩
  · have fits := fits_of_encode_ok crc32c accepted
    have length := length_fullBlock crc32c block
    have header := decodes_blockHeader_read (by rw [blockHeader_eq]) (by rw [blockHeader_eq])
      (blockHeader_fields_lt block)
    have below := totalSize_le block
    rw [encode_of_fits crc32c c block fits]
    simp only [BlockPairContainer.encoded, BlockPairContainer.fullBlock, List.append_assoc]
    exact ⟨_, header.exact _, by simp only [blockHeaderSize, checksumSize] at length ⊢; omega⟩
  · exact ⟨_, _, encode_of_fits crc32c c block fits, rfl, (decodes_decode crc32c protocol c block counts fits).exact⟩

end Checksummed

theorem codec_round_trip_one_receipt :
    ∃ bytes n, (newCodec 1024).encode (fun _ => 0) ⟨⟨[1], [], [], []⟩, ⟨[2], [[7, 7]], [], []⟩⟩ = (bytes, .ok n) ∧
      bytes.length = n ∧
      ∀ rest, ((newCodec 1024).decode (fun _ => 0)
          ⟨fun _ => 0, fun _ => 0, fun _ => 0, fun _ => 0, fun _ => 0, fun _ => 1, fun _ => 0, fun _ => [],
            fun _ => Nat.two_pow_pos 64, fun _ => Nat.two_pow_pos 64⟩).run
          (bytes ++ rest) = .ok ((⟨⟨[1], [], [], []⟩, ⟨[2], [[7, 7]], [], []⟩⟩, n), rest) :=
  (codec_round_trip (fun _ => 0)
    ⟨fun _ => 0, fun _ => 0, fun _ => 0, fun _ => 0, fun _ => 0, fun _ => 1, fun _ => 0, fun _ => [],
            fun _ => Nat.two_pow_pos 64, fun _ => Nat.two_pow_pos 64⟩ (newCodec 1024)).2
    _ ⟨rfl, rfl, rfl⟩ (by decide)

end OrbsNetwork.BlockStorage
