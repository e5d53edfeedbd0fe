import OrbsNetwork.BlockStorage.FileSystemSpec
import OrbsNetwork.BlockStorage.Memory
import OrbsNetwork.Library.Paging

namespace OrbsNetwork.BlockStorage

open ByteStream Paging

section File

variable (protocol : Protocol) (crc32c : Bytes → UInt32) (c : Codec)

/-- A page read from a stream of encoded blocks: up to `k` of them, the rest of the stream, and
whether the stream ended before the page was full. -/
theorem readPage_flatMap (k : Nat) (bs page : List BlockPairContainer)
    (encodable : ∀ b ∈ bs, Encodable protocol crc32c c b) :
    readPage protocol crc32c c k (bs.flatMap (·.encoded crc32c)) page =
      .ok (page ++ bs.take k, (bs.drop k).flatMap (·.encoded crc32c), decide (bs.length < k)) := by
  induction k generalizing bs page with
  | zero => simp [readPage]
  | succ k ih =>
    cases bs with
    | nil => simp [readPage, decode_nil]
    | cons b bs =>
      rw [List.flatMap_cons, readPage, decode_encoded protocol crc32c c (encodable b (by simp))]
      dsimp only
      rw [ih bs _ (fun b' member => encodable b' (by simp [member]))]
      simp

/-- The outer loop of `ScanBlocks` over encoded blocks whose heights count up from `first`
shows the cursor those blocks cut into pages. The induction is on the fuel, one page a turn. -/
theorem scanLoop_flatMap {σ : Type} {pageSize : Nat} (positive : 0 < pageSize)
    (cursor : σ → Nat → List BlockPairContainer → σ × Bool) (fuel first : Nat) (bs : List BlockPairContainer) (s : σ)
    (heights : ∀ i (h : i < bs.length), protocol.resultsBlockHeight bs[i].resultsBlock.header = first + i)
    (encodable : ∀ b ∈ bs, Encodable protocol crc32c c b) (enough : bs.length < fuel) :
    scanLoop protocol crc32c c pageSize cursor fuel (bs.flatMap (·.encoded crc32c)) s =
      some (deliver cursor first (pages pageSize bs) s, .ok ()) := by
  induction fuel generalizing first bs s with
  | zero => omega
  | succ fuel ih =>
    rw [scanLoop, readPage_flatMap protocol crc32c c pageSize bs [] encodable]
    cases bs with
    | nil => simp [positive]
    | cons b rest =>
      obtain ⟨k, rfl⟩ : ∃ k, pageSize = k + 1 := ⟨pageSize - 1, by omega⟩
      have head : protocol.resultsBlockHeight b.resultsBlock.header = first := heights 0 (by simp)
      rw [pages_of_ne_nil positive (List.cons_ne_nil b rest), deliver_cons]
      simp only [List.nil_append, List.take_succ_cons, head]
      by_cases more : (cursor s first (b :: rest.take k)).2 = true
      · by_cases full : k + 1 ≤ (b :: rest).length
        · have next := ih (first + (k + 1)) ((b :: rest).drop (k + 1)) (cursor s first (b :: rest.take k)).1
            (fun i h => by
              have := heights (k + 1 + i) (by simp at h ⊢; omega)
              simp only [List.getElem_drop] at this ⊢
              rw [this]
              omega)
            (fun b' member => encodable b' (List.mem_of_mem_drop member)) (by simp at enough ⊢; omega)
          have notEnded : ¬ (b :: rest).length < k + 1 := by omega
          have pageLength : (b :: rest.take k).length = k + 1 := by simp at full ⊢; omega
          simp only [more, notEnded, decide_false, Bool.false_eq_true, not_false_eq_true, and_self, if_true,
            pageLength, next]
        · have ended : (b :: rest).drop (k + 1) = [] := List.drop_eq_nil_of_le (by omega)
          have short : rest.length < k := by simp at full; omega
          simp [more, ended, short]
      · simp [more]

end File

/-- The loop of the in-memory `ScanBlocks` from `fromHeight` shows the cursor the blocks from
there on cut into pages. The induction is on the fuel, one page a turn. -/
theorem memScanLoop_eq {σ : Type} (allBlocks : List BlockPairContainer) {pageSize : Nat} (positive : 0 < pageSize)
    (f : σ → Nat → List BlockPairContainer → σ × Bool) (fuel fromHeight : Nat) (s : σ)
    (low : 1 ≤ fromHeight) (high : fromHeight ≤ allBlocks.length + 1)
    (enough : allBlocks.length + 1 - fromHeight < fuel) :
    memScanLoop allBlocks pageSize f fuel fromHeight s =
      some (deliver f fromHeight (pages pageSize (allBlocks.drop (fromHeight - 1))) s) := by
  induction fuel generalizing fromHeight s with
  | zero => omega
  | succ fuel ih =>
    rw [memScanLoop]
    by_cases within : fromHeight ≤ allBlocks.length
    · -- the page is the next `pageSize` blocks, fewer at the end of the chain
      have page : (allBlocks.drop (fromHeight - 1)).take
          (min (fromHeight - 1 + pageSize) allBlocks.length - (fromHeight - 1)) =
          (allBlocks.drop (fromHeight - 1)).take pageSize := by
        by_cases room : fromHeight - 1 + pageSize ≤ allBlocks.length
        · rw [Nat.min_eq_left room, Nat.add_sub_cancel_left]
        · rw [Nat.min_eq_right (by omega), List.take_of_length_le (by simp),
            List.take_of_length_le (by simp; omega)]
      have next : min (fromHeight - 1 + pageSize) allBlocks.length + 1 =
          fromHeight + ((allBlocks.drop (fromHeight - 1)).take pageSize).length := by
        simp
        omega
      have skipped : allBlocks.drop (min (fromHeight - 1 + pageSize) allBlocks.length) =
          (allBlocks.drop (fromHeight - 1)).drop pageSize := by
        rw [List.drop_drop]
        by_cases room : fromHeight - 1 + pageSize ≤ allBlocks.length
        · rw [Nat.min_eq_left room]
        · rw [Nat.min_eq_right (by omega), List.drop_eq_nil_of_le (by simp), List.drop_eq_nil_of_le (by omega)]
      rw [if_pos within, pages_of_ne_nil positive (by simp; omega), deliver_cons]
      dsimp only
      rw [page]
      by_cases more : (f s fromHeight ((allBlocks.drop (fromHeight - 1)).take pageSize)).2 = true
      · rw [if_pos more, if_pos more, ih _ _ (by omega) (by omega) (by omega), Nat.add_sub_cancel, skipped, next]
      · rw [if_neg more, if_neg more]
    · rw [if_neg within]
      obtain rfl : fromHeight = allBlocks.length + 1 := by omega
      simp

section Persistence

variable (protocol : Protocol) (crc32c : Bytes → UInt32)

/-- The blocks file read from the offset of block `h` on holds the blocks from `h` on. -/
theorem drop_blockOffset (pre : Bytes) (bs : List BlockPairContainer) (h : Nat) :
    (pre ++ bs.flatMap (·.encoded crc32c)).drop (blockOffset crc32c pre.length bs h) =
      (bs.drop (h - 1)).flatMap (·.encoded crc32c) := by
  have split : bs.flatMap (·.encoded crc32c) =
      (bs.take (h - 1)).flatMap (·.encoded crc32c) ++ (bs.drop (h - 1)).flatMap (·.encoded crc32c) := by
    rw [← List.flatMap_append, List.take_append_drop]
  have offset : blockOffset crc32c pre.length bs h = (pre ++ (bs.take (h - 1)).flatMap (·.encoded crc32c)).length := by
    simp [blockOffset, List.length_flatMap]
  rw [offset, split, ← List.append_assoc, List.drop_left]

theorem length_le_flatMap_encoded (bs : List BlockPairContainer) : bs.length ≤ (bs.flatMap (·.encoded crc32c)).length := by
  induction bs with
  | nil => simp
  | cons b bs ih =>
    have := length_encoded_pos crc32c b
    simp only [List.flatMap_cons, List.length_append, List.length_cons]
    omega

/-- `ScanBlocks` of the blocks file from a known height shows the cursor the chain from that
height on, cut into pages. -/
theorem scanBlocks_holds {σ : Type} {f : BlockPersistence} {pre : Bytes} {blocks : List BlockPairContainer}
    (holds : Holds protocol crc32c f pre blocks []) (chain : Chain protocol crc32c f.codec blocks)
    {fromHeight pageSize : Nat} (low : 1 ≤ fromHeight) (high : fromHeight ≤ blocks.length) (positive : 0 < pageSize)
    (cursor : σ → Nat → List BlockPairContainer → σ × Bool) (s : σ) :
    f.scanBlocks protocol crc32c fromHeight pageSize cursor s =
      some (deliver cursor fromHeight (pages pageSize (blocks.drop (fromHeight - 1))) s, .ok ()) := by
  have top : f.bhIndex.topBlockHeight = blocks.length := by rw [holds.bhIndex]; rfl
  have offset : f.bhIndex.fetchBlockOffset fromHeight = some (blockOffset crc32c pre.length blocks fromHeight) := by
    simp [holds.bhIndex, BlockHeightIndex.fetchBlockOffset, chainIndex, low]
    omega
  have file : f.file = pre ++ blocks.flatMap (·.encoded crc32c) := by simpa using holds.file
  have enough := length_le_flatMap_encoded crc32c (blocks.drop (fromHeight - 1))
  have stream := drop_blockOffset crc32c pre blocks fromHeight
  rw [← file] at stream
  have whole : ((blocks.drop (fromHeight - 1)).flatMap (·.encoded crc32c)).length ≤ f.file.length := by
    rw [← stream, List.length_drop]
    omega
  rw [BlockPersistence.scanBlocks, top, if_neg (by omega), offset, Option.bind_some, stream]
  exact scanLoop_flatMap protocol crc32c f.codec positive cursor _ fromHeight _ s
    (fun i h => by
      have height := chain.heights (fromHeight - 1 + i) (by simp at h; omega)
      simp only [List.getElem_drop]
      omega)
    (fun b member => chain.encodable b (List.mem_of_mem_drop member)) (by omega)

/-- The in-memory `ScanBlocks` from a known height shows the cursor its blocks from that height
on, cut into pages. -/
theorem InMemoryBlockPersistence.scanBlocks_eq {σ : Type} (bp : InMemoryBlockPersistence) {fromHeight pageSize : Nat}
    (low : 1 ≤ fromHeight) (high : fromHeight ≤ bp.blocks.length) (positive : 0 < pageSize)
    (cursor : σ → Nat → List BlockPairContainer → σ × Bool) (s : σ) :
    bp.scanBlocks fromHeight pageSize cursor s =
      some (deliver cursor fromHeight (pages pageSize (bp.blocks.drop (fromHeight - 1))) s, .ok ()) := by
  rw [InMemoryBlockPersistence.scanBlocks, if_neg (by omega),
    memScanLoop_eq bp.blocks positive cursor _ fromHeight s low (by omega) (by omega)]
  rfl

end Persistence

end OrbsNetwork.BlockStorage
