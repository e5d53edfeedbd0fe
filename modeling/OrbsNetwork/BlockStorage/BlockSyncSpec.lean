import OrbsNetwork.BlockStorage.BlockSync
import OrbsNetwork.BlockStorage.ScanSpec

namespace OrbsNetwork.BlockStorage

open Paging

/-- Pages of one block shown to the cursor of `GetBlockSlice` from height `first`: the blocks are
taken up to the first one at height `last` or above. -/
theorem deliver_sliceCursor (last : UInt64) (blocks acc : List BlockPairContainer) (first : Nat) :
    deliver (sliceCursor last) first (blocks.map fun b => [b]) acc =
      acc ++ blocks.take (last.toNat - first + 1) := by
  induction blocks generalizing first acc with
  | nil => simp
  | cons b blocks ih =>
    rw [List.map_cons, deliver_cons]
    by_cases below : first < last.toNat
    · have more : last.toNat - first + 1 = last.toNat - (first + 1) + 1 + 1 := by omega
      simp only [sliceCursor, below, decide_true, if_true, List.length_singleton, ih, more, List.take_succ_cons,
        List.append_assoc, List.singleton_append]
    · have one : last.toNat - first + 1 = 1 := by omega
      simp [sliceCursor, below, one]

section Slice

variable (bp : InMemoryBlockPersistence) {first last : UInt64}

/-- From a stored height, `GetBlockSlice` returns that block and the following ones up to `last`,
at least one. -/
theorem getBlockSlice_of_le (fits : makeSliceFits (last - first + 1)) (low : 1 ≤ first.toNat)
    (high : first.toNat ≤ bp.blocks.length) :
    let blocks := (bp.blocks.drop (first.toNat - 1)).take (last.toNat - first.toNat + 1)
    getBlockSlice bp first last = some (.ok (blocks, first, first + blocks.length.toUInt64 - 1)) := by
  have nonempty : ((bp.blocks.drop (first.toNat - 1)).take (last.toNat - first.toNat + 1)).length ≠ 0 := by
    simp only [List.length_take, List.length_drop]
    omega
  rw [getBlockSlice, if_pos fits, InMemoryBlockPersistence.scanBlocks_eq bp low high Nat.one_pos, pages_one,
    deliver_sliceCursor, List.nil_append]
  simp only [Option.map_some, nonempty, if_false]

/-- From height 0 or above the top, `GetBlockSlice` returns the persistence's error. -/
theorem getBlockSlice_of_unknown (fits : makeSliceFits (last - first + 1))
    (unknown : bp.blocks.length < first.toNat ∨ first.toNat = 0) :
    getBlockSlice bp first last = some (.error
      s!"failed getting block slice: requested unknown block height {first.toNat}. current height is {bp.blocks.length}") := by
  rw [getBlockSlice, if_pos fits, InMemoryBlockPersistence.scanBlocks, if_pos unknown]
  rfl

theorem getBlockSlice_of_not_fits (tooLarge : makeSliceFits (last - first + 1) = false) :
    getBlockSlice bp first last = none := by
  rw [getBlockSlice, if_neg (by simp [tooLarge])]

end Slice

/-- The chunk sizes of the sending loop: the first, then each half of the one before. -/
theorem le_of_mem_iterate_half {c n : Nat} : ∀ {k : Nat}, c ∈ List.iterate (· / 2) n k → c ≤ n
  | 0, member => by simp at member
  | k + 1, member => by
    rw [List.iterate, List.mem_cons] at member
    rcases member with rfl | later
    · exact Nat.le_refl c
    · exact (le_of_mem_iterate_half later).trans (Nat.div_le_self n 2)

/-- The sending loop sends the chunk, then each half of it after a full queue, and ends. The
induction is on the fuel, which the chunk size stays below as it halves. -/
theorem sendChunks_spec (transport : Nat → Option String) (response : Nat → BlockSyncResponseInput) {fuel : Nat} :
    ∀ {chunkSize : Nat}, chunkSize < fuel → ∀ attempt, ∃ k result,
      sendChunks transport response fuel attempt chunkSize =
        some ((List.iterate (· / 2) chunkSize (k + 1)).map response, result) ∧
      ∀ j < k, ∃ err, transport (attempt + j) = some err ∧ isChunkTooBigError err = true := by
  induction fuel with
  | zero => intro chunkSize enough; omega
  | succ fuel ih =>
    intro chunkSize enough attempt
    rw [sendChunks]
    cases answer : transport attempt with
    | none => exact ⟨0, none, rfl, fun j below => absurd below (Nat.not_lt_zero j)⟩
    | some err =>
      dsimp only
      by_cases big : isChunkTooBigError err = true
      · by_cases empty : chunkSize = 0
        · refine ⟨0, some err, ?_, fun j below => absurd below (Nat.not_lt_zero j)⟩
          simp [big, empty]
        -- a full queue: the half chunk is sent from the next attempt on
        · obtain ⟨k, result, rest, retried⟩ := ih (show chunkSize / 2 < fuel by omega) (attempt + 1)
          refine ⟨k + 1, result, ?_, ?_⟩
          · simp only [big, Bool.not_true, Bool.false_eq_true, if_false, empty, rest, Option.map_some]
            rfl
          · intro j below
            cases j with
            | zero => exact ⟨err, answer, big⟩
            | succ j =>
              obtain ⟨err', atJ, big'⟩ := retried j (by omega)
              exact ⟨err', by rw [← atJ]; congr 1; omega, big'⟩
      · refine ⟨0, some err, ?_, fun j below => absurd below (Nat.not_lt_zero j)⟩
        simp [big]

/-- Every response of the sending loop carries a chunk no larger than the first one. -/
theorem sendChunks_mem {transport : Nat → Option String} {response : Nat → BlockSyncResponseInput} {n : Nat}
    {sent : List BlockSyncResponseInput} {result : Option String}
    (run : sendChunks transport response (n + 1) 0 n = some (sent, result)) :
    ∀ r ∈ sent, ∃ c ≤ n, r = response c := by
  obtain ⟨k, result', spec, _⟩ := sendChunks_spec transport response (Nat.lt_succ_self n) 0
  rw [spec, Option.some.injEq, Prod.mk.injEq] at run
  intro r member
  rw [← run.1] at member
  obtain ⟨c, halved, rfl⟩ := List.mem_map.mp member
  exact ⟨c, le_of_mem_iterate_half halved, rfl⟩

theorem sendChunks_ne_none (transport : Nat → Option String) (response : Nat → BlockSyncResponseInput) (n : Nat) :
    sendChunks transport response (n + 1) 0 n ≠ none := by
  obtain ⟨k, result, spec, _⟩ := sendChunks_spec transport response (Nat.lt_succ_self n) 0
  rw [spec]
  exact Option.some_ne_none _

/-- A chunk of the blocks read is a chunk of the chain from the first height read. -/
theorem chunkResponse_take {nodeAddress recipientNodeAddress : Bytes} {blockType : Nat}
    {firstAvailable lastCommitted : UInt64} (blocks : List BlockPairContainer) {n c : Nat} (le : c ≤ n) :
    chunkResponse nodeAddress recipientNodeAddress blockType firstAvailable lastCommitted (blocks.take n) c =
      chunkResponse nodeAddress recipientNodeAddress blockType firstAvailable lastCommitted blocks c := by
  simp only [chunkResponse, List.take_take, Nat.min_eq_left le]

/-- The responses sent over the first `n` blocks of a list each carry a chunk of that list, of at
most as many blocks. -/
theorem sendChunks_take_mem {transport : Nat → Option String} {nodeAddress recipientNodeAddress : Bytes}
    {blockType : Nat} {firstAvailable lastCommitted : UInt64} (blocks : List BlockPairContainer) (n : Nat)
    {sent : List BlockSyncResponseInput} {result : Option String}
    (run : sendChunks transport
      (chunkResponse nodeAddress recipientNodeAddress blockType firstAvailable lastCommitted (blocks.take n))
      ((blocks.take n).length + 1) 0 (blocks.take n).length = some (sent, result)) :
    ∀ r ∈ sent, ∃ c ≤ (blocks.take n).length,
      r = chunkResponse nodeAddress recipientNodeAddress blockType firstAvailable lastCommitted blocks c := by
  intro r member
  obtain ⟨c, le, rfl⟩ := sendChunks_mem run r member
  have withinN : c ≤ n := le.trans (List.length_take_le n blocks)
  exact ⟨c, le, chunkResponse_take blocks withinN⟩

section Clamp

variable {numBlocksInBatch : UInt32} {first last : UInt64} {top : Nat}

/-- Below the top, the uint64 difference wraps above any batch: the clamp reads a whole batch. -/
theorem clamp_of_lt (batch : 0 < numBlocksInBatch) (short : top < 2 ^ 63) (below : first.toNat < top) :
    clampLastRequestedBlockHeight numBlocksInBatch first last top.toUInt64 =
      first + (numBlocksInBatch - 1).toUInt64 := by
  have one : 1 ≤ numBlocksInBatch := batch
  have batchSize : (numBlocksInBatch - 1).toUInt64.toNat = numBlocksInBatch.toNat - 1 := by
    rw [UInt32.toNat_toUInt64, UInt32.toNat_sub_of_le _ _ one]
    rfl
  have batchBound := numBlocksInBatch.toNat_lt_size
  have topSize : top.toUInt64.toNat = top := by simp; omega
  have wraps : (numBlocksInBatch - 1).toUInt64 < first - top.toUInt64 := by
    rw [UInt64.lt_iff_toNat_lt, UInt64.toNat_sub, topSize, batchSize]
    simp only [UInt32.size] at batchBound
    omega
  rw [clampLastRequestedBlockHeight, if_pos wraps]

/-- At the top the difference is zero: the clamp keeps the requested last height. -/
theorem clamp_of_eq (last : UInt64) : clampLastRequestedBlockHeight numBlocksInBatch first last first = last := by
  rw [clampLastRequestedBlockHeight, UInt64.sub_self, if_neg (fun below => UInt64.not_lt_zero below)]

/-- A batch read from below the top asks `make` for a batch's room. -/
theorem makeSliceFits_batch (first : UInt64) (numBlocksInBatch : UInt32) :
    makeSliceFits (first + (numBlocksInBatch - 1).toUInt64 - first + 1) = true := by
  have batchBound := (numBlocksInBatch - 1).toNat_lt_size
  have room : ((numBlocksInBatch - 1).toUInt64 + 1).toNat ≤ 2 ^ 32 := by
    rw [UInt64.toNat_add, UInt32.toNat_toUInt64]
    simp only [UInt32.size] at batchBound
    simp only [UInt64.toNat_one]
    omega
  rw [UInt64.add_comm first, UInt64.add_sub_cancel, makeSliceFits, maxAlloc, decide_eq_true_eq]
  omega

end Clamp

section Source

variable {protocol : Protocol} {config : BlockSyncConfig} {bp : InMemoryBlockPersistence}
  {transport : Nat → Option String}

theorem sourceHandleBlockSyncRequest_of_above (config : BlockSyncConfig) (transport : Nat → Option String)
    (message : BlockSyncRequestMessage)
    (above : message.signedChunkRange.firstBlockHeight > getBlockHeight protocol bp.getLastBlock) :
    sourceHandleBlockSyncRequest protocol config bp transport message =
      some ([], some "firstBlockHeight is greater than lastCommittedBlockHeight") := by
  rw [sourceHandleBlockSyncRequest]
  dsimp only
  rw [if_pos above]

/-- Up to the top, the answer follows the slice read up to the clamped height: its panic, its
error, or the sending loop over its blocks. -/
theorem sourceHandleBlockSyncRequest_of_slice (config : BlockSyncConfig) (transport : Nat → Option String)
    (message : BlockSyncRequestMessage)
    (notAbove : ¬ message.signedChunkRange.firstBlockHeight > getBlockHeight protocol bp.getLastBlock) :
    let first := message.signedChunkRange.firstBlockHeight
    let lastCommitted := getBlockHeight protocol bp.getLastBlock
    let slice := getBlockSlice bp first (clampLastRequestedBlockHeight config.blockSyncNumBlocksInBatch first
      message.signedChunkRange.lastBlockHeight lastCommitted)
    let handled := sourceHandleBlockSyncRequest protocol config bp transport message
    (slice = none → handled = none) ∧
    (∀ err, slice = some (.error err) →
      handled = some ([], some s!"block sync failed reading from block persistence: {err}")) ∧
    ∀ blocks firstAvailable lastAvailable, slice = some (.ok (blocks, firstAvailable, lastAvailable)) →
      handled = sendChunks transport
        (chunkResponse config.nodeAddress message.senderNodeAddress message.signedChunkRange.blockType
          firstAvailable lastCommitted blocks)
        (blocks.length + 1) 0 blocks.length := by
  intro first lastCommitted slice handled
  refine ⟨fun read => ?_, fun err read => ?_, fun blocks firstAvailable lastAvailable read => ?_⟩ <;>
  · simp only [handled, sourceHandleBlockSyncRequest, if_neg notAbove]
    simp only [slice, first, lastCommitted] at read
    rw [read]
    rfl

/-- What the source does with a request from any peer, on a chain of fewer than `2^63` blocks whose
top block has the chain's height. A first height above the top is refused with an error. Otherwise
the source panics exactly when the first height is the top and `make` refuses the capacity that the
request's last height gives; and every response carries the blocks from the first requested height
on: at most a batch of them, up to the top, from below the top, and the top block alone from the top,
whatever last height was asked for. -/
theorem sourceHandleBlockSyncRequest_spec
    (topHeight : getBlockHeight protocol bp.getLastBlock = bp.blocks.length.toUInt64)
    (short : bp.blocks.length < 2 ^ 63) (batch : 0 < config.blockSyncNumBlocksInBatch)
    (sender : Bytes) (blockType : Nat) (first last requestCommitted : UInt64) :
    let message : BlockSyncRequestMessage := ⟨sender, ⟨blockType, first, last, requestCommitted⟩⟩
    (bp.blocks.length < first.toNat → sourceHandleBlockSyncRequest protocol config bp transport message =
      some ([], some "firstBlockHeight is greater than lastCommittedBlockHeight")) ∧
    (sourceHandleBlockSyncRequest protocol config bp transport message = none ↔
      first.toNat = bp.blocks.length ∧ makeSliceFits (last - first + 1) = false) ∧
    ∀ sent result, sourceHandleBlockSyncRequest protocol config bp transport message = some (sent, result) →
      ∀ r ∈ sent, ∃ c ≤ (if first.toNat < bp.blocks.length then
          min (first.toNat + config.blockSyncNumBlocksInBatch.toNat - 1) bp.blocks.length + 1 - first.toNat
        else 1),
        r = chunkResponse config.nodeAddress sender blockType first bp.blocks.length.toUInt64
          (bp.blocks.drop (first.toNat - 1)) c := by
  intro message
  have batchSize : 0 < config.blockSyncNumBlocksInBatch.toNat := UInt32.lt_iff_toNat_lt.mp batch
  have topSize : bp.blocks.length.toUInt64.toNat = bp.blocks.length := by simp; omega
  have notAbove (low : first.toNat ≤ bp.blocks.length) : ¬ first > getBlockHeight protocol bp.getLastBlock := by
    rw [topHeight, gt_iff_lt, UInt64.lt_iff_toNat_lt, topSize]
    omega
  rcases Nat.lt_trichotomy first.toNat bp.blocks.length with below | atTop | above
  · obtain ⟨-, fails, sends⟩ := sourceHandleBlockSyncRequest_of_slice config transport message (notAbove below.le)
    dsimp only [message] at fails sends
    rw [topHeight, clamp_of_lt batch short below] at fails sends
    have fits := makeSliceFits_batch first config.blockSyncNumBlocksInBatch
    by_cases zero : first.toNat = 0
    · have refused := fails _ (getBlockSlice_of_unknown bp fits (Or.inr zero))
      refine ⟨fun above => absurd above (by omega), ⟨fun none => ?_, fun ⟨atTop, _⟩ => absurd atTop (by omega)⟩,
        fun sent result run => ?_⟩
      · rw [refused] at none
        cases none
      · rw [refused, Option.some.injEq, Prod.mk.injEq] at run
        rw [← run.1]
        intro r member
        cases member
    · have read := sends _ _ _ (getBlockSlice_of_le bp fits (by omega) below.le)
      refine ⟨fun above => absurd above (by omega), ⟨fun none => ?_, fun ⟨atTop, _⟩ => absurd atTop (by omega)⟩,
        fun sent result run r member => ?_⟩
      · exact absurd (read.symm.trans none) (sendChunks_ne_none _ _ _)
      · obtain ⟨c, le, rfl⟩ := sendChunks_take_mem _ _ (read.symm.trans run) r member
        refine ⟨c, ?_, rfl⟩
        have batchEnd : (first + (config.blockSyncNumBlocksInBatch - 1).toUInt64).toNat =
            first.toNat + (config.blockSyncNumBlocksInBatch.toNat - 1) := by
          have one : 1 ≤ config.blockSyncNumBlocksInBatch := batch
          have batchBound := config.blockSyncNumBlocksInBatch.toNat_lt_size
          rw [UInt64.toNat_add, UInt32.toNat_toUInt64, UInt32.toNat_sub_of_le _ _ one]
          simp only [UInt32.size] at batchBound
          simp only [UInt32.toNat_one]
          omega
        simp only [List.length_take, List.length_drop, batchEnd] at le
        rw [if_pos below]
        omega
  -- at the top the request's last height is read, unclamped
  · obtain rfl : first = bp.blocks.length.toUInt64 := UInt64.toNat_inj.mp (by rw [topSize, atTop])
    obtain ⟨panics, fails, sends⟩ := sourceHandleBlockSyncRequest_of_slice config transport message (notAbove atTop.le)
    dsimp only [message] at panics fails sends
    rw [topHeight, clamp_of_eq] at panics fails sends
    by_cases fits : makeSliceFits (last - bp.blocks.length.toUInt64 + 1) = true
    · by_cases zero : bp.blocks.length.toUInt64.toNat = 0
      · have refused := fails _ (getBlockSlice_of_unknown bp fits (Or.inr zero))
        refine ⟨fun above => absurd above (by omega), ⟨fun none => ?_, fun ⟨_, tooLarge⟩ => ?_⟩,
          fun sent result run => ?_⟩
        · rw [refused] at none
          cases none
        · rw [fits] at tooLarge
          cases tooLarge
        · rw [refused, Option.some.injEq, Prod.mk.injEq] at run
          rw [← run.1]
          intro r member
          cases member
      · have read := sends _ _ _ (getBlockSlice_of_le bp fits (by omega) atTop.le)
        refine ⟨fun above => absurd above (by omega), ⟨fun none => ?_, fun ⟨_, tooLarge⟩ => ?_⟩,
          fun sent result run r member => ?_⟩
        · exact absurd (read.symm.trans none) (sendChunks_ne_none _ _ _)
        · rw [fits] at tooLarge
          cases tooLarge
        · obtain ⟨c, le, rfl⟩ := sendChunks_take_mem _ _ (read.symm.trans run) r member
          refine ⟨c, ?_, rfl⟩
          simp only [List.length_take, List.length_drop] at le
          rw [if_neg (by omega)]
          omega
    · have refused := panics (getBlockSlice_of_not_fits bp (Bool.eq_false_iff.mpr fits))
      refine ⟨fun above => absurd above (by omega), ⟨fun _ => ⟨atTop, Bool.eq_false_iff.mpr fits⟩, fun _ => refused⟩,
        fun sent result run => ?_⟩
      rw [refused] at run
      cases run
  · have refused := sourceHandleBlockSyncRequest_of_above config transport message (by
      rw [topHeight, gt_iff_lt, UInt64.lt_iff_toNat_lt, topSize]
      exact above)
    refine ⟨fun _ => refused, ⟨fun none => ?_, fun ⟨atTop, _⟩ => absurd atTop (by omega)⟩, fun sent result run => ?_⟩
    · rw [refused] at none
      cases none
    · rw [refused, Option.some.injEq, Prod.mk.injEq] at run
      rw [← run.1]
      intro r member
      cases member

end Source

theorem zero_timestamp_lt (_ : Bytes) : 0 < 2 ^ 64 := Nat.two_pow_pos 64

/-- Protocol accessors reading a height from the first byte of a header. -/
def firstByteProtocol : Protocol :=
  ⟨fun raw => (raw.headD 0).toNat, fun _ => 0, fun _ => 0, fun raw => (raw.headD 0).toNat, fun _ => 0,
    fun _ => 0, fun _ => 0, fun _ => [], zero_timestamp_lt, zero_timestamp_lt⟩

def numberedBlock (height : UInt8) : BlockPairContainer :=
  ⟨⟨[height], [], [], []⟩, ⟨[height], [], [], []⟩⟩

/-- A chain of three blocks. -/
def threeBlocks : InMemoryBlockPersistence :=
  ⟨[numberedBlock 1, numberedBlock 2, numberedBlock 3]⟩

/-- A node that sends batches of ten blocks. -/
def batchOfTen : BlockSyncConfig :=
  ⟨[9], 10⟩

/-- On a chain of three blocks, with batches of ten and a transport that takes every message: a
peer asking for heights 3 to 1 makes `GetBlockSlice` call `make` with the capacity `1-3+1`, which
wraps to `2^64-1`, and the source panics; a peer asking for height 1 alone is sent heights 1 to 3. -/
theorem block_sync_source_unsafe_requests :
    sourceHandleBlockSyncRequest firstByteProtocol batchOfTen threeBlocks (fun _ => none) ⟨[5], ⟨1, 3, 1, 0⟩⟩ =
      none ∧
    sourceHandleBlockSyncRequest firstByteProtocol batchOfTen threeBlocks (fun _ => none) ⟨[5], ⟨1, 1, 1, 0⟩⟩ =
      some ([chunkResponse [9] [5] 1 1 3 threeBlocks.blocks 3], none) := by
  decide

end OrbsNetwork.BlockStorage
