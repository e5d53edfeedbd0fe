import OrbsNetwork.Ethereum.TimestampFinder
import OrbsNetwork.Library.Bracket
import Mathlib.Data.Nat.Basic

namespace OrbsNetwork.Ethereum

open Bracket

/-- The blocks `1..N` of a chain whose timestamps `t` do not decrease. -/
structure SortedChain (t : Int → TimestampNano) (N : Int) : Prop where
  positive : 1 ≤ N
  sorted : ∀ i j, 1 ≤ i → i ≤ j → j ≤ N → t i ≤ t j

/-- The getter answers for the blocks `1..N` of the chain `t`, with block `N` as the latest. -/
structure ServesChain (btg : BlockTimeGetter) (t : Int → TimestampNano) (N : Int) : Prop where
  number : ∀ n, 1 ≤ n → n ≤ N → btg.getTimestampForBlockNumber n = .ok (some ⟨n, t n⟩)
  latest : btg.getTimestampForLatestBlock = .ok (some ⟨N, t N⟩)

/-- The timestamps as numbers, for the search over them. -/
def stamp (t : Int → TimestampNano) (n : Int) : Nat :=
  (t n).toNat

/-- The chain blocks at the two numbers of a range. -/
def chainBlocks (t : Int → TimestampNano) (range : Int × Int) : BlockNumberAndTime × BlockNumberAndTime :=
  (⟨range.1, t range.1⟩, ⟨range.2, t range.2⟩)

/-- A bound read from the cache: the zero block, or a block of the chain. -/
def BlockOnChain (t : Int → TimestampNano) (N : Int) (block : BlockNumberAndTime) : Prop :=
  block = ⟨0, 0⟩ ∨ ∃ n, 1 ≤ n ∧ n ≤ N ∧ block = ⟨n, t n⟩

/-- The range read from the cache: both bounds zero, or two neighbouring blocks of the chain. -/
def RangeOnChain (t : Int → TimestampNano) (N : Int) (below above : BlockNumberAndTime) : Prop :=
  (below = ⟨0, 0⟩ ∧ above = ⟨0, 0⟩) ∨
    ∃ b, 1 ≤ b ∧ b + 1 ≤ N ∧ below = ⟨b, t b⟩ ∧ above = ⟨b + 1, t (b + 1)⟩

/-- The cache of a finder is empty or holds two neighbouring blocks of the chain. -/
def CacheOnChain (t : Int → TimestampNano) (N : Int) (cache : LastResultCache) : Prop :=
  cache = ⟨none, none⟩ ∨ ∃ b, 1 ≤ b ∧ b + 1 ≤ N ∧ cache = ⟨some ⟨b, t b⟩, some ⟨b + 1, t (b + 1)⟩⟩

section Cursor

variable (roundInterpolation : TimestampNano → TimestampNano → Int → Int)

/-- Whatever the interpolation proposes, the clamp puts the cursor strictly inside the range. -/
theorem algoGetCursorWithHeuristics_inside (referenceTimestampNano : TimestampNano)
    {below above : BlockNumberAndTime} (wide : below.blockNumber + 1 < above.blockNumber) :
    below.blockNumber < algoGetCursorWithHeuristics roundInterpolation referenceTimestampNano below above ∧
      algoGetCursorWithHeuristics roundInterpolation referenceTimestampNano below above < above.blockNumber := by
  unfold algoGetCursorWithHeuristics
  dsimp only
  split_ifs <;> omega

theorem algoGetCursorWithBinarySearch_eq {below above : BlockNumberAndTime}
    (ordered : below.blockNumber ≤ above.blockNumber) :
    algoGetCursorWithBinarySearch below above =
      below.blockNumber + (above.blockNumber - below.blockNumber) / 2 := by
  rw [algoGetCursorWithBinarySearch, Int.tdiv_eq_ediv_of_nonneg (by omega)]

/-- The cursor `algoReduceRange` reads at step `step` between the chain blocks `lo` and `hi`. -/
def chainCursor (t : Int → TimestampNano) (referenceTimestampNano : TimestampNano) (step : Nat) (lo hi : Int) :
    Int :=
  if step ≤ timestampFinderAllowedHeuristicSteps then
    algoGetCursorWithHeuristics roundInterpolation referenceTimestampNano ⟨lo, t lo⟩ ⟨hi, t hi⟩
  else algoGetCursorWithBinarySearch ⟨lo, t lo⟩ ⟨hi, t hi⟩

theorem chainCursor_inside (t : Int → TimestampNano) (referenceTimestampNano : TimestampNano) :
    Inside (chainCursor roundInterpolation t referenceTimestampNano) := by
  intro step lo hi wide
  unfold chainCursor
  split_ifs
  · exact algoGetCursorWithHeuristics_inside roundInterpolation referenceTimestampNano wide
  · rw [algoGetCursorWithBinarySearch_eq (by dsimp only; omega)]
    dsimp only
    omega

theorem chainCursor_halves (t : Int → TimestampNano) (referenceTimestampNano : TimestampNano) :
    HalvesAfter timestampFinderAllowedHeuristicSteps (chainCursor roundInterpolation t referenceTimestampNano) := by
  intro step lo hi late wide
  rw [chainCursor, if_neg (by omega), algoGetCursorWithBinarySearch_eq (by dsimp only; omega)]

end Cursor

section Chain

variable {btg : BlockTimeGetter} {t : Int → TimestampNano} {N : Int}
variable (roundInterpolation : TimestampNano → TimestampNano → Int → Int)

/-- Over a sorted chain, a block with an earlier timestamp has a smaller number. -/
theorem SortedChain.lt_of_lt (chain : SortedChain t N) {i j : Int} (first : 1 ≤ j) (last : i ≤ N)
    (earlier : t i < t j) : i < j := by
  by_contra later
  exact UInt64.not_le.mpr earlier (chain.sorted j i first (by omega) last)

theorem brackets_of_chain {referenceTimestampNano : TimestampNano} {lo hi : Int} (ordered : lo < hi)
    (low : t lo ≤ referenceTimestampNano) (high : referenceTimestampNano < t hi) :
    Brackets (stamp t) referenceTimestampNano.toNat lo hi :=
  ⟨ordered, UInt64.le_iff_toNat_le.mp low, UInt64.lt_iff_toNat_lt.mp high⟩

theorem le_of_brackets {referenceTimestampNano : TimestampNano} {lo hi : Int}
    (bracket : Brackets (stamp t) referenceTimestampNano.toNat lo hi) : t lo ≤ referenceTimestampNano :=
  UInt64.le_iff_toNat_le.mpr bracket.low

theorem lt_of_brackets {referenceTimestampNano : TimestampNano} {lo hi : Int}
    (bracket : Brackets (stamp t) referenceTimestampNano.toNat lo hi) : referenceTimestampNano < t hi :=
  UInt64.lt_iff_toNat_lt.mpr bracket.high

/-- On chain blocks that bracket the reference, the result is reached exactly at neighbours. -/
theorem algoDidReachResult_chain {referenceTimestampNano : TimestampNano} {lo hi : Int}
    (bracket : Brackets (stamp t) referenceTimestampNano.toNat lo hi) (first : 1 ≤ lo) :
    algoDidReachResult referenceTimestampNano ⟨lo, t lo⟩ ⟨hi, t hi⟩ = decide (lo + 1 = hi) := by
  by_cases near : lo + 1 = hi
  · simp [algoDidReachResult, near, first, le_of_brackets bracket, lt_of_brackets bracket]
  · simp [algoDidReachResult, near]

theorem algoVerifyResultInsideRange_chain {referenceTimestampNano : TimestampNano} {lo hi : Int}
    (bracket : Brackets (stamp t) referenceTimestampNano.toNat lo hi) (first : 1 ≤ lo) (far : lo + 1 ≠ hi) :
    algoVerifyResultInsideRange referenceTimestampNano ⟨lo, t lo⟩ ⟨hi, t hi⟩ = .ok () := by
  have wide := bracket.lt
  unfold algoVerifyResultInsideRange
  dsimp only
  rw [if_neg (by omega), if_neg (by omega),
    if_neg (UInt64.not_lt.mpr (le_of_brackets bracket)), if_neg (UInt64.not_le.mpr (lt_of_brackets bracket))]

/-- A step between chain blocks reads the chain block at the cursor and keeps the half of the
range that the bracket search keeps. -/
theorem algoReduceRange_chain (serves : ServesChain btg t N) (referenceTimestampNano : TimestampNano)
    {lo hi : Int} (step : Nat) (first : 1 ≤ lo) (last : hi ≤ N) (wide : lo + 1 < hi) :
    algoReduceRange btg roundInterpolation referenceTimestampNano ⟨lo, t lo⟩ ⟨hi, t hi⟩ step =
      .ok (chainBlocks t (narrow (stamp t) referenceTimestampNano.toNat lo hi
        (chainCursor roundInterpolation t referenceTimestampNano step lo hi))) := by
  obtain ⟨low, high⟩ := chainCursor_inside roundInterpolation t referenceTimestampNano step lo hi wide
  have answer := serves.number (chainCursor roundInterpolation t referenceTimestampNano step lo hi)
    (by omega) (by omega)
  unfold chainCursor at low high answer
  unfold algoReduceRange
  dsimp only
  rw [answer]
  dsimp only
  simp only [narrow, stamp, chainCursor, ← UInt64.lt_iff_toNat_lt]
  split_ifs <;> rfl

/-- On chain blocks that bracket the reference, the loop with a live context is the bracket
search at the code's cursors, and runs out of steps exactly when the search runs out of fuel. -/
theorem findBlockByTimestampLoop_eq_search (serves : ServesChain btg t N)
    (referenceTimestampNano : TimestampNano) (fuel steps : Nat) {lo hi : Int} (first : 1 ≤ lo) (last : hi ≤ N)
    (bracket : Brackets (stamp t) referenceTimestampNano.toNat lo hi) :
    findBlockByTimestampLoop btg roundInterpolation (fun _ => false) referenceTimestampNano fuel steps
        ⟨lo, t lo⟩ ⟨hi, t hi⟩ =
      match search (stamp t) referenceTimestampNano.toNat (chainCursor roundInterpolation t referenceTimestampNano)
          fuel steps lo hi with
      | some range => .ok (chainBlocks t range)
      | none => .error s!"ethereum timestamp finder went over maximum steps {timestampFinderMaxSteps}, reference timestamp {referenceTimestampNano}" := by
  induction fuel generalizing steps lo hi with
  | zero => rfl
  | succ fuel ih =>
    rw [findBlockByTimestampLoop, if_neg Bool.false_ne_true, algoDidReachResult_chain bracket first]
    by_cases near : lo + 1 = hi
    · rw [if_pos (decide_eq_true near), Bracket.search, if_pos near]
      rfl
    have wide : lo + 1 < hi := by
      have := bracket.lt
      omega
    obtain ⟨low, high⟩ := chainCursor_inside roundInterpolation t referenceTimestampNano steps lo hi wide
    obtain ⟨lower, upper, -⟩ := narrow_within (stamp t) referenceTimestampNano.toNat (Int.le_of_lt low) (Int.le_of_lt high)
    rw [if_neg (by simpa using near), algoVerifyResultInsideRange_chain bracket first near,
      algoReduceRange_chain roundInterpolation serves referenceTimestampNano steps first last wide,
      search_succ_of_ne near]
    exact ih (steps + 1) (by omega) (by omega) (bracket.narrow low high)

theorem BlockOnChain.number_le {block : BlockNumberAndTime} (onChain : BlockOnChain t N block) (positive : 1 ≤ N) :
    block.blockNumber ≤ N := by
  rcases onChain with rfl | ⟨n, _, last, rfl⟩
  · dsimp only
    omega
  · exact last

theorem RangeOnChain.below {below above : BlockNumberAndTime} (cached : RangeOnChain t N below above) :
    BlockOnChain t N below := by
  rcases cached with ⟨rfl, -⟩ | ⟨b, first, last, rfl, -⟩
  · exact .inl rfl
  · exact .inr ⟨b, first, by omega, rfl⟩

theorem RangeOnChain.above {below above : BlockNumberAndTime} (cached : RangeOnChain t N below above) :
    BlockOnChain t N above := by
  rcases cached with ⟨-, rfl⟩ | ⟨b, first, last, -, rfl⟩
  · exact .inl rfl
  · exact .inr ⟨b + 1, by omega, last, rfl⟩

theorem algoExtendAbove_of_lt (serves : ServesChain btg t N) {referenceTimestampNano : TimestampNano}
    (newer : referenceTimestampNano < t N) : algoExtendAbove btg referenceTimestampNano = .ok ⟨N, t N⟩ := by
  rw [algoExtendAbove, serves.latest]
  dsimp only
  rw [if_neg (UInt64.not_le.mpr newer)]

theorem algoExtendAbove_of_le (serves : ServesChain btg t N) {referenceTimestampNano : TimestampNano}
    (stale : t N ≤ referenceTimestampNano) :
    algoExtendAbove btg referenceTimestampNano =
      .error s!"the latest ethereum block {N} at {t N} is not newer than the reference timestamp {referenceTimestampNano}; delta is {referenceTimestampNano - t N}" := by
  rw [algoExtendAbove, serves.latest]
  dsimp only
  rw [if_pos stale]

/-- Attempts at numbers up to `N` that include block 1 find a chain block at or below the
reference, or stop at block 1 when the chain starts above it. -/
theorem extendBelowAttempts_chain (serves : ServesChain btg t N) (referenceTimestampNano : TimestampNano)
    (attempts : List Int) (one : 1 ∈ attempts) (bounded : ∀ c ∈ attempts, c ≤ N) :
    (∃ c, 1 ≤ c ∧ c ≤ N ∧ t c ≤ referenceTimestampNano ∧
        extendBelowAttempts btg referenceTimestampNano attempts = some (.ok ⟨c, t c⟩)) ∨
      (referenceTimestampNano < t 1 ∧ extendBelowAttempts btg referenceTimestampNano attempts =
        some (.error s!"the first ethereum block {Int.ofNat 1} at {t 1} is newer than the reference timestamp {referenceTimestampNano}")) := by
  induction attempts with
  | nil => exact absurd one List.not_mem_nil
  | cons c rest ih =>
    have later : c ≠ 1 → 1 ∈ rest := fun other => (List.mem_cons.mp one).resolve_left (Ne.symm other)
    have boundedRest : ∀ c ∈ rest, c ≤ N := fun c' member => bounded c' (List.mem_cons_of_mem c member)
    by_cases counted : c ≥ 1
    · rw [extendBelowAttempts, if_pos counted, serves.number c counted (bounded c List.mem_cons_self)]
      dsimp only
      by_cases hit : t c ≤ referenceTimestampNano
      · exact .inl ⟨c, counted, bounded c List.mem_cons_self, hit, by rw [if_pos ⟨counted, hit⟩]⟩
      rw [if_neg (fun found => hit found.2)]
      by_cases first : c = 1
      · subst first
        exact .inr ⟨UInt64.not_le.mp hit, by rw [if_pos rfl]; rfl⟩
      · rw [if_neg first]
        exact ih (later first) boundedRest
    · rw [extendBelowAttempts, if_neg counted]
      exact ih (later (by omega)) boundedRest

theorem algoExtendBelow_chain (serves : ServesChain btg t N) (referenceTimestampNano : TimestampNano)
    {belowBlockNumber aboveBlockNumber : Int} (positive : 1 ≤ N) (belowLast : belowBlockNumber ≤ N)
    (aboveLast : aboveBlockNumber ≤ N) :
    (∃ c, 1 ≤ c ∧ c ≤ N ∧ t c ≤ referenceTimestampNano ∧
        algoExtendBelow btg referenceTimestampNano belowBlockNumber aboveBlockNumber = .ok ⟨c, t c⟩) ∨
      (referenceTimestampNano < t 1 ∧ algoExtendBelow btg referenceTimestampNano belowBlockNumber aboveBlockNumber =
        .error s!"the first ethereum block {Int.ofNat 1} at {t 1} is newer than the reference timestamp {referenceTimestampNano}") := by
  unfold algoExtendBelow
  dsimp only
  have start : (if belowBlockNumber < 1 then aboveBlockNumber else belowBlockNumber) ≤ N := by
    split_ifs <;> omega
  generalize (if belowBlockNumber < 1 then aboveBlockNumber else belowBlockNumber) = startBlockNumber at start ⊢
  have bounded : ∀ c ∈ [startBlockNumber - timestampFinderProbableRangeEfficient,
      startBlockNumber - timestampFinderProbableRangeInefficient, 1], c ≤ N := by
    simp only [List.mem_cons, List.not_mem_nil, or_false, timestampFinderProbableRangeEfficient,
      timestampFinderProbableRangeInefficient]
    omega
  rcases extendBelowAttempts_chain serves referenceTimestampNano _ (by simp) bounded with
    ⟨c, first, last, hit, found⟩ | ⟨early, found⟩
  · exact .inl ⟨c, first, last, hit, by rw [found]⟩
  · exact .inr ⟨early, by rw [found]⟩

/-- The bound above once `FindBlockByTimestamp` has extended it as needed: a chain block newer
than the reference. -/
theorem extendAbove_chain (serves : ServesChain btg t N) (chain : SortedChain t N)
    {referenceTimestampNano : TimestampNano} (newer : referenceTimestampNano < t N) {above : BlockNumberAndTime}
    (cached : BlockOnChain t N above) :
    ∃ a, 1 ≤ a ∧ a ≤ N ∧ referenceTimestampNano < t a ∧
      (if ¬(referenceTimestampNano < above.blockTimeNano) then algoExtendAbove btg referenceTimestampNano
        else .ok above) = .ok ⟨a, t a⟩ := by
  by_cases fresh : referenceTimestampNano < above.blockTimeNano
  · rw [if_neg (not_not.mpr fresh)]
    rcases cached with rfl | ⟨a, first, last, rfl⟩
    · exact absurd fresh (UInt64.not_lt.mpr UInt64.zero_le)
    · exact ⟨a, first, last, fresh, rfl⟩
  · rw [if_pos fresh, algoExtendAbove_of_lt serves newer]
    exact ⟨N, chain.positive, Int.le_refl N, newer, rfl⟩

/-- The bound below once `FindBlockByTimestamp` has extended it as needed: a chain block at or
below the reference, when the chain starts at or below it. -/
theorem extendBelow_chain (serves : ServesChain btg t N) (chain : SortedChain t N)
    {referenceTimestampNano : TimestampNano} (reached : t 1 ≤ referenceTimestampNano) {below : BlockNumberAndTime}
    {a : Int} (aboveLast : a ≤ N) (cached : BlockOnChain t N below) :
    ∃ l, 1 ≤ l ∧ l ≤ N ∧ t l ≤ referenceTimestampNano ∧
      (if ¬(1 ≤ below.blockNumber ∧ below.blockTimeNano ≤ referenceTimestampNano) then
        algoExtendBelow btg referenceTimestampNano below.blockNumber a else .ok below) = .ok ⟨l, t l⟩ := by
  by_cases fresh : 1 ≤ below.blockNumber ∧ below.blockTimeNano ≤ referenceTimestampNano
  · rw [if_neg (not_not.mpr fresh)]
    rcases cached with rfl | ⟨l, first, last, rfl⟩
    · exact absurd fresh.1 (by decide)
    · exact ⟨l, first, last, fresh.2, rfl⟩
  · rw [if_pos fresh]
    rcases algoExtendBelow_chain serves referenceTimestampNano chain.positive (cached.number_le chain.positive) aboveLast with
      found | ⟨early, -⟩
    · exact found
    · exact absurd early (UInt64.not_lt.mpr reached)

/-- From two chain blocks around the reference, the loop of `FindBlockByTimestamp` confirms the
chain's step over the reference well within its steps. -/
theorem findBlockByTimestampLoop_chain (serves : ServesChain btg t N) (chain : SortedChain t N)
    (small : N < 2 ^ 60) {referenceTimestampNano : TimestampNano} {l a : Int} (first : 1 ≤ l) (belowLast : l ≤ N)
    (aboveFirst : 1 ≤ a) (aboveLast : a ≤ N) (low : t l ≤ referenceTimestampNano)
    (high : referenceTimestampNano < t a) :
    ∃ b, 1 ≤ b ∧ b + 1 ≤ N ∧ t b ≤ referenceTimestampNano ∧ referenceTimestampNano < t (b + 1) ∧
      findBlockByTimestampLoop btg roundInterpolation (fun _ => false) referenceTimestampNano
        (timestampFinderMaxSteps - 1) 1 ⟨l, t l⟩ ⟨a, t a⟩ = .ok (⟨b, t b⟩, ⟨b + 1, t (b + 1)⟩) := by
  have bracket := brackets_of_chain (chain.lt_of_lt aboveFirst belowLast (UInt64.lt_of_le_of_lt low high)) low high
  -- ten interpolated steps at most, then each bisection halves a width below `2 ^ 60`
  have width : a - l ≤ 2 ^ 60 := by omega
  have enough : timestampFinderAllowedHeuristicSteps + 1 - 1 + 60 < timestampFinderMaxSteps - 1 := by decide
  obtain ⟨b, found, neighbours, lower, upper⟩ := search_brackets (chainCursor_inside roundInterpolation t _)
    (chainCursor_halves roundInterpolation t _) bracket width enough
  rw [findBlockByTimestampLoop_eq_search roundInterpolation serves _ _ _ first aboveLast bracket, found]
  exact ⟨b, by omega, by omega, le_of_brackets neighbours, lt_of_brackets neighbours, rfl⟩

/-- With the reference inside the chain, the range confirmed from a cache on the chain is the
chain's step over the reference. -/
theorem findConfirmedRange_of_inside (serves : ServesChain btg t N) (chain : SortedChain t N) (small : N < 2 ^ 60)
    {referenceTimestampNano : TimestampNano} (reached : t 1 ≤ referenceTimestampNano)
    (newer : referenceTimestampNano < t N) {below above : BlockNumberAndTime} (cached : RangeOnChain t N below above) :
    ∃ b, 1 ≤ b ∧ b + 1 ≤ N ∧ t b ≤ referenceTimestampNano ∧ referenceTimestampNano < t (b + 1) ∧
      findConfirmedRange btg roundInterpolation (fun _ => false) referenceTimestampNano below above =
        .ok (⟨b, t b⟩, ⟨b + 1, t (b + 1)⟩) := by
  unfold findConfirmedRange
  by_cases hit : algoDidReachResult referenceTimestampNano below above = true
  · rw [if_pos hit]
    rcases cached with ⟨rfl, rfl⟩ | ⟨b, first, last, rfl, rfl⟩
    · simp [algoDidReachResult] at hit
    · have holds : t b ≤ referenceTimestampNano ∧ referenceTimestampNano < t (b + 1) := by
        simpa [algoDidReachResult, first] using hit
      exact ⟨b, first, last, holds.1, holds.2, rfl⟩
  · rw [if_neg hit]
    obtain ⟨a, aboveFirst, aboveLast, high, extendedAbove⟩ := extendAbove_chain serves chain newer cached.above
    obtain ⟨l, first, belowLast, low, extendedBelow⟩ := extendBelow_chain serves chain reached aboveLast cached.below
    simp only [extendedAbove, extendedBelow]
    exact findBlockByTimestampLoop_chain roundInterpolation serves chain small first belowLast aboveFirst aboveLast
      low high

/-- With the reference at or after the latest block, the search fails on the block above. -/
theorem findConfirmedRange_of_stale (serves : ServesChain btg t N) (chain : SortedChain t N)
    {referenceTimestampNano : TimestampNano} (stale : t N ≤ referenceTimestampNano) {below above : BlockNumberAndTime}
    (cached : RangeOnChain t N below above) (canceledAt : Nat → Bool) :
    findConfirmedRange btg roundInterpolation canceledAt referenceTimestampNano below above =
      .error s!"the latest ethereum block {N} at {t N} is not newer than the reference timestamp {referenceTimestampNano}; delta is {referenceTimestampNano - t N}" := by
  -- a cached step of the chain ends at or below the reference
  have missed : algoDidReachResult referenceTimestampNano below above = false ∧
      ¬(referenceTimestampNano < above.blockTimeNano) := by
    rcases cached with ⟨rfl, rfl⟩ | ⟨b, first, last, rfl, rfl⟩
    · exact ⟨by simp [algoDidReachResult], UInt64.not_lt.mpr UInt64.zero_le⟩
    · have older : ¬(referenceTimestampNano < t (b + 1)) :=
        UInt64.not_lt.mpr (UInt64.le_trans (chain.sorted (b + 1) N (by omega) last (Int.le_refl N)) stale)
      exact ⟨by simp [algoDidReachResult, older], older⟩
  unfold findConfirmedRange
  rw [missed.1, if_neg Bool.false_ne_true, if_pos missed.2, algoExtendAbove_of_le serves stale]

/-- With the reference before the first block, the search fails on the block below. -/
theorem findConfirmedRange_of_early (serves : ServesChain btg t N) (chain : SortedChain t N)
    {referenceTimestampNano : TimestampNano} (early : referenceTimestampNano < t 1) {below above : BlockNumberAndTime}
    (cached : RangeOnChain t N below above) (canceledAt : Nat → Bool) :
    findConfirmedRange btg roundInterpolation canceledAt referenceTimestampNano below above =
      .error s!"the first ethereum block {Int.ofNat 1} at {t 1} is newer than the reference timestamp {referenceTimestampNano}" := by
  have newer : referenceTimestampNano < t N :=
    UInt64.lt_of_lt_of_le early (chain.sorted 1 N (Int.le_refl 1) chain.positive (Int.le_refl N))
  -- a cached step of the chain starts above the reference
  have missed : algoDidReachResult referenceTimestampNano below above = false ∧
      ¬(1 ≤ below.blockNumber ∧ below.blockTimeNano ≤ referenceTimestampNano) := by
    rcases cached with ⟨rfl, rfl⟩ | ⟨b, first, last, rfl, rfl⟩
    · exact ⟨by simp [algoDidReachResult], by simp⟩
    · have later : ¬(t b ≤ referenceTimestampNano) :=
        UInt64.not_le.mpr (UInt64.lt_of_lt_of_le early (chain.sorted 1 b (Int.le_refl 1) first (by omega)))
      exact ⟨by simp [algoDidReachResult, later], fun found => later found.2⟩
  obtain ⟨a, _, aboveLast, _, extendedAbove⟩ := extendAbove_chain serves chain newer cached.above
  unfold findConfirmedRange
  rw [missed.1, if_neg Bool.false_ne_true]
  simp only [extendedAbove]
  rw [if_pos missed.2]
  rcases algoExtendBelow_chain serves referenceTimestampNano chain.positive (cached.below.number_le chain.positive) aboveLast with
    ⟨c, first, last, hit, -⟩ | ⟨-, found⟩
  · exact absurd (UInt64.lt_of_lt_of_le early (chain.sorted 1 c (Int.le_refl 1) first last)) (UInt64.not_lt.mpr hit)
  · rw [found]

/-- A cancelled context only turns a confirmed range into an error: a range the loop confirms is
the one it confirms with a live context. -/
theorem findBlockByTimestampLoop_live_of_ok {canceledAt : Nat → Bool} {referenceTimestampNano : TimestampNano}
    {fuel steps : Nat} {below above : BlockNumberAndTime} {range : BlockNumberAndTime × BlockNumberAndTime}
    (confirmed : findBlockByTimestampLoop btg roundInterpolation canceledAt referenceTimestampNano fuel steps
      below above = .ok range) :
    findBlockByTimestampLoop btg roundInterpolation (fun _ => false) referenceTimestampNano fuel steps
      below above = .ok range := by
  induction fuel generalizing steps below above with
  | zero => cases confirmed
  | succ fuel ih =>
    rw [findBlockByTimestampLoop] at confirmed ⊢
    rw [if_neg Bool.false_ne_true]
    by_cases canceled : canceledAt steps = true
    · rw [if_pos canceled] at confirmed
      cases confirmed
    rw [if_neg canceled] at confirmed
    by_cases reached : algoDidReachResult referenceTimestampNano below above = true
    · rwa [if_pos reached] at confirmed ⊢
    rw [if_neg reached] at confirmed ⊢
    -- past the guards the two loops take the same branches
    cases verified : algoVerifyResultInsideRange referenceTimestampNano below above with
    | error err =>
      rw [verified] at confirmed
      cases confirmed
    | ok _ =>
      rw [verified] at confirmed
      cases reduced : algoReduceRange btg roundInterpolation referenceTimestampNano below above steps with
      | error err =>
        rw [reduced] at confirmed
        cases confirmed
      | ok next =>
        rw [reduced] at confirmed
        exact ih confirmed

theorem findConfirmedRange_live_of_ok {canceledAt : Nat → Bool} {referenceTimestampNano : TimestampNano}
    {below above : BlockNumberAndTime} {range : BlockNumberAndTime × BlockNumberAndTime}
    (confirmed : findConfirmedRange btg roundInterpolation canceledAt referenceTimestampNano below above = .ok range) :
    findConfirmedRange btg roundInterpolation (fun _ => false) referenceTimestampNano below above = .ok range := by
  unfold findConfirmedRange at confirmed ⊢
  by_cases hit : algoDidReachResult referenceTimestampNano below above = true
  · rwa [if_pos hit] at confirmed ⊢
  rw [if_neg hit] at confirmed ⊢
  split at confirmed
  · cases confirmed
  split at confirmed
  · cases confirmed
  exact findBlockByTimestampLoop_live_of_ok roundInterpolation confirmed

end Chain

section Runs

variable {t : Int → TimestampNano} {N : Int}
variable (roundInterpolation : TimestampNano → TimestampNano → Int → Int)

theorem rangeOnChain_getLastResultCache {f : Finder} (cache : CacheOnChain t N f.lastResultCache) :
    RangeOnChain t N f.getLastResultCache.1 f.getLastResultCache.2 := by
  rcases cache with empty | ⟨b, first, last, held⟩
  · exact .inl (by simp [Finder.getLastResultCache, empty])
  · exact .inr ⟨b, first, last, by simp [Finder.getLastResultCache, held], by simp [Finder.getLastResultCache, held]⟩

theorem btg_findBlockByTimestamp (f : Finder) (canceledAt : Nat → Bool) (referenceTimestampNano : TimestampNano) :
    (f.findBlockByTimestamp roundInterpolation canceledAt referenceTimestampNano).2.btg = f.btg := by
  unfold Finder.findBlockByTimestamp
  split <;> rfl

/-- One call, with any context, leaves the cache on the chain: a range it confirms is the chain's
step over its reference. -/
theorem cacheOnChain_findBlockByTimestamp {f : Finder} (serves : ServesChain f.btg t N) (chain : SortedChain t N)
    (small : N < 2 ^ 60) (cache : CacheOnChain t N f.lastResultCache) (canceledAt : Nat → Bool)
    (referenceTimestampNano : TimestampNano) :
    CacheOnChain t N (f.findBlockByTimestamp roundInterpolation canceledAt referenceTimestampNano).2.lastResultCache := by
  have cached := rangeOnChain_getLastResultCache cache
  unfold Finder.findBlockByTimestamp
  split
  · exact cache
  next below above confirmed =>
    have live := findConfirmedRange_live_of_ok roundInterpolation confirmed
    by_cases reached : t 1 ≤ referenceTimestampNano
    · by_cases newer : referenceTimestampNano < t N
      · obtain ⟨b, first, last, -, -, found⟩ :=
          findConfirmedRange_of_inside roundInterpolation serves chain small reached newer cached
        rw [found] at live
        cases live
        exact .inr ⟨b, first, last, rfl⟩
      · rw [findConfirmedRange_of_stale roundInterpolation serves chain (UInt64.not_lt.mp newer) cached] at live
        cases live
    · rw [findConfirmedRange_of_early roundInterpolation serves chain (UInt64.not_le.mp reached) cached] at live
      cases live

/-- Every run of calls on the same getter keeps the cache on the chain. -/
theorem cacheOnChain_afterCalls {f : Finder} (serves : ServesChain f.btg t N) (chain : SortedChain t N)
    (small : N < 2 ^ 60) (cache : CacheOnChain t N f.lastResultCache) (calls : List ((Nat → Bool) × TimestampNano)) :
    CacheOnChain t N (f.afterCalls roundInterpolation calls).lastResultCache ∧
      (f.afterCalls roundInterpolation calls).btg = f.btg := by
  induction calls generalizing f with
  | nil => exact ⟨cache, rfl⟩
  | cons call calls ih =>
    have same := btg_findBlockByTimestamp roundInterpolation f call.1 call.2
    obtain ⟨cache', same'⟩ := ih (same ▸ serves)
      (cacheOnChain_findBlockByTimestamp roundInterpolation serves chain small cache call.1 call.2)
    exact ⟨cache', same'.trans same⟩

/-- The error of the step limit starts with another character than those of the extensions. -/
theorem head_maxStepsError (referenceTimestampNano : TimestampNano) :
    (s!"ethereum timestamp finder went over maximum steps {timestampFinderMaxSteps}, reference timestamp {referenceTimestampNano}").toList.head? =
      some 'e' := by
  simp only [String.toList_append, List.head?_append,
    show (toString "ethereum timestamp finder went over maximum steps ").toList.head? = some 'e' from rfl,
    Option.some_or]

theorem head_latestNotNewerError (latest : Int) (latestTime referenceTimestampNano : TimestampNano) :
    (s!"the latest ethereum block {latest} at {latestTime} is not newer than the reference timestamp {referenceTimestampNano}; delta is {referenceTimestampNano - latestTime}").toList.head? =
      some 't' := by
  simp only [String.toList_append, List.head?_append,
    show (toString "the latest ethereum block ").toList.head? = some 't' from rfl, Option.some_or]

theorem head_firstNewerError (firstTime referenceTimestampNano : TimestampNano) :
    (s!"the first ethereum block {Int.ofNat 1} at {firstTime} is newer than the reference timestamp {referenceTimestampNano}").toList.head? =
      some 't' := by
  simp only [String.toList_append, List.head?_append,
    show (toString "the first ethereum block ").toList.head? = some 't' from rfl, Option.some_or]

/-- `FindBlockByTimestamp` with a live context, after any earlier calls on a getter that serves a
sorted chain of blocks `1..N`, returns the block whose successor is the first above the reference
when the reference is inside the chain, fails when it is not, and never runs out of steps,
whatever cursors the interpolation proposes. -/
theorem findBlockByTimestamp_correct {btg : BlockTimeGetter} (chain : SortedChain t N) (serves : ServesChain btg t N)
    (small : N < 2 ^ 60) (calls : List ((Nat → Bool) × TimestampNano)) (referenceTimestampNano : TimestampNano) :
    let result := (((newTimestampFinder btg).afterCalls roundInterpolation calls).findBlockByTimestamp
      roundInterpolation (fun _ => false) referenceTimestampNano).1
    (t 1 ≤ referenceTimestampNano → referenceTimestampNano < t N →
      ∃ b, 1 ≤ b ∧ b < N ∧ t b ≤ referenceTimestampNano ∧ referenceTimestampNano < t (b + 1) ∧
        result = .ok ⟨b, t b⟩) ∧
    (referenceTimestampNano < t 1 ∨ t N ≤ referenceTimestampNano → ∃ err, result = .error err) ∧
    result ≠ .error s!"ethereum timestamp finder went over maximum steps {timestampFinderMaxSteps}, reference timestamp {referenceTimestampNano}" := by
  intro result
  obtain ⟨cache, same⟩ := cacheOnChain_afterCalls roundInterpolation (f := newTimestampFinder btg) serves chain small
    (.inl rfl) calls
  have cached := rangeOnChain_getLastResultCache cache
  have servesAfter : ServesChain ((newTimestampFinder btg).afterCalls roundInterpolation calls).btg t N := by
    rw [same]
    exact serves
  have found : ∀ outcome, findConfirmedRange ((newTimestampFinder btg).afterCalls roundInterpolation calls).btg
      roundInterpolation (fun _ => false) referenceTimestampNano
      ((newTimestampFinder btg).afterCalls roundInterpolation calls).getLastResultCache.1
      ((newTimestampFinder btg).afterCalls roundInterpolation calls).getLastResultCache.2 = outcome →
      result = outcome.map Prod.fst := by
    intro outcome confirmed
    show (Finder.findBlockByTimestamp _ _ _ _).1 = _
    rw [Finder.findBlockByTimestamp, confirmed]
    cases outcome <;> rfl
  have inside : t 1 ≤ referenceTimestampNano → referenceTimestampNano < t N →
      ∃ b, 1 ≤ b ∧ b < N ∧ t b ≤ referenceTimestampNano ∧ referenceTimestampNano < t (b + 1) ∧
        result = .ok ⟨b, t b⟩ := by
    intro reached newer
    obtain ⟨b, first, last, low, high, confirmed⟩ :=
      findConfirmedRange_of_inside roundInterpolation servesAfter chain small reached newer cached
    exact ⟨b, first, by omega, low, high, found _ confirmed⟩
  have stale : t N ≤ referenceTimestampNano → result = .error s!"the latest ethereum block {N} at {t N} is not newer than the reference timestamp {referenceTimestampNano}; delta is {referenceTimestampNano - t N}" :=
    fun late => found _ (findConfirmedRange_of_stale roundInterpolation servesAfter chain late cached _)
  have early : referenceTimestampNano < t 1 → result = .error s!"the first ethereum block {Int.ofNat 1} at {t 1} is newer than the reference timestamp {referenceTimestampNano}" :=
    fun before => found _ (findConfirmedRange_of_early roundInterpolation servesAfter chain before cached _)
  refine ⟨inside, ?_, ?_⟩
  · rintro (before | late)
    · exact ⟨_, early before⟩
    · exact ⟨_, stale late⟩
  · intro limit
    by_cases reached : t 1 ≤ referenceTimestampNano
    · by_cases newer : referenceTimestampNano < t N
      · obtain ⟨b, -, -, -, -, ok⟩ := inside reached newer
        rw [ok] at limit
        cases limit
      · rw [stale (UInt64.not_lt.mp newer)] at limit
        have limitHead := congrArg (fun err : String => err.toList.head?) (Except.error.inj limit)
        simp only [head_latestNotNewerError, head_maxStepsError] at limitHead
        exact absurd limitHead (by decide)
    · rw [early (UInt64.not_le.mp reached)] at limit
      have limitHead := congrArg (fun err : String => err.toList.head?) (Except.error.inj limit)
      simp only [head_firstNewerError, head_maxStepsError] at limitHead
      exact absurd limitHead (by decide)

theorem findBlockByTimestamp_correct_stub :
    SortedChain (fun n => if n ≤ 3 then 1000 else 2000) 4 ∧
      ServesChain (newBlockTimeGetterStub [⟨1, 1000⟩, ⟨2, 1000⟩, ⟨3, 1000⟩, ⟨4, 2000⟩])
        (fun n => if n ≤ 3 then 1000 else 2000) 4 ∧ (4 : Int) < 2 ^ 60 ∧
      let result := (((newTimestampFinder (newBlockTimeGetterStub [⟨1, 1000⟩, ⟨2, 1000⟩, ⟨3, 1000⟩, ⟨4, 2000⟩])).afterCalls
        (fun _ _ _ => 0) []).findBlockByTimestamp (fun _ _ _ => 0) (fun _ => false) 1500).1
      ((if (1 : Int) ≤ 3 then 1000 else 2000) ≤ (1500 : TimestampNano) →
        (1500 : TimestampNano) < (if (4 : Int) ≤ 3 then 1000 else 2000) →
        ∃ b : Int, 1 ≤ b ∧ b < 4 ∧ (if b ≤ 3 then 1000 else 2000) ≤ (1500 : TimestampNano) ∧
          (1500 : TimestampNano) < (if b + 1 ≤ 3 then 1000 else 2000) ∧
          result = .ok ⟨b, if b ≤ 3 then 1000 else 2000⟩) ∧
      ((1500 : TimestampNano) < (if (1 : Int) ≤ 3 then 1000 else 2000) ∨
          (if (4 : Int) ≤ 3 then 1000 else 2000) ≤ (1500 : TimestampNano) → ∃ err, result = .error err) ∧
      result ≠ .error s!"ethereum timestamp finder went over maximum steps {timestampFinderMaxSteps}, reference timestamp {(1500 : TimestampNano)}" := by
  have chain : SortedChain (fun n => if n ≤ 3 then (1000 : TimestampNano) else 2000) 4 := by
    refine ⟨by decide, fun i j _ ordered _ => ?_⟩
    split_ifs <;> first | decide | omega
  have serves : ServesChain (newBlockTimeGetterStub [⟨1, 1000⟩, ⟨2, 1000⟩, ⟨3, 1000⟩, ⟨4, 2000⟩])
      (fun n => if n ≤ 3 then 1000 else 2000) 4 := by
    refine ⟨fun n first last => ?_, rfl⟩
    obtain rfl | rfl | rfl | rfl : n = 1 ∨ n = 2 ∨ n = 3 ∨ n = 4 := by omega
    all_goals rfl
  exact ⟨chain, serves, by decide, findBlockByTimestamp_correct (fun _ _ _ => 0) chain serves (by decide) [] 1500⟩

-- the small chains of the finder's tests: equal timestamps before the reference end at the last of them
example : ((newTimestampFinder (newBlockTimeGetterStub [⟨1, 1000⟩, ⟨2, 1000⟩, ⟨3, 1000⟩, ⟨4, 2000⟩])).findBlockByTimestamp
    (fun _ _ _ => 0) (fun _ => false) 1000).1 = .ok ⟨3, 1000⟩ := by
  decide

end Runs

end OrbsNetwork.Ethereum
