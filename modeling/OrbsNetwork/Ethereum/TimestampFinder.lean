import Mathlib

namespace OrbsNetwork.Ethereum

/-- `primitives.TimestampNano`. -/
abbrev TimestampNano := UInt64

/-- `BlockNumberAndTime`, its `int64` block number taken as an integer. -/
structure BlockNumberAndTime where
  blockNumber : Int
  blockTimeNano : TimestampNano
  deriving DecidableEq, Repr

/-- `BlockTimeGetter`: a nil answer is `none`, an error is its text. -/
structure BlockTimeGetter where
  getTimestampForBlockNumber : Int → Except String (Option BlockNumberAndTime)
  getTimestampForLatestBlock : Except String (Option BlockNumberAndTime)

/-- `TIMESTAMP_FINDER_PROBABLE_RANGE_EFFICIENT`. -/
def timestampFinderProbableRangeEfficient : Int := 1000

/-- `TIMESTAMP_FINDER_PROBABLE_RANGE_INEFFICIENT`. -/
def timestampFinderProbableRangeInefficient : Int := 10000

/-- `TIMESTAMP_FINDER_MAX_STEPS`. -/
def timestampFinderMaxSteps : Nat := 1000

/-- `TIMESTAMP_FINDER_ALLOWED_HEURISTIC_STEPS`. -/
def timestampFinderAllowedHeuristicSteps : Nat := 10

/-- `getterStub`: the blocks of a list looked up by number, the last one as the latest. -/
def newBlockTimeGetterStub (blocks : List BlockNumberAndTime) : BlockTimeGetter where
  getTimestampForBlockNumber blockNumber :=
    match blocks.find? fun block => block.blockNumber = blockNumber with
    | some block => .ok (some block)
    | none => .error s!"could not find block number {blockNumber}"
  getTimestampForLatestBlock :=
    match blocks.getLast? with
    | some block => .ok (some block)
    | none => .error "no blocks found"

/-- `algoDidReachResult`: the range is two neighbours from block 1 on whose timestamps bracket
the reference. -/
def algoDidReachResult (referenceTimestampNano : TimestampNano) (below above : BlockNumberAndTime) : Bool :=
  if below.blockNumber + 1 ≠ above.blockNumber then false
  else if 1 ≤ below.blockNumber ∧ below.blockTimeNano ≤ referenceTimestampNano ∧
      referenceTimestampNano < above.blockTimeNano then true
  else false

/-- `algoVerifyResultInsideRange`. -/
def algoVerifyResultInsideRange (referenceTimestampNano : TimestampNano) (below above : BlockNumberAndTime) :
    Except String Unit :=
  if below.blockNumber < 1 then
    .error s!"ethereum timestamp finder range corrupt, below is {below.blockNumber} (below 1)"
  else if ¬(below.blockNumber + 1 < above.blockNumber) then
    .error s!"ethereum timestamp finder range corrupt, below {below.blockNumber} is too close to above {above.blockNumber}"
  else if referenceTimestampNano < below.blockTimeNano then
    .error s!"ethereum timestamp finder range corrupt, below timestamp {below.blockTimeNano} is above reference {referenceTimestampNano}"
  else if above.blockTimeNano ≤ referenceTimestampNano then
    .error s!"ethereum timestamp finder range corrupt, above timestamp {above.blockTimeNano} is below reference {referenceTimestampNano}"
  else .ok ()

/-- `algoGetCursorWithBinarySearch`: Go's division of `int64` truncates. -/
def algoGetCursorWithBinarySearch (below above : BlockNumberAndTime) : Int :=
  let distInBlocks := above.blockNumber - below.blockNumber
  below.blockNumber + distInBlocks.tdiv 2

section Getter

variable (btg : BlockTimeGetter)

/-- `algoExtendAbove`: the latest block, when it is newer than the reference. -/
def algoExtendAbove (referenceTimestampNano : TimestampNano) : Except String BlockNumberAndTime :=
  match btg.getTimestampForLatestBlock with
  | .error err => .error err
  | .ok none => .error "ethereum timestamp finder received nil as latest block from getter"
  | .ok (some latest) =>
    if referenceTimestampNano ≥ latest.blockTimeNano then
      .error s!"the latest ethereum block {latest.blockNumber} at {latest.blockTimeNano} is not newer than the reference timestamp {referenceTimestampNano}; delta is {referenceTimestampNano - latest.blockTimeNano}"
    else .ok latest

/-- The loop of `algoExtendBelow` over its cursor attempts; `none` falls out of the loop. -/
def extendBelowAttempts (referenceTimestampNano : TimestampNano) :
    List Int → Option (Except String BlockNumberAndTime)
  | [] => none
  | cursorBlockNumber :: rest =>
    if cursorBlockNumber ≥ 1 then
      match btg.getTimestampForBlockNumber cursorBlockNumber with
      | .error err => some (.error err)
      | .ok none => some (.error "ethereum timestamp finder received nil as cursor block from getter")
      | .ok (some cursor) =>
        if 1 ≤ cursor.blockNumber ∧ cursor.blockTimeNano ≤ referenceTimestampNano then some (.ok cursor)
        else if cursor.blockNumber = 1 then
          some (.error s!"the first ethereum block {cursor.blockNumber} at {cursor.blockTimeNano} is newer than the reference timestamp {referenceTimestampNano}")
        else extendBelowAttempts referenceTimestampNano rest
    else extendBelowAttempts referenceTimestampNano rest

/-- `algoExtendBelow`: back off from the range by the two probable distances, then try block 1. -/
def algoExtendBelow (referenceTimestampNano : TimestampNano) (belowBlockNumber aboveBlockNumber : Int) :
    Except String BlockNumberAndTime :=
  let startBlockNumber := if belowBlockNumber < 1 then aboveBlockNumber else belowBlockNumber
  let cursorBlockNumberAttempts := [startBlockNumber - timestampFinderProbableRangeEfficient,
    startBlockNumber - timestampFinderProbableRangeInefficient, 1]
  match extendBelowAttempts btg referenceTimestampNano cursorBlockNumberAttempts with
  | some result => result
  | none =>
    -- not supposed to be able to get here
    .error s!"unable to extend below, reference timestamp is {referenceTimestampNano}, above is {aboveBlockNumber}, below is {belowBlockNumber}"

-- `int64(math.Round(fraction * float64(distInBlocks)))` of `algoGetCursorWithHeuristics`, with
-- `fraction := float64(distToReference) / float64(distInNano)`: the float64 interpolation as a
-- function of the two timestamp distances and the block distance
variable (roundInterpolation : TimestampNano → TimestampNano → Int → Int)

/-- `algoGetCursorWithHeuristics`: the interpolated cursor, clamped into the open range. The
`uint64` distances wrap as in Go. -/
def algoGetCursorWithHeuristics (referenceTimestampNano : TimestampNano) (below above : BlockNumberAndTime) :
    Int :=
  let distInBlocks := above.blockNumber - below.blockNumber
  let distInNano := above.blockTimeNano - below.blockTimeNano
  if distInNano = 0 then above.blockNumber - 1
  else
    let distToReference := referenceTimestampNano - below.blockTimeNano
    let res := below.blockNumber + roundInterpolation distToReference distInNano distInBlocks
    if res ≤ below.blockNumber then below.blockNumber + 1
    else if res ≥ above.blockNumber then above.blockNumber - 1
    else res

/-- `algoReduceRange`: interpolate for the first steps, then bisect, and keep the half of the
range that still holds the reference. -/
def algoReduceRange (referenceTimestampNano : TimestampNano) (below above : BlockNumberAndTime) (step : Nat) :
    Except String (BlockNumberAndTime × BlockNumberAndTime) :=
  let allowedHeuristics := step ≤ timestampFinderAllowedHeuristicSteps
  let cursorBlockNumber :=
    if allowedHeuristics then algoGetCursorWithHeuristics roundInterpolation referenceTimestampNano below above
    else algoGetCursorWithBinarySearch below above
  match btg.getTimestampForBlockNumber cursorBlockNumber with
  | .error err => .error err
  | .ok none => .error "ethereum timestamp finder received nil as cursor block from getter"
  | .ok (some cursor) =>
    if referenceTimestampNano < cursor.blockTimeNano then .ok (below, cursor) else .ok (cursor, above)

-- `ctx.Err() == context.Canceled` at each step of the loop
variable (canceledAt : Nat → Bool)

/-- The loop of `FindBlockByTimestamp` at step `steps`, with `fuel` of its steps left: the range it
confirms. -/
def findBlockByTimestampLoop (referenceTimestampNano : TimestampNano) :
    Nat → Nat → BlockNumberAndTime → BlockNumberAndTime → Except String (BlockNumberAndTime × BlockNumberAndTime)
  | 0, _, _, _ =>
    .error s!"ethereum timestamp finder went over maximum steps {timestampFinderMaxSteps}, reference timestamp {referenceTimestampNano}"
  | fuel + 1, steps, below, above =>
    if canceledAt steps then .error "aborting search: context canceled"
    else if algoDidReachResult referenceTimestampNano below above then .ok (below, above)
    else
      match algoVerifyResultInsideRange referenceTimestampNano below above with
      | .error err => .error err
      | .ok () =>
        match algoReduceRange btg roundInterpolation referenceTimestampNano below above steps with
        | .error err => .error err
        | .ok (below, above) => findBlockByTimestampLoop referenceTimestampNano fuel (steps + 1) below above

/-- `FindBlockByTimestamp` from the cached range up to the range it confirms: the cache itself
when it holds the reference, else the range extended above and below as needed and reduced by
the loop of steps `1` to `TIMESTAMP_FINDER_MAX_STEPS - 1`. -/
def findConfirmedRange (referenceTimestampNano : TimestampNano) (below above : BlockNumberAndTime) :
    Except String (BlockNumberAndTime × BlockNumberAndTime) :=
  if algoDidReachResult referenceTimestampNano below above then .ok (below, above)
  else
    match (if ¬(referenceTimestampNano < above.blockTimeNano) then algoExtendAbove btg referenceTimestampNano
      else .ok above) with
    | .error err => .error err
    | .ok above =>
      match (if ¬(1 ≤ below.blockNumber ∧ below.blockTimeNano ≤ referenceTimestampNano) then
          algoExtendBelow btg referenceTimestampNano below.blockNumber above.blockNumber
        else .ok below) with
      | .error err => .error err
      | .ok below =>
        findBlockByTimestampLoop btg roundInterpolation canceledAt referenceTimestampNano
          (timestampFinderMaxSteps - 1) 1 below above

end Getter

/-- The `lastResultCache` of a finder, nil pointers as `none`. -/
structure LastResultCache where
  below : Option BlockNumberAndTime
  above : Option BlockNumberAndTime
  deriving DecidableEq, Repr

/-- `finder`: its getter and the range of its last result. -/
structure Finder where
  btg : BlockTimeGetter
  lastResultCache : LastResultCache

/-- `NewTimestampFinder`. -/
def newTimestampFinder (btg : BlockTimeGetter) : Finder :=
  ⟨btg, ⟨none, none⟩⟩

/-- `getLastResultCache`: a nil bound reads as the zero `BlockNumberAndTime`. -/
def Finder.getLastResultCache (f : Finder) : BlockNumberAndTime × BlockNumberAndTime :=
  (f.lastResultCache.below.getD ⟨0, 0⟩, f.lastResultCache.above.getD ⟨0, 0⟩)

/-- `setLastResultCache`. -/
def Finder.setLastResultCache (f : Finder) (below above : BlockNumberAndTime) : Finder :=
  { f with lastResultCache := ⟨some below, some above⟩ }

/-- `returnConfirmedResult`: the block below is the result, and the range is cached. -/
def Finder.returnConfirmedResult (f : Finder) (below above : BlockNumberAndTime) :
    Except String BlockNumberAndTime × Finder :=
  (.ok below, f.setLastResultCache below above)

section Finding

variable (roundInterpolation : TimestampNano → TimestampNano → Int → Int)

/-- `FindBlockByTimestamp`: a failed search leaves the cache as it was. -/
def Finder.findBlockByTimestamp (f : Finder) (canceledAt : Nat → Bool) (referenceTimestampNano : TimestampNano) :
    Except String BlockNumberAndTime × Finder :=
  match findConfirmedRange f.btg roundInterpolation canceledAt referenceTimestampNano
      f.getLastResultCache.1 f.getLastResultCache.2 with
  | .error err => (.error err, f)
  | .ok (below, above) => f.returnConfirmedResult below above

/-- The finder after a sequence of calls, each with its context and reference timestamp. -/
def Finder.afterCalls (f : Finder) (calls : List ((Nat → Bool) × TimestampNano)) : Finder :=
  calls.foldl (fun f call => (f.findBlockByTimestamp roundInterpolation call.1 call.2).2) f

end Finding

end OrbsNetwork.Ethereum
