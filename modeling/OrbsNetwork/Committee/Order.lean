import OrbsNetwork.Merkle.Node

namespace OrbsNetwork.Committee

/-- `ToleranceLevel`. -/
def toleranceLevel : UInt32 := 2

/-- `ReputationBottomCap`. -/
def reputationBottomCap : UInt32 := 8

/-- A lowercase hexadecimal digit. -/
def hexDigit (n : Nat) : Char :=
  if n < 10 then Char.ofNat (48 + n) else Char.ofNat (87 + n)

/-- `hex.EncodeToString`. -/
def hexEncode (bytes : Bytes) : String :=
  String.ofList (bytes.flatMap fun b => [hexDigit (b.toNat / 16), hexDigit (b.toNat % 16)])

/-- `_formatMisses`: the state key of an address's misses. -/
def formatMisses (addr : Bytes) : Bytes :=
  ("Address_" ++ hexEncode addr ++ "_Misses").toUTF8.toList

/-- `_getMaxReputation`. -/
def getMaxReputation : UInt32 :=
  reputationBottomCap - toleranceLevel

section State

-- `state.ReadUint32` of the contract's state
variable (readUint32 : Bytes → UInt32)

def getMisses (addr : Bytes) : UInt32 :=
  readUint32 (formatMisses addr)

/-- `getReputation`: none up to the tolerance, then the misses above it, capped at the maximum. -/
def getReputation (addr : Bytes) : UInt32 :=
  let currMiss := getMisses readUint32 addr
  if currMiss ≤ toleranceLevel then 0
  else if currMiss < reputationBottomCap then currMiss - toleranceLevel
  else getMaxReputation

/-- `_absoluteWeight`: `1 << (maxReputation - reputation)` as an `int`. -/
def absoluteWeight (address : Bytes) : Int :=
  ((1 <<< (getMaxReputation - getReputation readUint32 address).toNat : Nat) : Int)

/-- `_calculateAccumulatedWeightArray`: the running totals of the weights, and the total. -/
def calculateAccumulatedWeightArray (addresses : List Bytes) : List Int × Int :=
  addresses.foldl (fun (accumulatedWeights, totalWeight) address =>
    let totalWeight := totalWeight + absoluteWeight readUint32 address
    (accumulatedWeights ++ [totalWeight], totalWeight)) ([], 0)

end State

/-- `binary.LittleEndian.Uint32` of four bytes. -/
def littleEndianUint32 (b0 b1 b2 b3 : UInt8) : UInt32 :=
  b0.toUInt32 ||| (b1.toUInt32 <<< 8) ||| (b2.toUInt32 <<< 16) ||| (b3.toUInt32 <<< 24)

/-- `_getRandomWeight`: the last four bytes of a hash, modulo `uint32(maxWeight)`, plus one.
`none` is a panic: a slice shorter than a hash, or a modulus that is zero. -/
def getRandomWeight (random : Bytes) (maxWeight : Int) : Option Int :=
  match random.drop 28 with
  | b0 :: b1 :: b2 :: b3 :: _ =>
    let modulus := UInt32.ofInt maxWeight
    if modulus = 0 then none
    else some ((littleEndianUint32 b0 b1 b2 b3 % modulus).toNat + 1)
  | _ => none

/-- `_generateSeed`: the block height as eight little-endian bytes. -/
def generateSeed (blockHeight : UInt64) : Bytes :=
  (List.range 8).map fun i => (blockHeight >>> (8 * i).toUInt64).toUInt8

/-- The variables of `_orderList` between two rounds of its outer loop. -/
structure OrderState where
  random : Bytes
  accumulatedWeights : List Int
  totalWeight : Int
  orderedCommitteeAddresses : List Bytes
  deriving DecidableEq, Repr

section Order

-- `hash.CalcSha256`, and `state.ReadUint32` of the contract's state
variable (calcSha256 : Bytes → Bytes) (readUint32 : Bytes → UInt32)

/-- `_nextRandom`. -/
def nextRandom (random : Bytes) : Bytes :=
  calcSha256 random

/-- One round of `_orderList`: the first position whose accumulated weight reaches the draw is
appended; its entry is zeroed and its weight taken off the total and off the nonzero entries after
it. -/
def orderRound (addresses : List Bytes) (s : OrderState) : Option OrderState :=
  let random := nextRandom calcSha256 s.random
  (getRandomWeight random s.totalWeight).map fun curr =>
    let s := { s with random := random }
    match s.accumulatedWeights.findIdx? fun accumulated => !decide (curr > accumulated) with
    | none => s
    | some i =>
      let currWeight := absoluteWeight readUint32 (addresses.getD i [])
      { s with
        orderedCommitteeAddresses := s.orderedCommitteeAddresses ++ [addresses.getD i []]
        totalWeight := s.totalWeight - currWeight
        accumulatedWeights := (s.accumulatedWeights.set i 0).mapIdx fun k accumulated =>
          if i < k ∧ accumulated ≠ 0 then accumulated - currWeight else accumulated }

/-- The outer loop of `_orderList`, for the rounds left. -/
def orderRounds (addresses : List Bytes) : Nat → OrderState → Option OrderState
  | 0, s => some s
  | rounds + 1, s => (orderRound calcSha256 readUint32 addresses s).bind (orderRounds addresses rounds)

/-- `_orderList`: one round per address. `none` is a panic. -/
def orderList (addresses : List Bytes) (seed : Bytes) : Option (List Bytes) :=
  let weighted := calculateAccumulatedWeightArray readUint32 addresses
  (orderRounds calcSha256 readUint32 addresses addresses.length ⟨seed, weighted.1, weighted.2, []⟩).map
    OrderState.orderedCommitteeAddresses

/-- `getOrderedCommittee`, with the committee and height of the block being closed. -/
def getOrderedCommittee (blockCommittee : List Bytes) (blockHeight : UInt64) : Option (List Bytes) :=
  orderList calcSha256 readUint32 blockCommittee (generateSeed blockHeight)

/-- `getNextOrderedCommittee`: the committee for the next block. -/
def getNextOrderedCommittee (blockCommittee : List Bytes) (blockHeight : UInt64) : Option (List Bytes) :=
  orderList calcSha256 readUint32 blockCommittee (generateSeed (blockHeight + 1))

end Order

end OrbsNetwork.Committee
