import OrbsNetwork.Merkle.Node
import Mathlib.Logic.Function.Basic

namespace OrbsNetwork.Elections

/-- `[20]byte`, the addresses of Ethereum accounts and of Orbs nodes. -/
abbrev Address := Vector UInt8 20

instance lawfulBEqAddress : LawfulBEq Address := inferInstance

/-- `[20]byte{}`, which is also what an address read from an empty key is. -/
def emptyAddr : Address := Vector.replicate 20 0

/-- `_addressSliceToArray`: the first twenty bytes, with zeros after a shorter slice. -/
def addressSliceToArray (a : Bytes) : Address := Vector.ofFn fun i => a.getD i 0

@[simp] theorem addressSliceToArray_toList (a : Address) : addressSliceToArray a.toList = a := by
  ext i within
  simp [addressSliceToArray]

/-- The bytes `_setCandidates` writes: the addresses one after the other. -/
def candidatesBytes (candidateList : List Address) : Bytes := candidateList.flatMap Vector.toList

/-- `_getCandidates` of the bytes it reads: twenty bytes to an address, a shorter tail dropped. -/
def getCandidatesOf (candidates : Bytes) : List Address :=
  (List.range (candidates.length / 20)).map fun i => addressSliceToArray ((candidates.drop (i * 20)).take 20)

theorem getCandidatesOf_toList_append (a : Address) (rest : Bytes) :
    getCandidatesOf (a.toList ++ rest) = a :: getCandidatesOf rest := by
  have length : (a.toList ++ rest).length / 20 = rest.length / 20 + 1 := by
    rw [List.length_append, Vector.length_toList]
    omega
  -- past the first twenty bytes, the chunks are those of `rest`
  have shifted : ∀ i, (a.toList ++ rest).drop ((i + 1) * 20) = rest.drop (i * 20) := by
    intro i
    rw [Nat.succ_mul, Nat.add_comm, ← List.drop_drop, List.drop_left' Vector.length_toList]
  unfold getCandidatesOf
  rw [length, List.range_succ_eq_map, List.map_cons, List.map_map, Nat.zero_mul, List.drop_zero,
    List.take_left' Vector.length_toList, addressSliceToArray_toList]
  refine congrArg (a :: ·) ?_
  refine List.map_congr_left fun i _ => ?_
  rw [Function.comp_apply, shifted]

/-- What `_setCandidates` writes, `_getCandidates` reads back. -/
theorem getCandidatesOf_candidatesBytes (candidateList : List Address) :
    getCandidatesOf (candidatesBytes candidateList) = candidateList := by
  induction candidateList with
  | nil => rfl
  | cons a later ih =>
    rw [candidatesBytes, List.flatMap_cons, getCandidatesOf_toList_append, ← candidatesBytes, ih]

-- the constants of `index.go`
def VOTE_OUT_WEIGHT_PERCENT : UInt64 := 70
def MIN_ELECTED_VALIDATORS : Nat := 7
def ETHEREUM_STAKE_FACTOR : Nat := 1000000000000000000
def DELEGATION_NAME : String := "Delegate"
def DELEGATION_BY_TRANSFER_NAME : String := "Transfer"
def DELEGATION_BY_TRANSFER_VALUE : Nat := 70000000000000000
def VOTE_MIRROR_PERIOD_LENGTH_IN_BLOCKS : UInt64 := 545
def VOTE_VALID_PERIOD_LENGTH_IN_BLOCKS : UInt64 := 45500
def ELECTION_PERIOD_LENGTH_IN_BLOCKS : UInt64 := 20000
def TRANSITION_PERIOD_LENGTH_IN_BLOCKS : UInt64 := 1
def FIRST_ELECTION_BLOCK : UInt64 := 7528900
def FIRST_ELECTION_TIME_IN_NANOS : UInt64 := 1569920400000000000
def ELECTION_PERIOD_LENGTH_IN_NANOS : UInt64 := 3 * 24 * 3600 * 1000000000
def MIRROR_PERIOD_LENGTH_IN_NANOS : UInt64 := 2 * 3600 * 1000000000
def VOTE_PERIOD_LENGTH_IN_NANOS : UInt64 := 7 * 24 * 3600 * 1000000000

/-- The state of the elections contract, one field for each family of its keys. A key never
written, or cleared, reads as the zero of its type; an address slot reads as `emptyAddr`. -/
structure State where
  -- `Voting_Process_State`, `Voting_Process_Item`, `Total_Voting_Weight`
  votingProcessState : String
  votingProcessItem : UInt32
  totalVotingWeight : UInt64
  -- `Guardians_Count`, `Guardian_Address_%d`, and `Guardian_%s` with its suffixes
  numberOfGuardians : UInt32
  guardianAtIndex : Nat → Address
  guardian : Address → UInt32
  guardianStake : Address → UInt64
  guardianVoteBlockNumber : Address → UInt64
  guardianCandidates : Address → Bytes
  guardianVoteWeight : Address → UInt64
  -- `Delegator_Address_Count`, `Delegator_Address_%d`, and `Delegator_%s` with its suffixes
  numberOfDelegators : UInt32
  delegatorAtIndex : Nat → Address
  delegatorAgent : Address → Address
  delegatorBlockNumber : Address → UInt64
  delegatorBlockTxIndex : Address → UInt32
  delegatorMethod : Address → String
  delegatorStake : Address → UInt64
  -- `Validators_Count`, `Validator_Address_%d`, and `Validator_%s` with its suffixes
  numberOfValidators : UInt32
  validatorAtIndex : Nat → Address
  validatorOrbsAddress : Address → Address
  validatorStake : Address → UInt64
  validatorVote : Address → UInt64
  -- `Current_Election_Block_Number`, `Current_Election_Earliest_Vote`, `Current_Election_Time`
  processCurrentElectionBlockNumber : UInt64
  processCurrentElectionEarliestValidVoteBlockNumber : UInt64
  processCurrentElectionTime : UInt64
  -- `Is_Time_Based_Elections`, `_CURRENT_ELECTION_INDEX_KEY_` and `Election_%d` with its suffixes
  isTimeBasedElections : UInt32
  numberOfElections : UInt32
  electionTimeInNanos : UInt32 → UInt64
  electionBlockNumber : UInt32 → UInt64
  electionBlockHeight : UInt32 → UInt64
  electionValidatorsEth : UInt32 → Bytes
  electionValidatorsOrbs : UInt32 → Bytes
  -- the rewards: `Participant_CumReward_%s`, `Guardian_CumReward_%s`, `Vaidator_CumReward_%s`,
  -- `Excellence_Program_Guardians`
  cumulativeParticipationReward : Address → UInt64
  cumulativeGuardianExcellenceReward : Address → UInt64
  cumulativeValidatorReward : Address → UInt64
  excellenceProgramGuardians : Bytes

namespace State

/-- The state before any key is written: every key reads as the zero of its type. -/
def initial : State where
  votingProcessState := ""
  votingProcessItem := 0
  totalVotingWeight := 0
  numberOfGuardians := 0
  guardianAtIndex _ := emptyAddr
  guardian _ := 0
  guardianStake _ := 0
  guardianVoteBlockNumber _ := 0
  guardianCandidates _ := []
  guardianVoteWeight _ := 0
  numberOfDelegators := 0
  delegatorAtIndex _ := emptyAddr
  delegatorAgent _ := emptyAddr
  delegatorBlockNumber _ := 0
  delegatorBlockTxIndex _ := 0
  delegatorMethod _ := ""
  delegatorStake _ := 0
  numberOfValidators := 0
  validatorAtIndex _ := emptyAddr
  validatorOrbsAddress _ := emptyAddr
  validatorStake _ := 0
  validatorVote _ := 0
  processCurrentElectionBlockNumber := 0
  processCurrentElectionEarliestValidVoteBlockNumber := 0
  processCurrentElectionTime := 0
  isTimeBasedElections := 0
  numberOfElections := 0
  electionTimeInNanos _ := 0
  electionBlockNumber _ := 0
  electionBlockHeight _ := 0
  electionValidatorsEth _ := []
  electionValidatorsOrbs _ := []
  cumulativeParticipationReward _ := 0
  cumulativeGuardianExcellenceReward _ := 0
  cumulativeValidatorReward _ := 0
  excellenceProgramGuardians := []

variable (s : State)

def getNumberOfGuardians : Nat := s.numberOfGuardians.toNat

def getNumberOfDelegators : Nat := s.numberOfDelegators.toNat

def getNumberOfValidators : Nat := s.numberOfValidators.toNat

/-- The guardians by index, as `_getGuardianAtIndex` reads them. -/
def guardianList : List Address := (List.range s.getNumberOfGuardians).map s.guardianAtIndex

/-- The delegators by index, as `_getDelegatorAtIndex` reads them. -/
def delegatorList : List Address := (List.range s.getNumberOfDelegators).map s.delegatorAtIndex

/-- `_getValidators`. -/
def getValidators : List Address := (List.range s.getNumberOfValidators).map s.validatorAtIndex

/-- `_getGuardians`, the set of the guardians by index. -/
def getGuardians (a : Address) : Bool := decide (a ∈ s.guardianList)

def getCandidates (g : Address) : List Address := getCandidatesOf (s.guardianCandidates g)

/-- `_isGuardian`. -/
def isGuardian (a : Address) : Bool := s.guardian a ≠ 0

/-- `_isTimeBasedElections`. -/
def timeBased : Bool := s.isTimeBasedElections = 1

/-- `hasProcessingStarted`. -/
def hasProcessingStarted : UInt32 := if s.votingProcessState.length > 0 then 1 else 0

/-- `_getVotingProcessItem`. -/
def getVotingProcessItem : Nat := s.votingProcessItem.toNat

/-- `_nextProcessVotingState`: the item cursor back to zero and the next stage. -/
def nextProcessVotingState (stage : String) : State :=
  { s with votingProcessItem := 0, votingProcessState := stage }

/-- `_setValidators`. -/
def setValidators (validators : List Address) : State :=
  { s with
    numberOfValidators := validators.length.toUInt32
    validatorAtIndex := fun i => validators.getD i (s.validatorAtIndex i) }

/-- `_setGuardians`: the count, each guardian at its index, and its `Guardian_%s` flag. -/
def setGuardians (guardians : List Address) : State :=
  { s with
    numberOfGuardians := guardians.length.toUInt32
    guardianAtIndex := fun i => guardians.getD i (s.guardianAtIndex i)
    guardian := fun a => if a ∈ guardians then 1 else s.guardian a }

/-- `_clearGuardians`: every key of each guardian by index, then the count. -/
def clearGuardians : State :=
  let cleared := fun a => a ∈ s.guardianList
  { s with
    numberOfGuardians := 0
    guardianAtIndex := fun i => if i < s.getNumberOfGuardians then emptyAddr else s.guardianAtIndex i
    guardian := fun a => if cleared a then 0 else s.guardian a
    guardianCandidates := fun a => if cleared a then [] else s.guardianCandidates a
    guardianStake := fun a => if cleared a then 0 else s.guardianStake a
    guardianVoteBlockNumber := fun a => if cleared a then 0 else s.guardianVoteBlockNumber a
    guardianVoteWeight := fun a => if cleared a then 0 else s.guardianVoteWeight a }

@[simp] theorem nextProcessVotingState_votingProcessState (stage : String) :
    (s.nextProcessVotingState stage).votingProcessState = stage := rfl

@[simp] theorem nextProcessVotingState_votingProcessItem (stage : String) :
    (s.nextProcessVotingState stage).votingProcessItem = 0 := rfl

end State

end OrbsNetwork.Elections
