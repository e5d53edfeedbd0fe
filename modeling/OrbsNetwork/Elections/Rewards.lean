import OrbsNetwork.Elections.State
import OrbsNetwork.Library.CheckedArith
import OrbsNetwork.Library.OrderedMap
import OrbsNetwork.Merkle.OrderedTree
import Mathlib.Data.List.Sort

namespace OrbsNetwork.Elections

open CheckedArith

-- the constants of `processing_rewards.go`; the rewards are annual
def ELECTION_PARTICIPATION_MAX_REWARD : UInt64 := 60000000
def ELECTION_PARTICIPATION_MAX_STAKE_REWARD_PERCENT : UInt64 := 8
def ELECTION_GUARDIAN_EXCELLENCE_MAX_REWARD : UInt64 := 40000000
def ELECTION_GUARDIAN_EXCELLENCE_MAX_STAKE_REWARD_PERCENT : UInt64 := 10
def ELECTION_GUARDIAN_EXCELLENCE_MAX_NUMBER : Nat := 10
def ELECTION_VALIDATOR_INTRODUCTION_REWARD : UInt64 := 1000000
def ELECTION_VALIDATOR_MAX_STAKE_REWARD_PERCENT : UInt64 := 4
def ANNUAL_TO_ELECTION_FACTOR_TIMEBASED : UInt64 := 12174
def ANNUAL_TO_ELECTION_FACTOR_BLOCKBASED : UInt64 := 11723

/-- The three families of cumulative reward keys: `Participant_CumReward_%s`,
`Guardian_CumReward_%s` and `Vaidator_CumReward_%s`. -/
inductive RewardKind
  | participant
  | guardian
  | validator
  deriving DecidableEq, Repr

/-- `guardianArray.Less`: more votes first, and among equal votes the greater address first. -/
def guardianLess (g h : Address × UInt64) : Bool :=
  g.2 > h.2 || (g.2 == h.2 && Merkle.bytesCompareGt g.1.toList h.1.toList)

/-- `sort.Sort` of the guardians by `guardianLess`. The guardians of a map are distinct, so the
order is strict and total on them and any sort gives this one result. -/
def sortGuardians (guardianList : List (Address × UInt64)) : List (Address × UInt64) :=
  guardianList.insertionSort fun a b => guardianLess b a = false

/-- The loop of `_getTopGuardians` past the first ten: each next guardian while its votes equal
those of the one before it. -/
def tiesAfter (previous : UInt64) : List (Address × UInt64) → List (Address × UInt64)
  | [] => []
  | g :: rest => if g.2 ≠ previous then [] else g :: tiesAfter g.2 rest

/-- `_getTopGuardians`: the ten guardians with the most votes, then those tied with the tenth,
and their votes added up. The map is read in the order of its entries, which the sort makes
irrelevant. -/
def getTopGuardians (guardiansAccumulatedStake : OrderedMap Address UInt64) :
    Option (List (Address × UInt64) × UInt64) := do
  let guardianList := sortGuardians guardiansAccumulatedStake.entries
  let first := guardianList.take ELECTION_GUARDIAN_EXCELLENCE_MAX_NUMBER
  -- the second loop starts at index ten and compares each guardian with the one before it
  let ties := match first.getLast? with
    | some last => tiesAfter last.2 (guardianList.drop ELECTION_GUARDIAN_EXCELLENCE_MAX_NUMBER)
    | none => []
  let topGuardiansStake := first ++ ties
  let totalVotes ← topGuardiansStake.foldlM (fun total g => add total g.2) 0
  pure (topGuardiansStake, totalVotes)

namespace State

variable (s : State)

/-- `_annualFactorize`: an annual amount divided among the elections of a year. -/
def annualFactorize (input : UInt64) : Option UInt64 :=
  if s.timeBased then div input ANNUAL_TO_ELECTION_FACTOR_TIMEBASED
  else div input ANNUAL_TO_ELECTION_FACTOR_BLOCKBASED

/-- `_maxRewardForGroup`: the smaller of the group's maximum and its percentage of the votes, each
for one election. -/
def maxRewardForGroup (upperMaximum totalVotes percent : UInt64) : Option UInt64 := do
  let upperMaximumPerElection ← s.annualFactorize (← mul upperMaximum 100)
  let calcMaximumPerElection ← s.annualFactorize (← mul totalVotes percent)
  pure (if calcMaximumPerElection < upperMaximumPerElection then calcMaximumPerElection else upperMaximumPerElection)

def cumulativeReward : RewardKind → Address → UInt64
  | .participant => s.cumulativeParticipationReward
  | .guardian => s.cumulativeGuardianExcellenceReward
  | .validator => s.cumulativeValidatorReward

def setCumulativeReward (kind : RewardKind) (a : Address) (reward : UInt64) : State :=
  match kind with
  | .participant => { s with cumulativeParticipationReward := Function.update s.cumulativeParticipationReward a reward }
  | .guardian =>
    { s with cumulativeGuardianExcellenceReward := Function.update s.cumulativeGuardianExcellenceReward a reward }
  | .validator => { s with cumulativeValidatorReward := Function.update s.cumulativeValidatorReward a reward }

/-- `_addCumulativeReward` at the key of `a` in the family `kind`. -/
def addCumulativeReward (kind : RewardKind) (a : Address) (reward : UInt64) : Option State := do
  let sumReward ← add (s.cumulativeReward kind a) reward
  pure (s.setCumulativeReward kind a sumReward)

def addCumulativeParticipationReward (participant : Address) (reward : UInt64) : Option State :=
  s.addCumulativeReward .participant participant reward

def addCumulativeGuardianExcellenceReward (guardian : Address) (reward : UInt64) : Option State :=
  s.addCumulativeReward .guardian guardian reward

def addCumulativeValidatorReward (validator : Address) (reward : UInt64) : Option State :=
  s.addCumulativeReward .validator validator reward

/-- One turn of the loop of `_processRewardsParticipants`: the participant's share of the
reward, in proportion to its stake. -/
def rewardParticipant (totalVotes totalReward : UInt64) (participantStakes : Address → Option UInt64)
    (participant : Address) : Option State := do
  let stake := (participantStakes participant).getD 0
  let reward ← div (← mul stake totalReward) totalVotes
  s.addCumulativeParticipationReward participant reward

/-- `_processRewardsParticipants`. -/
def processRewardsParticipants (totalVotes : UInt64) (participants : List Address)
    (participantStakes : Address → Option UInt64) : Option State := do
  let totalReward ← s.maxRewardForGroup ELECTION_PARTICIPATION_MAX_REWARD totalVotes
    ELECTION_PARTICIPATION_MAX_STAKE_REWARD_PERCENT
  participants.foldlM (fun s participant => s.rewardParticipant totalVotes totalReward participantStakes participant) s

/-- `_setExcellenceProgramGuardians`: the addresses one after the other. -/
def setExcellenceProgramGuardians (guardians : List (Address × UInt64)) : State :=
  { s with excellenceProgramGuardians := candidatesBytes (guardians.map Prod.fst) }

/-- One turn of the loop of `_processRewardsGuardians`. -/
def rewardGuardian (totalTopVotes totalReward : UInt64) (guardian : Address × UInt64) : Option State := do
  let reward ← div (← mul guardian.2 totalReward) totalTopVotes
  s.addCumulativeGuardianExcellenceReward guardian.1 reward

/-- `_processRewardsGuardians`: the reward of the top guardians, in proportion to their votes
among them. -/
def processRewardsGuardians (guardiansAccumulatedStake : OrderedMap Address UInt64) : Option State := do
  let (topGuardians, totalTopVotes) ← getTopGuardians guardiansAccumulatedStake
  let s := s.setExcellenceProgramGuardians topGuardians
  let totalReward ← s.maxRewardForGroup ELECTION_GUARDIAN_EXCELLENCE_MAX_REWARD totalTopVotes
    ELECTION_GUARDIAN_EXCELLENCE_MAX_STAKE_REWARD_PERCENT
  topGuardians.foldlM (fun s guardian => s.rewardGuardian totalTopVotes totalReward guardian) s

/-- `_getValidatorsStake`: the stake of each validator by index. -/
def getValidatorsStake : Address → Option UInt64 :=
  s.getValidators.foldl (fun validatorsStake validator =>
    Function.update validatorsStake validator (some (s.validatorStake validator))) fun _ => none

/-- One turn of the loop of `_processRewardsValidators`. -/
def rewardValidator (electionValidatorIntroduction : UInt64) (validatorsStake : Address → Option UInt64)
    (elected : Address) : Option State := do
  let stake := (validatorsStake elected).getD 0
  let reward ← add electionValidatorIntroduction
    (← s.annualFactorize (← mul stake ELECTION_VALIDATOR_MAX_STAKE_REWARD_PERCENT))
  s.addCumulativeValidatorReward elected reward

/-- `_processRewardsValidators`. -/
def processRewardsValidators (elected : List Address) : Option State := do
  let electionValidatorIntroduction ← s.annualFactorize (← mul ELECTION_VALIDATOR_INTRODUCTION_REWARD 100)
  let validatorsStake := s.getValidatorsStake
  elected.foldlM (fun s validator => s.rewardValidator electionValidatorIntroduction validatorsStake validator) s

/-- `_processRewards`. -/
def processRewards (totalVotes : UInt64) (elected participants : List Address)
    (participantStakes : Address → Option UInt64) (guardiansAccumulatedStake : OrderedMap Address UInt64) :
    Option State := do
  let s ← s.processRewardsParticipants totalVotes participants participantStakes
  let s ← s.processRewardsGuardians guardiansAccumulatedStake
  s.processRewardsValidators elected

end State

end OrbsNetwork.Elections
