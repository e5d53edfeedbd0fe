import OrbsNetwork.Elections.Tally
import OrbsNetwork.Elections.Rewards
import OrbsNetwork.Elections.Mirror

namespace OrbsNetwork.Elections

open CheckedArith

def VOTING_PROCESS_STATE_VALIDATORS : String := "validators"
def VOTING_PROCESS_STATE_GUARDIANS : String := "guardians"
def VOTING_PROCESS_STATE_DELEGATORS : String := "delegators"
def VOTING_PROCESS_STATE_GUARDIANS_DATA : String := "voting"
def VOTING_PROCESS_STATE_CALCULATIONS : String := "calculations"

/-- `getGuardiansBytes20(offset, limit)` of the guardians contract: a page of its list. -/
def Ethereum.getGuardiansBytes20 (eth : Ethereum) (block : UInt64) (pos pageSize : Nat) : List Address :=
  ((eth.guardians block).drop pos).take pageSize

/-- The loop of `_readGuardiansFromEthereumToState`: pages of fifty until a shorter one. -/
def Ethereum.readGuardianPages (eth : Ethereum) (block : UInt64) (pos : Nat) (guardians : List Address) :
    List Address :=
  let gs := eth.getGuardiansBytes20 block pos 50
  if _short : gs.length < 50 then guardians ++ gs
  else eth.readGuardianPages block (pos + 50) (guardians ++ gs)
termination_by (eth.guardians block).length - pos
decreasing_by
  simp only [gs, Ethereum.getGuardiansBytes20, List.length_take, List.length_drop] at _short
  omega

namespace State

variable (s : State) (eth : Ethereum)

def setVotingProcessState (name : String) : State := { s with votingProcessState := name }

def setVotingProcessItem (i : Nat) : State := { s with votingProcessItem := i.toUInt32 }

/-- `_readValidatorsFromEthereumToState`. -/
def readValidatorsFromEthereumToState : State :=
  s.setValidators (eth.validators s.processCurrentElectionBlockNumber)

/-- `_readGuardiansFromEthereumToState`. -/
def readGuardiansFromEthereumToState : State :=
  s.setGuardians (eth.readGuardianPages s.processCurrentElectionBlockNumber 0 [])

/-- `_getStakeAtElection`: the token balance at the election block, in whole tokens, cut to its
low 64 bits by `Uint64`. -/
def getStakeAtElection (a : Address) : UInt64 :=
  UInt64.ofNat (eth.balanceOf s.processCurrentElectionBlockNumber a / ETHEREUM_STAKE_FACTOR)

/-- `_getLockedStakeAtElection`. -/
def getLockedStakeAtElection (a : Address) : UInt64 :=
  UInt64.ofNat (eth.stakeBalanceOf s.processCurrentElectionBlockNumber a / ETHEREUM_STAKE_FACTOR)

/-- The three `_collectNext...FromEthereum`: the item at the cursor, then the cursor moved on; done
once the cursor reaches the count. The item at the cursor is collected before the count is
looked at, so a stage with no items still collects the one at index zero. -/
def collectNextItem (collectOne : State → Nat → Option State) (count : State → Nat) : Option (Bool × State) := do
  let nextIndex := s.getVotingProcessItem
  let s ← collectOne s nextIndex
  let nextIndex := nextIndex + 1
  let s := s.setVotingProcessItem nextIndex
  pure (decide (nextIndex ≥ count s), s)

/-- `_collectOneValidatorDataFromEthereum`. -/
def collectOneValidatorDataFromEthereum (i : Nat) : Option State := do
  let validator := s.validatorAtIndex i
  let orbsAddress := eth.orbsAddress s.processCurrentElectionBlockNumber validator
  let stake := s.getStakeAtElection eth validator
  let lockedStake := s.getLockedStakeAtElection eth validator
  let validatorStake ← add stake lockedStake
  pure { s with
    validatorStake := Function.update s.validatorStake validator validatorStake
    validatorOrbsAddress := Function.update s.validatorOrbsAddress validator orbsAddress }

/-- `_collectOneGuardianDataFromEthereum`: a vote before the earliest valid block counts as none,
with no stake and the one empty candidate of `[][20]byte{{}}`. -/
def collectOneGuardianDataFromEthereum (i : Nat) : Option State := do
  let guardian := s.guardianAtIndex i
  let (votedCandidates, voteBlock) := eth.currentVote s.processCurrentElectionBlockNumber guardian
  let voteBlockNumber := UInt64.ofNat voteBlock
  let (stake, lockedStake, candidates, voteBlockNumber) :=
    if voteBlockNumber ≠ 0 ∧ voteBlockNumber ≥ s.processCurrentElectionEarliestValidVoteBlockNumber then
      (s.getStakeAtElection eth guardian, s.getLockedStakeAtElection eth guardian, votedCandidates, voteBlockNumber)
    else (0, 0, [emptyAddr], 0)
  let guardianStake ← add stake lockedStake
  pure { s with
    guardianStake := Function.update s.guardianStake guardian guardianStake
    guardianVoteBlockNumber := Function.update s.guardianVoteBlockNumber guardian voteBlockNumber
    guardianCandidates := Function.update s.guardianCandidates guardian (candidatesBytes candidates) }

/-- `_collectOneDelegatorStakeFromEthereum`: a delegator that is a guardian gets no stake. -/
def collectOneDelegatorStakeFromEthereum (i : Nat) : Option State := do
  let delegator := s.delegatorAtIndex i
  let (stake, lockedStake) :=
    if !s.isGuardian delegator then (s.getStakeAtElection eth delegator, s.getLockedStakeAtElection eth delegator)
    else (0, 0)
  let delegatorStake ← add stake lockedStake
  pure { s with delegatorStake := Function.update s.delegatorStake delegator delegatorStake }

def collectNextValidatorDataFromEthereum : Option (Bool × State) :=
  s.collectNextItem (fun s => s.collectOneValidatorDataFromEthereum eth) getNumberOfValidators

def collectNextGuardiansDataFromEthereum : Option (Bool × State) :=
  s.collectNextItem (fun s => s.collectOneGuardianDataFromEthereum eth) getNumberOfGuardians

def collectNextDelegatorStakeFromEthereum : Option (Bool × State) :=
  s.collectNextItem (fun s => s.collectOneDelegatorStakeFromEthereum eth) getNumberOfDelegators

/-- One turn of the loop of `_processValidatorsSelection`: a validator stays elected unless its
vote-outs reach the threshold. -/
def selectValidator (candidateVotes : Address → Option UInt64) (voteOutThreshhold : UInt64)
    (selection : List Address × State) (validator : Address) : List Address × State :=
  let (winners, s) := selection
  let voted := (candidateVotes validator).getD 0
  let s := { s with validatorVote := Function.update s.validatorVote validator voted }
  if (candidateVotes validator).isNone || voted < voteOutThreshhold then (winners ++ [validator], s)
  else (winners, s)

/-- `_processValidatorsSelection`: all the validators when fewer than `MIN_ELECTED_VALIDATORS`
stay. -/
def processValidatorsSelection (candidateVotes : Address → Option UInt64) (totalVotes : UInt64) :
    Option (List Address × State) := do
  let validators := s.getValidators
  let voteOutThreshhold ← div (← mul totalVotes VOTE_OUT_WEIGHT_PERCENT) 100
  let (winners, s) := validators.foldl (selectValidator candidateVotes voteOutThreshhold) ([], s)
  pure (if winners.length < MIN_ELECTED_VALIDATORS then validators else winners, s)

/-- `_processVotingStateMachine`: one step of the current stage; the elected validators, never
`nil`, once the calculations are done. -/
def processVotingStateMachine : Option (Option (List Address) × State) :=
  let processState := s.votingProcessState
  if processState = "" then
    some (none, (s.readValidatorsFromEthereumToState eth).nextProcessVotingState VOTING_PROCESS_STATE_GUARDIANS)
  else if processState = VOTING_PROCESS_STATE_GUARDIANS then
    some (none, (s.clearGuardians.readGuardiansFromEthereumToState eth).nextProcessVotingState
      VOTING_PROCESS_STATE_VALIDATORS)
  else if processState = VOTING_PROCESS_STATE_VALIDATORS then do
    let (isDone, s) ← s.collectNextValidatorDataFromEthereum eth
    pure (none, if isDone then s.nextProcessVotingState VOTING_PROCESS_STATE_GUARDIANS_DATA else s)
  else if processState = VOTING_PROCESS_STATE_GUARDIANS_DATA then do
    let (isDone, s) ← s.collectNextGuardiansDataFromEthereum eth
    pure (none, if isDone then s.nextProcessVotingState VOTING_PROCESS_STATE_DELEGATORS else s)
  else if processState = VOTING_PROCESS_STATE_DELEGATORS then do
    let (isDone, s) ← s.collectNextDelegatorStakeFromEthereum eth
    pure (none, if isDone then s.nextProcessVotingState VOTING_PROCESS_STATE_CALCULATIONS else s)
  else if processState = VOTING_PROCESS_STATE_CALCULATIONS then do
    let (votes, s) ← calculateVotes s
    let (elected, s) ← s.processValidatorsSelection votes.candidateVotes votes.totalVotes
    let s ← s.processRewards votes.totalVotes elected votes.participants votes.participantStakes
      votes.guardiansAccumulatedStakes
    pure (some elected, s.setVotingProcessState "")
  else some (none, s)

/-- `processVoting`: refused before the processing period; 1 on the call that records the
election's results, 0 on the others. -/
def processVoting (ctx : Context) : Option (UInt64 × State) := do
  let s ← s.initCurrentElection ctx
  if (← s.isProcessingPeriod ctx) = 0 then none
  else do
    let s ← s.calculateProcessCurrentElectionValues eth
    let (electedValidators, s) ← s.processVotingStateMachine eth
    match electedValidators with
    | some elected => do
      let s ← s.setElectedValidators ctx elected s.processCurrentElectionTime s.processCurrentElectionBlockNumber
      pure (1, s.setProcessCurrentElection 0 0 0)
    | none => pure (0, s)

end State

/-- The calls of the contract that change its state. -/
inductive Call
  | processVoting
  | mirrorDelegation (hexEncodedEthTxHash : String)
  | mirrorDelegationByTransfer (hexEncodedEthTxHash : String)

/-- One call of the contract, in a block with the context `ctx`: its result (that of
`processVoting`, none for the mirrors) and the state after it, `none` when it panics. -/
def Call.apply (eth : Ethereum) (ctx : Context) : Call → State → Option (Option UInt64 × State)
  | .processVoting, s => (s.processVoting eth ctx).map fun (r, s) => (some r, s)
  | .mirrorDelegation hash, s => (s.mirrorDelegation eth ctx hash).map fun s => (none, s)
  | .mirrorDelegationByTransfer hash, s => (s.mirrorDelegationByTransfer eth ctx hash).map fun s => (none, s)

end OrbsNetwork.Elections
