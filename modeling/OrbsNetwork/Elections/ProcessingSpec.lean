import OrbsNetwork.Elections.Processing
import OrbsNetwork.Elections.RewardsSpec
import OrbsNetwork.Library.Transaction

namespace OrbsNetwork.Elections

open CheckedArith

namespace State

variable (s : State) (eth : Ethereum)

section Started

variable {s}

theorem hasProcessingStarted_of_ne (started : s.votingProcessState ≠ "") : s.hasProcessingStarted = 1 :=
  if_pos (Nat.pos_of_ne_zero (mt String.length_eq_zero_iff.mp started))

/-- `_initCurrentElection` writes the schedule of election zero and nothing else. -/
theorem initCurrentElection_frame {ctx : Context} {s' : State} (init : s.initCurrentElection ctx = some s') :
    s' = { s with electionTimeInNanos := s'.electionTimeInNanos, electionBlockNumber := s'.electionBlockNumber } := by
  unfold initCurrentElection initCurrentElectionBlockNumber at init
  split_ifs at init
  · obtain ⟨_, -, rfl⟩ := Option.map_eq_some_iff.mp init
    rfl
  · obtain rfl := Option.some.inj init
    rfl
  · obtain ⟨_, -, rfl⟩ := Option.map_eq_some_iff.mp init
    rfl
  · obtain rfl := Option.some.inj init
    rfl

theorem initCurrentElection_votingProcessState {ctx : Context} {s' : State} (init : s.initCurrentElection ctx = some s') :
    s'.votingProcessState = s.votingProcessState := by
  rw [initCurrentElection_frame init]

/-- Once processing has started, it is the processing period. -/
theorem isProcessingPeriod_of_started (started : s.votingProcessState ≠ "") (ctx : Context) :
    s.isProcessingPeriod ctx = some 1 := by
  rw [isProcessingPeriod, if_pos (hasProcessingStarted_of_ne started)]

/-- Once processing has started, the election's values are those computed when it started. -/
theorem calculateProcessCurrentElectionValues_of_started (started : s.votingProcessState ≠ "") :
    s.calculateProcessCurrentElectionValues eth = some s := by
  rw [calculateProcessCurrentElectionValues, hasProcessingStarted_of_ne started]
  rfl

/-- While an election is processed, no delegation can be mirrored. -/
theorem mirrorDelegation_of_started (started : s.votingProcessState ≠ "") (ctx : Context) (hash : String) :
    s.mirrorDelegation eth ctx hash = none := by
  cases init : s.initCurrentElection ctx with
  | none => simp [mirrorDelegation, init]
  | some s' =>
    have started' : s'.votingProcessState ≠ "" := by rwa [initCurrentElection_votingProcessState init]
    simp [mirrorDelegation, init, hasProcessingStarted_of_ne started']

theorem mirrorDelegationByTransfer_of_started (started : s.votingProcessState ≠ "") (ctx : Context) (hash : String) :
    s.mirrorDelegationByTransfer eth ctx hash = none := by
  cases init : s.initCurrentElection ctx with
  | none => simp [mirrorDelegationByTransfer, init]
  | some s' =>
    have started' : s'.votingProcessState ≠ "" := by rwa [initCurrentElection_votingProcessState init]
    simp [mirrorDelegationByTransfer, init, hasProcessingStarted_of_ne started']

end Started

section ZeroTally

variable {s}

/-- In the calculations stage, with a voting guardian and no votes, the rewards divide by zero. -/
theorem processVotingStateMachine_of_zero_tally (calculating : s.votingProcessState = VOTING_PROCESS_STATE_CALCULATIONS)
    (voting : s.votingGuardians ≠ []) (zero : s.totalVote = 0) : s.processVotingStateMachine eth = none := by
  obtain ⟨s', tallied, total, someone⟩ := calculateVotes_zero_tally voting zero
  unfold processVotingStateMachine
  simp only [calculating]
  rw [if_neg (by decide), if_neg (by decide), if_neg (by decide), if_neg (by decide), if_neg (by decide), if_pos trivial,
    tallied]
  simp only [Option.bind_eq_bind, Option.bind_some]
  cases selection : s'.processValidatorsSelection s.tallied.candidateVotes s.tallied.totalVotes with
  | none => rfl
  | some result =>
    obtain ⟨elected, s''⟩ := result
    simp only [Option.bind_some, total, processRewards_zero_total _ elected someone, Option.bind_none]

theorem processVoting_of_zero_tally (calculating : s.votingProcessState = VOTING_PROCESS_STATE_CALCULATIONS)
    (voting : s.votingGuardians ≠ []) (zero : s.totalVote = 0) (ctx : Context) : s.processVoting eth ctx = none := by
  have started : s.votingProcessState ≠ "" := by rw [calculating]; decide
  cases init : s.initCurrentElection ctx with
  | none => simp [processVoting, init]
  | some s' =>
    -- `_initCurrentElection` leaves the stage and everything the tally reads
    have frame := initCurrentElection_frame init
    have started' : s'.votingProcessState ≠ "" := by rwa [initCurrentElection_votingProcessState init]
    have calculating' : s'.votingProcessState = VOTING_PROCESS_STATE_CALCULATIONS := by
      rw [initCurrentElection_votingProcessState init, calculating]
    have voting' : s'.votingGuardians ≠ [] := by rw [frame]; exact voting
    have zero' : s'.totalVote = 0 := by rw [frame]; exact zero
    simp only [processVoting, init, Option.bind_eq_bind, Option.bind_some, isProcessingPeriod_of_started started',
      calculateProcessCurrentElectionValues_of_started eth started', processVotingStateMachine_of_zero_tally eth
        calculating' voting' zero', Option.bind_none]
    rfl

/-- Once the calculations stage is reached with a voting guardian and no votes, every call of the
contract fails and leaves the state as it was, whatever the blocks and the calls: the election
never finishes, no result is recorded, and no delegation is mirrored again. -/
theorem elections_stuck_after_zero_tally (calculating : s.votingProcessState = VOTING_PROCESS_STATE_CALCULATIONS)
    (voting : s.votingGuardians ≠ []) (zero : s.totalVote = 0) (calls : List (Context × Call)) :
    Transaction.run (fun call s => call.2.apply eth call.1 s) calls s = (calls.map fun _ => none, s) := by
  have started : s.votingProcessState ≠ "" := by rw [calculating]; decide
  refine Transaction.run_of_stuck (fun call => ?_) calls
  obtain ⟨ctx, c⟩ := call
  cases c with
  | processVoting => simp [Call.apply, processVoting_of_zero_tally eth calculating voting zero ctx]
  | mirrorDelegation hash => simp [Call.apply, mirrorDelegation_of_started eth started ctx hash]
  | mirrorDelegationByTransfer hash => simp [Call.apply, mirrorDelegationByTransfer_of_started eth started ctx hash]

end ZeroTally

section Collection

variable {s}

/-- With no delegators, the delegators stage still collects a stake, that of the address at index
zero, which is no delegator, and is then done. -/
theorem collectNextDelegatorStakeFromEthereum_of_none (start : s.votingProcessItem = 0) (nobody : s.getNumberOfDelegators = 0) :
    s.collectNextDelegatorStakeFromEthereum eth =
      (s.collectOneDelegatorStakeFromEthereum eth 0).map fun s' => (true, s'.setVotingProcessItem 1) := by
  have cursor : s.getVotingProcessItem = 0 := by rw [getVotingProcessItem, start]; rfl
  cases collected : s.collectOneDelegatorStakeFromEthereum eth 0 with
  | none =>
    simp only [collectNextDelegatorStakeFromEthereum, collectNextItem, cursor, collected, Option.bind_eq_bind,
      Option.bind_none, Option.map_none]
  | some s' =>
    -- collecting a stake leaves the number of delegators
    have same : (s'.setVotingProcessItem (0 + 1)).getNumberOfDelegators = s.getNumberOfDelegators := by
      unfold collectOneDelegatorStakeFromEthereum at collected
      simp only [Option.bind_eq_bind, Option.bind_eq_some_iff, Option.pure_def, Option.some.injEq] at collected
      obtain ⟨_, -, rfl⟩ := collected
      rfl
    simp only [collectNextDelegatorStakeFromEthereum, collectNextItem, cursor, collected, Option.bind_eq_bind,
      Option.bind_some, Option.pure_def, Option.map_some, same, nobody]
    rfl

end Collection

end State

/-- One validator, one guardian that voted for it at a valid block, and no stake anywhere. -/
def stakelessEthereum : Ethereum where
  getBlockNumberByTime _ := 0
  getBlockTimeByNumber _ := 0
  validators _ := [Vector.replicate 20 2]
  guardians _ := [Vector.replicate 20 1]
  orbsAddress _ _ := Vector.replicate 20 3
  currentVote _ _ := ([Vector.replicate 20 2], 7540000)
  balanceOf _ _ := 0
  stakeBalanceOf _ _ := 0
  delegateLog _ := none
  transferLog _ := none

/-- Stuck at the calculations stage with one guardian and no stake: a processing call and a
mirroring call both fail and change nothing. -/
theorem State.elections_stuck_after_zero_tally_soleGuardian :
    ({ soleGuardian (Vector.replicate 20 1) 0 [] with votingProcessState := VOTING_PROCESS_STATE_CALCULATIONS } : State).votingProcessState =
        VOTING_PROCESS_STATE_CALCULATIONS ∧
      ({ soleGuardian (Vector.replicate 20 1) 0 [] with votingProcessState := VOTING_PROCESS_STATE_CALCULATIONS } : State).votingGuardians ≠ [] ∧
      ({ soleGuardian (Vector.replicate 20 1) 0 [] with votingProcessState := VOTING_PROCESS_STATE_CALCULATIONS } : State).totalVote = 0 ∧
      Transaction.run (fun call s => call.2.apply stakelessEthereum call.1 s)
          ([(⟨0, 7600000, 1⟩, .processVoting), (⟨0, 0, 0⟩, .mirrorDelegation "")] : List (Context × Call))
          { soleGuardian (Vector.replicate 20 1) 0 [] with votingProcessState := VOTING_PROCESS_STATE_CALCULATIONS } =
        ([none, none], { soleGuardian (Vector.replicate 20 1) 0 [] with votingProcessState := VOTING_PROCESS_STATE_CALCULATIONS }) := by
  have calculating : ({ soleGuardian (Vector.replicate 20 1) 0 [] with votingProcessState := VOTING_PROCESS_STATE_CALCULATIONS } : State).votingProcessState =
      VOTING_PROCESS_STATE_CALCULATIONS := rfl
  have voting : ({ soleGuardian (Vector.replicate 20 1) 0 [] with votingProcessState := VOTING_PROCESS_STATE_CALCULATIONS } : State).votingGuardians ≠ [] := by
    decide
  have zero : ({ soleGuardian (Vector.replicate 20 1) 0 [] with votingProcessState := VOTING_PROCESS_STATE_CALCULATIONS } : State).totalVote = 0 := by
    simp [State.totalVote, State.votingGuardians, State.voteOf, State.delegatorList, State.getNumberOfDelegators, soleGuardian, State.initial, State.guardianList,
      State.getNumberOfGuardians]
  exact ⟨calculating, voting, zero, elections_stuck_after_zero_tally stakelessEthereum calculating voting zero _⟩

/-- Block-based elections whose last election is at block 7528900, with no processing in
progress. -/
def afterFirstElection : State :=
  { State.initial with electionBlockNumber := fun i => if i = 0 then 7528900 else 0 }

/-- In the processing period, the stages run one call each and return 0, and from the
calculations on every call panics: `processVoting` never returns 1. -/
theorem processVoting_never_returns_one :
    (Transaction.run (fun ctx s => s.processVoting stakelessEthereum ctx) (List.replicate 7 ⟨0, 7600000, 1⟩)
      afterFirstElection).1 = [some 0, some 0, some 0, some 0, some 0, none, none] := by
  decide +kernel

end OrbsNetwork.Elections
