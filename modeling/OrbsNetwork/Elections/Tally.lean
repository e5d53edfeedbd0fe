import OrbsNetwork.Elections.State
import OrbsNetwork.Library.CheckedArith
import OrbsNetwork.Library.OrderedMap

namespace OrbsNetwork.Elections

open CheckedArith

/-- What `_calculateVotes` returns. The Go maps are functions, `none` where a key is missing,
except the accumulated stakes, which `_getTopGuardians` ranges over. -/
structure Votes where
  candidateVotes : Address → Option UInt64
  totalVotes : UInt64
  participants : List Address
  participantStakes : Address → Option UInt64
  guardiansAccumulatedStakes : OrderedMap Address UInt64

namespace State

variable (s : State)

/-- One turn of the loop of `_collectGuardiansStake`. -/
def collectGuardianStake (guardianStakes : Address → Option UInt64) (guardian : Address) : Address → Option UInt64 :=
  if s.guardianVoteBlockNumber guardian ≠ 0 then
    Function.update guardianStakes guardian (some (s.guardianStake guardian))
  else guardianStakes

/-- `_collectGuardiansStake`: the stake of each guardian whose vote is recent enough. -/
def collectGuardiansStake : Address → Option UInt64 :=
  s.guardianList.foldl s.collectGuardianStake fun _ => none

/-- One turn of the loop of `_collectDelegatorsStake`: a delegator not yet met and not a guardian
is added with its stake. -/
def collectDelegatorStake (guardians : Address → Bool) (collected : List Address × (Address → Option UInt64))
    (delegator : Address) : List Address × (Address → Option UInt64) :=
  let (delegators, delegatorStakes) := collected
  if !guardians delegator then
    if (delegatorStakes delegator).isNone then
      (delegators ++ [delegator], Function.update delegatorStakes delegator (some (s.delegatorStake delegator)))
    else (delegators, delegatorStakes)
  else (delegators, delegatorStakes)

/-- `_collectDelegatorsStake`: the delegators that are not guardians, each once, in the order of
its first index, and their stakes. -/
def collectDelegatorsStake (guardians : Address → Bool) : List Address × (Address → Option UInt64) :=
  s.delegatorList.foldl (s.collectDelegatorStake guardians) ([], fun _ => none)

/-- One turn of the loop of `_findGuardianDelegators`: a delegator is listed under its agent,
unless the agent is itself. -/
def findGuardianDelegator (guardianToDelegators : Address → Option (List Address)) (delegator : Address) :
    Address → Option (List Address) :=
  let guardian := s.delegatorAgent delegator
  if guardian ≠ delegator then
    Function.update guardianToDelegators guardian (some ((guardianToDelegators guardian).getD [] ++ [delegator]))
  else guardianToDelegators

/-- `_findGuardianDelegators`. -/
def findGuardianDelegators (delegators : List Address) : Address → Option (List Address) :=
  delegators.foldl s.findGuardianDelegator fun _ => none

end State

section Recursion

variable (guardianToDelegators : Address → Option (List Address)) (delegatorStakes : Address → Option UInt64)

/-- One turn of the loop over a node's delegators in `_calculateOneGuardianVoteRecursive`, with
`recurse` the call below the delegate. -/
def castDelegateVote
    (recurse : Address → List Address → (Address → Option UInt64) →
      Option (UInt64 × List Address × (Address → Option UInt64)))
    (accumulated : UInt64 × List Address × (Address → Option UInt64)) (delegate : Address) :
    Option (UInt64 × List Address × (Address → Option UInt64)) := do
  let (currentVotes, participants, participantStakes) := accumulated
  let participantStakes := Function.update participantStakes delegate (some ((delegatorStakes delegate).getD 0))
  let participants := participants ++ [delegate]
  let (votes, participants, participantStakes) ← recurse delegate participants participantStakes
  let currentVotes ← add currentVotes votes
  pure (currentVotes, participants, participantStakes)

/-- `_calculateOneGuardianVoteRecursive` with `fuel` levels of recursion left: the votes of
`currentLevelGuardian` and of the delegators below it, and the participants with their stakes
after it has added those it met. -/
def calculateOneGuardianVoteRecursive :
    Nat → Address → List Address → (Address → Option UInt64) →
      Option (UInt64 × List Address × (Address → Option UInt64))
  | 0, _, _, _ => none
  | fuel + 1, currentLevelGuardian, participants, participantStakes =>
    let currentVotes := (delegatorStakes currentLevelGuardian).getD 0
    match guardianToDelegators currentLevelGuardian with
    | none => some (currentVotes, participants, participantStakes)
    | some guardianDelegatorList =>
      guardianDelegatorList.foldlM
        (castDelegateVote delegatorStakes (calculateOneGuardianVoteRecursive fuel))
        (currentVotes, participants, participantStakes)

end Recursion

section CastVotes

variable (s : State) (fuel : Nat) (guardianStakes : Address → Option UInt64)
  (guardianDelegators : Address → Option (List Address)) (delegatorStakes : Address → Option UInt64)

/-- One turn of the loop over a guardian's candidates in `_guardiansCastVotes`. -/
def addCandidateVote (stake : UInt64) (candidateVotes : Address → Option UInt64) (candidate : Address) :
    Option (Address → Option UInt64) := do
  let sum ← add ((candidateVotes candidate).getD 0) stake
  pure (Function.update candidateVotes candidate (some sum))

/-- One turn of the loop of `_guardiansCastVotes`, for the guardian at the next index. -/
def castGuardianVote (votes : Votes) (guardian : Address) : Option Votes :=
  match guardianStakes guardian with
  | none => some votes
  | some guardianStake => do
    let participantStakes := Function.update votes.participantStakes guardian (some guardianStake)
    let participants := votes.participants ++ [guardian]
    let (delegated, participants, participantStakes) ← calculateOneGuardianVoteRecursive guardianDelegators
      delegatorStakes fuel guardian participants participantStakes
    let stake ← add guardianStake delegated
    let totalVotes ← add votes.totalVotes stake
    let candidateVotes ← (s.getCandidates guardian).foldlM (addCandidateVote stake) votes.candidateVotes
    pure ⟨candidateVotes, totalVotes, participants, participantStakes,
      votes.guardiansAccumulatedStakes.set guardian stake⟩

/-- `_guardiansCastVotes`: each guardian by index in turn. The loop writes each voting guardian's
weight as it goes and reads none back, so the weights are written after it, with the total. -/
def guardiansCastVotes : Option (Votes × State) := do
  let votes ← s.guardianList.foldlM
    (castGuardianVote s fuel guardianStakes guardianDelegators delegatorStakes)
    ⟨fun _ => none, 0, [], fun _ => none, .empty⟩
  pure (votes, { s with
    guardianVoteWeight := fun a => (votes.guardiansAccumulatedStakes.get? a).getD (s.guardianVoteWeight a)
    totalVotingWeight := votes.totalVotes })

end CastVotes

/-- `_calculateVotes`. The recursion below a guardian is given one level more than there are
delegators, which no chain of delegations below a guardian exceeds. -/
def calculateVotes (s : State) : Option (Votes × State) :=
  let guardianStakes := s.collectGuardiansStake
  let (delegators, delegatorStakes) := s.collectDelegatorsStake s.getGuardians
  let guardianToDelegators := s.findGuardianDelegators delegators
  guardiansCastVotes s (delegators.length + 1) guardianStakes guardianToDelegators delegatorStakes

end OrbsNetwork.Elections
