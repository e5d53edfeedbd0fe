import OrbsNetwork.Elections.Election

namespace OrbsNetwork.Elections

namespace State

variable (s : State) (eth : Ethereum)

/-- `_isMirrorDelegationDataAfterElection`: the event is later than the current election. -/
def isMirrorDelegationDataAfterElection (eventBlockNumber : UInt64) : Option Bool :=
  if s.timeBased then do
    let currentElectionTime ← s.getCurrentElectionTimeInNanos
    pure (eth.getBlockTimeByNumber eventBlockNumber > currentElectionTime)
  else do
    let temp ← s.getCurrentElectionBlockNumber
    pure (eventBlockNumber > temp)

/-- `_mirrorDelegationData`: a `Delegate` overrides a `Transfer`, never the other way round, and an
event of the same kind must be later than the one recorded. A delegator recorded at block zero
counts as new and is added to the list again. A delegator that delegates to itself is recorded
with the empty agent. -/
def mirrorDelegationData (delegator agent : Address) (eventBlockNumber : UInt64) (eventBlockTxIndex : UInt32)
    (eventName : String) : Option State := do
  let stateMethod := s.delegatorMethod delegator
  let stateBlockNumber ←
    if stateMethod = DELEGATION_NAME ∧ eventName = DELEGATION_BY_TRANSFER_NAME then none
    else if stateMethod = DELEGATION_BY_TRANSFER_NAME ∧ eventName = DELEGATION_NAME then some eventBlockNumber
    else if stateMethod = eventName then
      let stateBlockNumber := s.delegatorBlockNumber delegator
      let stateBlockTxIndex := s.delegatorBlockTxIndex delegator
      if stateBlockNumber > eventBlockNumber ∨ (stateBlockNumber = eventBlockNumber ∧ stateBlockTxIndex ≥ eventBlockTxIndex)
      then none
      else some stateBlockNumber
    else some 0
  let s := if stateBlockNumber = 0 then
      { s with
        delegatorAtIndex := Function.update s.delegatorAtIndex s.getNumberOfDelegators delegator
        numberOfDelegators := s.numberOfDelegators + 1 }
    else s
  let agent := if delegator = agent then emptyAddr else agent
  pure { s with
    delegatorAgent := Function.update s.delegatorAgent delegator agent
    delegatorBlockNumber := Function.update s.delegatorBlockNumber delegator eventBlockNumber
    delegatorBlockTxIndex := Function.update s.delegatorBlockTxIndex delegator eventBlockTxIndex
    delegatorMethod := Function.update s.delegatorMethod delegator eventName }

/-- `_mirrorDelegateImpl`: an event after the current election is refused. -/
def mirrorDelegateImpl (delegator agent : Address) (eventBlockNumber : UInt64) (eventBlockTxIndex : UInt32)
    (eventName : String) : Option State := do
  if ← s.isMirrorDelegationDataAfterElection eth eventBlockNumber then none
  else s.mirrorDelegationData delegator agent eventBlockNumber eventBlockTxIndex eventName

/-- `mirrorDelegation`: refused once processing has started. -/
def mirrorDelegation (ctx : Context) (hexEncodedEthTxHash : String) : Option State := do
  let s ← s.initCurrentElection ctx
  if s.hasProcessingStarted = 1 then none
  else do
    let e ← eth.delegateLog hexEncodedEthTxHash
    s.mirrorDelegateImpl eth e.delegator e.agent e.blockNumber e.blockTxIndex DELEGATION_NAME

/-- `mirrorDelegationByTransfer`: refused once processing has started, and for any value but
`DELEGATION_BY_TRANSFER_VALUE`. -/
def mirrorDelegationByTransfer (ctx : Context) (hexEncodedEthTxHash : String) : Option State := do
  let s ← s.initCurrentElection ctx
  if s.hasProcessingStarted = 1 then none
  else do
    let e ← eth.transferLog hexEncodedEthTxHash
    if DELEGATION_BY_TRANSFER_VALUE ≠ e.value then none
    else s.mirrorDelegateImpl eth e.delegator e.agent e.blockNumber e.blockTxIndex DELEGATION_BY_TRANSFER_NAME

end State

end OrbsNetwork.Elections
