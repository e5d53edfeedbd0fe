import OrbsNetwork.Elections.State
import OrbsNetwork.Library.CheckedArith

namespace OrbsNetwork.Elections

open CheckedArith

/-- What a call reads of the chains it runs beside: the current Ethereum block, by time and by
number (`ethereum.GetBlockTime`, `ethereum.GetBlockNumber`), and the Orbs block height
(`env.GetBlockHeight`). -/
structure Context where
  blockTime : UInt64
  blockNumber : UInt64
  blockHeight : UInt64

/-- A delegation event of an Ethereum transaction, as `ethereum.GetTransactionLog` decodes it:
`Delegator` (or `From`) and `To`, the transferred `Value` of a `Transfer`, and the block number
and transaction index of the transaction. -/
structure DelegationLog where
  delegator : Address
  agent : Address
  value : Nat
  blockNumber : UInt64
  blockTxIndex : UInt32

/-- The Ethereum side, as fixed functions: the block lookups, the contracts the elections read at
a block, and the events of a transaction by its hash, `none` where the SDK panics. Token amounts
are whole numbers. -/
structure Ethereum where
  getBlockNumberByTime : UInt64 → UInt64
  getBlockTimeByNumber : UInt64 → UInt64
  -- `getValidatorsBytes20` of the validators contract
  validators : UInt64 → List Address
  -- the list of the guardians contract, which `getGuardiansBytes20` returns page by page
  guardians : UInt64 → List Address
  -- `getOrbsAddress` of the validators registry
  orbsAddress : UInt64 → Address → Address
  -- `getCurrentVoteBytes20` of the voting contract: the candidates and the block of the vote
  currentVote : UInt64 → Address → List Address × Nat
  -- `balanceOf` of the token and `getStakeBalanceOf` of the staking contract
  balanceOf : UInt64 → Address → Nat
  stakeBalanceOf : UInt64 → Address → Nat
  -- the `Delegate` and the `Transfer` log of a transaction
  delegateLog : String → Option DelegationLog
  transferLog : String → Option DelegationLog

namespace State

variable (s : State)

def getEffectiveElectionTimeInNanos : UInt64 := s.electionTimeInNanos s.numberOfElections

def getEffectiveElectionBlockNumber : UInt64 := s.electionBlockNumber s.numberOfElections

/-- `getElectionPeriod`, which panics in time-based elections. -/
def getElectionPeriod : Option UInt64 :=
  if s.timeBased then none else some ELECTION_PERIOD_LENGTH_IN_BLOCKS

def getCurrentElectionTimeInNanos : Option UInt64 :=
  add s.getEffectiveElectionTimeInNanos ELECTION_PERIOD_LENGTH_IN_NANOS

/-- `getCurrentElectionBlockNumber`, which panics in time-based elections. -/
def getCurrentElectionBlockNumber : Option UInt64 :=
  if s.timeBased then none else do add s.getEffectiveElectionBlockNumber (← s.getElectionPeriod)

/-- `getProcessingStartBlockNumber`, which panics in time-based elections. -/
def getProcessingStartBlockNumber : Option UInt64 :=
  if s.timeBased then none else do add (← s.getCurrentElectionBlockNumber) VOTE_MIRROR_PERIOD_LENGTH_IN_BLOCKS

def isProcessingPeriodBlockBased (ctx : Context) : Option UInt32 := do
  let processStartBlockNumber ← s.getProcessingStartBlockNumber
  pure (if ctx.blockNumber ≥ processStartBlockNumber then 1 else 0)

/-- `isProcessingPeriod`: once processing has started, and otherwise once the mirror period
after the current election is over. -/
def isProcessingPeriod (ctx : Context) : Option UInt32 :=
  if s.hasProcessingStarted = 1 then some 1
  else if s.timeBased then do
    let mirrorEnd ← add (← s.getCurrentElectionTimeInNanos) MIRROR_PERIOD_LENGTH_IN_NANOS
    pure (if ctx.blockTime > mirrorEnd then 1 else 0)
  else s.isProcessingPeriodBlockBased ctx

def setElectedValidatorsTimeInNanosAtIndex (index : UInt32) (timestamp : UInt64) : State :=
  { s with electionTimeInNanos := Function.update s.electionTimeInNanos index timestamp }

def setElectedValidatorsBlockNumberAtIndex (index : UInt32) (blockNumber : UInt64) : State :=
  { s with electionBlockNumber := Function.update s.electionBlockNumber index blockNumber }

/-- The block of the election before the next one after `currBlock`, on the schedule of
`period` blocks that starts at `FIRST_ELECTION_BLOCK`, as `_initCurrentElectionBlockNumber`
computes it. -/
def electionBlockBefore (period currBlock : UInt64) : Option UInt64 := do
  let nextElectionBlock ← if currBlock > FIRST_ELECTION_BLOCK then do
      let blocksSinceFirstEver ← sub currBlock FIRST_ELECTION_BLOCK
      let blocksSinceStartOfAnElection ← mod blocksSinceFirstEver period
      let blocksUntilNextElection ← sub period blocksSinceStartOfAnElection
      add currBlock blocksUntilNextElection
    else pure FIRST_ELECTION_BLOCK
  sub nextElectionBlock period

/-- `_initCurrentElectionBlockNumber`: with no election yet, the block of the one before the next
election on the schedule. -/
def initCurrentElectionBlockNumber (ctx : Context) : Option State :=
  if s.getEffectiveElectionBlockNumber = 0 then
    (do electionBlockBefore (← s.getElectionPeriod) ctx.blockNumber).map (s.setElectedValidatorsBlockNumberAtIndex 0)
  else some s

/-- The time of the last election up to `currTime`, on the schedule that starts at
`FIRST_ELECTION_TIME_IN_NANOS`, as `_initCurrentElection` computes it. -/
def effectiveElectionTimeAt (currTime : UInt64) : Option UInt64 := do
  let beforeFirst ← sub FIRST_ELECTION_TIME_IN_NANOS ELECTION_PERIOD_LENGTH_IN_NANOS
  if currTime > FIRST_ELECTION_TIME_IN_NANOS then do
    let timeSinceFirstEver ← sub currTime FIRST_ELECTION_TIME_IN_NANOS
    let numberOfFullElections ← div timeSinceFirstEver ELECTION_PERIOD_LENGTH_IN_NANOS
    add FIRST_ELECTION_TIME_IN_NANOS (← mul numberOfFullElections ELECTION_PERIOD_LENGTH_IN_NANOS)
  else pure beforeFirst

/-- `_initCurrentElection`: with no election yet, the time (or block) of the last election on the
schedule, as if it had happened. -/
def initCurrentElection (ctx : Context) : Option State :=
  if s.timeBased then
    if s.getEffectiveElectionTimeInNanos = 0 then
      (effectiveElectionTimeAt ctx.blockTime).map (s.setElectedValidatorsTimeInNanosAtIndex 0)
    else some s
  else s.initCurrentElectionBlockNumber ctx

/-- `_setProcessCurrentElection`. -/
def setProcessCurrentElection (electionTime electionBlockNumber earliestValidVoteBlockNumber : UInt64) : State :=
  { s with
    processCurrentElectionBlockNumber := electionBlockNumber
    processCurrentElectionEarliestValidVoteBlockNumber := earliestValidVoteBlockNumber
    processCurrentElectionTime := electionTime }

/-- `_calculateProcessCurrentElectionValues`: before processing starts, the block and time of the
election and the earliest block of a valid vote. The additions and the subtraction of the time
based branch are Go's, which wrap. -/
def calculateProcessCurrentElectionValues (eth : Ethereum) : Option State :=
  if s.hasProcessingStarted = 0 then do
    let (electionBlockTime, electionBlockNumber, earliestValidVoteBlockNumber) ←
      if s.timeBased then do
        let electionBlockTime ← s.getCurrentElectionTimeInNanos
        let electionBlockNumber := eth.getBlockNumberByTime electionBlockTime + 1
        let earliestValidVoteBlockNumber :=
          eth.getBlockNumberByTime ((← s.getCurrentElectionTimeInNanos) - VOTE_PERIOD_LENGTH_IN_NANOS) + 1
        pure (electionBlockTime, electionBlockNumber, earliestValidVoteBlockNumber)
      else do
        let electionBlockNumber ← s.getCurrentElectionBlockNumber
        let electionBlockTime := eth.getBlockTimeByNumber electionBlockNumber
        let earliestValidVoteBlockNumber ← sub electionBlockNumber (VOTE_VALID_PERIOD_LENGTH_IN_BLOCKS - 1)
        pure (electionBlockTime, electionBlockNumber, earliestValidVoteBlockNumber)
    pure (s.setProcessCurrentElection electionBlockTime electionBlockNumber earliestValidVoteBlockNumber)
  else some s

/-- `_translateElectedAddressesToOrbsAddressesAndConcat`. -/
def translateElectedAddressesToOrbsAddressesAndConcat (elected : List Address) : Bytes :=
  candidatesBytes (elected.map s.validatorOrbsAddress)

/-- `_setElectedValidators`: the results under the next election index, refused when the last
election's block is later than this one's. -/
def setElectedValidators (ctx : Context) (elected : List Address) (electionTime electionBlockNumber : UInt64) :
    Option State :=
  let index := s.numberOfElections
  if s.electionBlockNumber index > electionBlockNumber then none
  else
    let index := index + 1
    some { s with
      electionTimeInNanos := Function.update s.electionTimeInNanos index electionTime
      electionBlockNumber := Function.update s.electionBlockNumber index electionBlockNumber
      electionBlockHeight := Function.update s.electionBlockHeight index (ctx.blockHeight + TRANSITION_PERIOD_LENGTH_IN_BLOCKS)
      electionValidatorsOrbs :=
        Function.update s.electionValidatorsOrbs index (s.translateElectedAddressesToOrbsAddressesAndConcat elected)
      electionValidatorsEth := Function.update s.electionValidatorsEth index (candidatesBytes elected)
      numberOfElections := index }

end State

end OrbsNetwork.Elections
