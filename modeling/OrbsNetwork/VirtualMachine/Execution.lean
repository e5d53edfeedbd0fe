import OrbsNetwork.VirtualMachine.TransientState
import OrbsNetwork.StateStorage.Service

namespace OrbsNetwork.VirtualMachine

open StateStorage

/-- `protocol.ExecutionResult`. -/
inductive ExecutionResult
  | reserved
  | success
  | errorSmartContract
  | errorInput
  | errorContractNotDeployed
  | errorUnexpected
  deriving DecidableEq, Repr

/-- A call of a contract to the state SDK, made while `service` is at the top of the service
stack. -/
inductive StateCall
  | read (service : ContractName) (key : Bytes)
  | write (service : ContractName) (key value : Bytes)
  deriving DecidableEq, Repr

/-- What the virtual machine sees of one transaction: the state calls of the contracts it runs,
those of the deployment lookup included, in order, and the `CallResult` it ends with. -/
structure MethodRun where
  stateCalls : List StateCall
  callResult : ExecutionResult
  deriving DecidableEq, Repr

-- the state at the last committed height, as `ReadKeys` of state storage returns it
variable (committed : ContractName → Bytes → Bytes)

/-- `handleSdkStateRead`: the transaction's transient state first, then the batch's, then state
storage, whose value the transaction's transient state keeps, clean. -/
def handleSdkStateRead (batchTransientState transientState : TransientState) (service : ContractName) (key : Bytes) :
    Bytes × TransientState :=
  match transientState.getValue service key with
  | some value => (value, transientState)
  | none =>
    match batchTransientState.getValue service key with
    | some value => (value, transientState)
    | none =>
      let value := committed service key
      (value, transientState.setValue service key value false)

/-- `handleSdkStateWrite`, with the write access every transaction of a set has. -/
def handleSdkStateWrite (transientState : TransientState) (service : ContractName) (key value : Bytes) :
    TransientState :=
  transientState.setValue service key value true

/-- The state calls of one transaction in turn: the values its reads return, and its transient
state after them. -/
def runStateCalls (batchTransientState : TransientState) :
    List StateCall → TransientState → List Bytes × TransientState
  | [], transientState => ([], transientState)
  | .read service key :: calls, transientState =>
    let (value, transientState) := handleSdkStateRead committed batchTransientState transientState service key
    let (values, transientState) := runStateCalls batchTransientState calls transientState
    (value :: values, transientState)
  | .write service key value :: calls, transientState =>
    runStateCalls batchTransientState calls (handleSdkStateWrite transientState service key value)

/-- `runMethod` in a transaction set: the transaction on a new transient state, merged into the
batch's when the call succeeds. -/
def runMethod (batchTransientState : TransientState) (run : MethodRun) :
    ExecutionResult × List Bytes × TransientState :=
  let (values, transientState) := runStateCalls committed batchTransientState run.stateCalls newTransientState
  (run.callResult, values,
    if run.callResult = .success then transientState.mergeIntoTransientState batchTransientState
    else batchTransientState)

/-- The loop of `processTransactionSet`: for each transaction, its result and the values its reads
returned. -/
def runTransactions : TransientState → List MethodRun → List (ExecutionResult × List Bytes) × TransientState
  | batchTransientState, [] => ([], batchTransientState)
  | batchTransientState, run :: runs =>
    let (callResult, values, batchTransientState) := runMethod committed batchTransientState run
    let (receipts, batchTransientState) := runTransactions batchTransientState runs
    ((callResult, values) :: receipts, batchTransientState)

/-- `encodeBatchTransientStateToStateDiffs`: the dirty pairs of each contract, contracts in
`contractSortOrder`, those with none left out. -/
def encodeBatchTransientStateToStateDiffs (batchTransientState : TransientState) : List ContractStateDiff :=
  batchTransientState.contracts.keys.filterMap fun contractName =>
    let stateDiffs := (batchTransientState.forDirty contractName).map fun (key, value) => StateRecord.mk key value
    if stateDiffs.length > 0 then some ⟨contractName, stateDiffs⟩ else none

/-- `processTransactionSet`: the transactions against one batch transient state, and its state
diffs. -/
def processTransactionSet (runs : List MethodRun) : List (ExecutionResult × List Bytes) × List ContractStateDiff :=
  let (receipts, batchTransientState) := runTransactions committed newTransientState runs
  (receipts, encodeBatchTransientStateToStateDiffs batchTransientState)

theorem runStateCalls_read (batchTransientState transientState : TransientState) (service : ContractName)
    (key : Bytes) (calls : List StateCall) :
    runStateCalls committed batchTransientState (.read service key :: calls) transientState =
      ((handleSdkStateRead committed batchTransientState transientState service key).1 ::
          (runStateCalls committed batchTransientState calls
            (handleSdkStateRead committed batchTransientState transientState service key).2).1,
        (runStateCalls committed batchTransientState calls
          (handleSdkStateRead committed batchTransientState transientState service key).2).2) := rfl

theorem runStateCalls_write (batchTransientState transientState : TransientState) (service : ContractName)
    (key value : Bytes) (calls : List StateCall) :
    runStateCalls committed batchTransientState (.write service key value :: calls) transientState =
      runStateCalls committed batchTransientState calls (handleSdkStateWrite transientState service key value) := rfl

theorem runMethod_eq (batchTransientState : TransientState) (run : MethodRun) :
    runMethod committed batchTransientState run =
      (run.callResult, (runStateCalls committed batchTransientState run.stateCalls newTransientState).1,
        if run.callResult = .success then
          (runStateCalls committed batchTransientState run.stateCalls newTransientState).2.mergeIntoTransientState
            batchTransientState
        else batchTransientState) := rfl

theorem runTransactions_cons (batchTransientState : TransientState) (run : MethodRun) (runs : List MethodRun) :
    runTransactions committed batchTransientState (run :: runs) =
      (((runMethod committed batchTransientState run).1, (runMethod committed batchTransientState run).2.1) ::
          (runTransactions committed (runMethod committed batchTransientState run).2.2 runs).1,
        (runTransactions committed (runMethod committed batchTransientState run).2.2 runs).2) :=
  rfl

end OrbsNetwork.VirtualMachine
