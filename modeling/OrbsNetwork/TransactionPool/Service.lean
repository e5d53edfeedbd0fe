import OrbsNetwork.TransactionPool.PendingPool
import OrbsNetwork.TransactionPool.CommittedPool
import OrbsNetwork.TransactionPool.Validation
import OrbsNetwork.StateStorage.Service

namespace OrbsNetwork.TransactionPool

open StateStorage (BlockTracker newBlockTracker)

/-- The virtual machine's `TransactionSetPreOrder`: a status for each transaction, for a block at
a height and timestamp. The virtual machine of the repository returns one status per transaction
and no error. -/
abbrev TransactionSetPreOrder := List SignedTransaction → Nat → UInt64 → List TransactionStatus

/-- The transaction pool `Service` between calls, without its supervisors, forwarder, waiter,
handlers, metrics and locks. -/
structure Service where
  config : TransactionPoolConfig
  pendingPool : PendingTxPool
  committedPool : CommittedTxPool
  blockTracker : BlockTracker
  lastCommittedBlockHeight : Nat
  lastCommittedTimestamp : UInt64

/-- `NewTransactionPool`: nothing committed, the last committed timestamp 0 so that transactions are
refused until a block is. -/
def newTransactionPool (config : TransactionPoolConfig) : Service :=
  ⟨config, newPendingPool config.transactionPoolPendingPoolSizeInBytes,
    newCommittedPool config.transactionPoolFutureTimestampGraceTimeout,
    newBlockTracker 0 config.blockTrackerGraceDistance.toUInt16, 0, 0⟩

def Service.validationContext (s : Service) : ValidationContext :=
  createValidationContext s.config

/-- `protocol.ResultsBlockHeader`, the fields the pool reads. -/
structure ResultsBlockHeader where
  blockHeight : Nat
  timestamp : UInt64
  deriving DecidableEq, Repr

structure CommitTransactionReceiptsInput where
  resultsBlockHeader : ResultsBlockHeader
  transactionReceipts : List TransactionReceipt
  lastCommittedBlockHeight : Nat
  deriving DecidableEq, Repr

structure CommitTransactionReceiptsOutput where
  nextDesiredBlockHeight : Nat
  lastCommittedBlockHeight : Nat
  deriving DecidableEq, Repr

/-- `committer.commit`: each receipt enters the committed pool before its transaction leaves the
pending pool; the receipts of transactions this node was the gateway of are kept in order. -/
def commitReceipts (nodeAddress : Bytes) (blockHeight : Nat) (blockTime : UInt64) :
    CommittedTxPool → PendingTxPool → List TransactionReceipt → CommittedTxPool × PendingTxPool × List TransactionReceipt
  | committed, pending, [] => (committed, pending, [])
  | committed, pending, receipt :: receipts =>
    let committed := committed.add receipt blockHeight blockTime
    let (pending, removedTxGateway) := pending.remove receipt.txhash
    let (committed, pending, myReceipts) := commitReceipts nodeAddress blockHeight blockTime committed pending receipts
    (committed, pending, if removedTxGateway = some nodeAddress then receipt :: myReceipts else myReceipts)

/-- `CommitTransactionReceipts`, with the receipts to hand to the results handlers. A block that is
not the next one leaves the pool as it is; `none` is the block tracker's panic on a results block
height that is not the next one. -/
def Service.commitTransactionReceipts (s : Service) (input : CommitTransactionReceiptsInput) :
    Option (Service × CommitTransactionReceiptsOutput × List TransactionReceipt) :=
  let bh := s.lastCommittedBlockHeight
  if input.lastCommittedBlockHeight ≠ bh + 1 then some (s, ⟨bh + 1, bh⟩, [])
  else
    let newBh := input.resultsBlockHeader.blockHeight
    let ts := input.resultsBlockHeader.timestamp
    let (committedPool, pendingPool, myReceipts) :=
      commitReceipts s.config.nodeAddress newBh ts s.committedPool s.pendingPool input.transactionReceipts
    (s.blockTracker.incrementTo newBh).map fun blockTracker =>
      ({ s with
          lastCommittedBlockHeight := newBh
          lastCommittedTimestamp := ts
          committedPool := committedPool
          pendingPool := pendingPool
          blockTracker := blockTracker }, ⟨newBh + 1, newBh⟩, myReceipts)

/-- The timestamp both cleaners pass: the last committed block's, less the expiration window, as
a `uint64`. -/
def Service.cleaningThreshold (s : Service) : UInt64 :=
  s.lastCommittedTimestamp - s.config.transactionExpirationWindow

/-- A tick of the committed pool's cleaner. -/
def Service.clearCommittedPool (s : Service) : Service :=
  { s with committedPool := s.committedPool.clearTransactionsOlderThan s.cleaningThreshold }

structure ValidateTransactionsForOrderingInput where
  currentBlockHeight : Nat
  currentBlockTimestamp : UInt64
  signedTransactions : List SignedTransaction
  deriving DecidableEq, Repr

/-- The errors of `ValidateTransactionsForOrdering`, each with what its message reports. -/
inductive OrderingError
  /-- The error of `WaitForBlock`. -/
  | blockTracker (message : String)
  /-- "transaction with hash %s already committed" -/
  | alreadyCommitted (txHash : Bytes)
  /-- "transaction with hash %s is invalid", wrapping the rejection. -/
  | invalid (txHash : Bytes) (err : ErrTransactionRejected)
  /-- "transaction with hash %s failed pre-order checks with status %s" -/
  | failedPreOrder (txHash : Bytes) (status : TransactionStatus)
  deriving DecidableEq, Repr

structure AddNewTransactionOutput where
  transactionReceipt : Option TransactionReceipt
  transactionStatus : TransactionStatus
  blockHeight : Nat
  blockTimestamp : UInt64
  deriving DecidableEq, Repr

/-- The errors of `AddNewTransaction`. -/
inductive AddNewTransactionError
  | rejected (err : ErrTransactionRejected)
  /-- The virtual machine answered with a number of statuses other than one. -/
  | preOrderResults (message : String)
  deriving DecidableEq, Repr

section Hash

-- `digest.CalcTxHash`
variable (calcTxHash : Transaction → Bytes)

/-- The loop of `ValidateTransactionsForOrdering`: each transaction must be neither committed nor
invalid for the proposed timestamp. -/
def checkTransactionsForOrdering (committedPool : CommittedTxPool) (validationContext : ValidationContext)
    (proposedBlockTimestamp : UInt64) : List SignedTransaction → Except OrderingError Unit
  | [] => .ok ()
  | tx :: txs =>
    let txHash := calcTxHash tx.transaction
    if committedPool.has txHash then .error (.alreadyCommitted txHash)
    else
      match validationContext.validateTransactionForOrdering tx proposedBlockTimestamp with
      | some err => .error (.invalid txHash err)
      | none => checkTransactionsForOrdering committedPool validationContext proposedBlockTimestamp txs

/-- The first transaction whose pre-order status is not `PRE_ORDER_VALID`. -/
def checkPreOrderResults : List SignedTransaction → List TransactionStatus → Except OrderingError Unit
  | tx :: txs, status :: statuses =>
    if status ≠ .preOrderValid then .error (.failedPreOrder (calcTxHash tx.transaction) status)
    else checkPreOrderResults txs statuses
  | _, _ => .ok ()

/-- `CurrentBlockHeight - 1` in uint64: below height 1 it wraps to `2^64 - 1`. -/
def previousBlockHeight (currentBlockHeight : Nat) : Nat :=
  (2 ^ 64 - 1 + currentBlockHeight) % 2 ^ 64

/-- `ValidateTransactionsForOrdering` in a run where the block tracker is not waited on: the
statuses are looked at only when there is one for each transaction. -/
def Service.validateTransactionsForOrdering (s : Service) (transactionSetPreOrder : TransactionSetPreOrder)
    (input : ValidateTransactionsForOrderingInput) : Except OrderingError Unit :=
  match s.blockTracker.waitForBlock (previousBlockHeight input.currentBlockHeight) with
  | .error message => .error (.blockTracker message)
  | .ok () => do
    checkTransactionsForOrdering calcTxHash s.committedPool s.validationContext input.currentBlockTimestamp
      input.signedTransactions
    let preOrderResults :=
      transactionSetPreOrder input.signedTransactions input.currentBlockHeight input.currentBlockTimestamp
    if preOrderResults.length = input.signedTransactions.length then
      checkPreOrderResults calcTxHash input.signedTransactions preOrderResults

/-- A tick of the pending pool's cleaner. -/
def Service.clearPendingPool (s : Service) : Service :=
  { s with pendingPool := s.pendingPool.clearTransactionsOlderThan calcTxHash s.cleaningThreshold }

/-- `AddNewTransaction` with the clock at `now` for both of its readings; the forwarding of an
added transaction to the other nodes is left out. -/
def Service.addNewTransaction (s : Service) (transactionSetPreOrder : TransactionSetPreOrder) (now : UInt64)
    (signedTransaction : SignedTransaction) : Service × AddNewTransactionOutput × Option AddNewTransactionError :=
  let txHash := calcTxHash signedTransaction.transaction
  let outputFor (receipt : Option TransactionReceipt) (status : TransactionStatus) : AddNewTransactionOutput :=
    ⟨receipt, status, s.lastCommittedBlockHeight, s.lastCommittedTimestamp⟩
  match s.validationContext.validateAddedTransaction signedTransaction now s.lastCommittedTimestamp with
  | some err => (s, outputFor none err.transactionStatus, some (.rejected err))
  | none =>
    -- validateSingleTransactionForPreOrder, at the estimated next height
    match transactionSetPreOrder [signedTransaction] (s.lastCommittedBlockHeight + 1) now with
    | [status] =>
      if status ≠ .preOrderValid then (s, outputFor none status, some (.rejected (.ofStatus status)))
      else
        -- addToPendingPoolAfterCheckingCommitted
        match s.committedPool.get txHash with
        | some alreadyCommitted =>
          (s, outputFor (some alreadyCommitted.receipt) .duplicateTransactionAlreadyCommitted, none)
        | none =>
          let (pendingPool, added) := s.pendingPool.add calcTxHash signedTransaction s.config.nodeAddress
          let s := { s with pendingPool := pendingPool }
          match added with
          | .error err => (s, outputFor none err.transactionStatus, some (.rejected err))
          | .ok _ => (s, outputFor none .pending, none)
    | _ => (s, outputFor none .rejectedSmartContractPreOrder,
        some (.preOrderResults "expected exactly one result from pre-order check"))

/-- `filterInvalidTransactions`: the rejected hashes with their statuses, and the transactions left
for the pre-order check. -/
def filterInvalidTransactions (validationContext : ValidationContext) (committedPool : CommittedTxPool)
    (proposedBlockTimestamp : UInt64) :
    List SignedTransaction → List (Bytes × TransactionStatus) × List SignedTransaction
  | [] => ([], [])
  | tx :: txs =>
    let txHash := calcTxHash tx.transaction
    let (rejected, forPreOrder) := filterInvalidTransactions validationContext committedPool proposedBlockTimestamp txs
    match validationContext.validateTransactionForOrdering tx proposedBlockTimestamp with
    | some err => ((txHash, err.transactionStatus) :: rejected, forPreOrder)
    | none =>
      if committedPool.has txHash then ((txHash, .duplicateTransactionAlreadyCommitted) :: rejected, forPreOrder)
      else (rejected, tx :: forPreOrder)

/-- The loop of `runPreOrderValidations`: the accepted transactions and the rejected ones. -/
def splitByPreOrder : List SignedTransaction → List TransactionStatus →
    List SignedTransaction × List (Bytes × TransactionStatus)
  | tx :: txs, status :: statuses =>
    let (valid, rejected) := splitByPreOrder txs statuses
    if status = .preOrderValid then (tx :: valid, rejected)
    else (valid, (calcTxHash tx.transaction, status) :: rejected)
  | _, _ => ([], [])

structure GetTransactionsForOrderingInput where
  currentBlockHeight : Nat
  prevBlockTimestamp : UInt64
  maxNumberOfTransactions : UInt32
  maxTransactionsSetSizeKb : UInt32
  deriving DecidableEq, Repr

structure GetTransactionsForOrderingOutput where
  signedTransactions : List SignedTransaction
  proposedBlockTimestamp : UInt64
  deriving DecidableEq, Repr

/-- `digest.CalcNewBlockTimestamp`. -/
def calcNewBlockTimestamp (prevBlockTimestamp now : UInt64) : UInt64 :=
  if now > prevBlockTimestamp then now else prevBlockTimestamp + 1

/-- `GetTransactionsForOrdering` as the batch it returns, with the clock at `now`: its waiting for
more transactions is its last run. The rejected transactions leave the pending pool; `none` is the
panic on a number of pre-order statuses that is not one per transaction. -/
def Service.getTransactionsForOrdering (s : Service) (transactionSetPreOrder : TransactionSetPreOrder) (now : UInt64)
    (input : GetTransactionsForOrderingInput) : Option (Service × Except String GetTransactionsForOrderingOutput) :=
  if input.currentBlockHeight = 1 then
    some (s, .ok ⟨[], calcNewBlockTimestamp input.prevBlockTimestamp now⟩)
  else
    match s.blockTracker.waitForBlock (previousBlockHeight input.currentBlockHeight) with
    | .error message => some (s, .error message)
    | .ok () =>
      let proposedBlockTimestamp := calcNewBlockTimestamp input.prevBlockTimestamp now
      let incomingTransactions :=
        s.pendingPool.getBatch input.maxNumberOfTransactions (input.maxTransactionsSetSizeKb * 1024)
      let (invalid, transactionsForPreOrder) := filterInvalidTransactions calcTxHash s.validationContext
        s.committedPool proposedBlockTimestamp incomingTransactions
      let preOrderResults := transactionSetPreOrder transactionsForPreOrder input.currentBlockHeight proposedBlockTimestamp
      if preOrderResults.length ≠ transactionsForPreOrder.length then none
      else
        let (validTransactions, failed) := splitByPreOrder calcTxHash transactionsForPreOrder preOrderResults
        let pendingPool := (invalid ++ failed).foldl (fun pool rejected => (pool.remove rejected.1).1) s.pendingPool
        some ({ s with pendingPool := pendingPool }, .ok ⟨validTransactions, proposedBlockTimestamp⟩)

end Hash

end OrbsNetwork.TransactionPool
