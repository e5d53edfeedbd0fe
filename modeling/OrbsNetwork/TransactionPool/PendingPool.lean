import OrbsNetwork.Library.LinkedList
import OrbsNetwork.TransactionPool.Types

namespace OrbsNetwork.TransactionPool

/-- `pendingTransaction`, without the time it was added, which only feeds metrics. -/
structure PendingTransaction where
  gatewayNodeAddress : Bytes
  transaction : SignedTransaction
  listElement : Nat
  deriving DecidableEq, Repr

/-- `pendingTxPool` between calls, without its lock, metrics and listeners. The map is keyed by
the transaction hash; the list holds the transactions newest first. -/
structure PendingTxPool where
  currentSizeInBytes : UInt32
  transactionsByHash : Bytes → Option PendingTransaction
  transactionList : LinkedList SignedTransaction
  pendingPoolSizeInBytes : UInt32

/-- `NewPendingPool` with the size limit its configuration reports. -/
def newPendingPool (pendingPoolSizeInBytes : UInt32) : PendingTxPool :=
  ⟨0, fun _ => none, LinkedList.empty, pendingPoolSizeInBytes⟩

def sizeOfSignedTransaction (transaction : SignedTransaction) : UInt32 :=
  UInt32.ofNat transaction.raw.length

section Hash

-- `digest.CalcTxHash`, the hash of a transaction's message
variable (calcTxHash : Transaction → Bytes)

/-- `add`: the congestion check on the size counter, where the sum wraps, then the duplicate check. -/
def PendingTxPool.add (p : PendingTxPool) (transaction : SignedTransaction) (gatewayNodeAddress : Bytes) :
    PendingTxPool × Except ErrTransactionRejected Bytes :=
  let size := sizeOfSignedTransaction transaction
  if p.currentSizeInBytes + size > p.pendingPoolSizeInBytes then
    (p, .error (.ofStatus .rejectedCongestion))
  else
    let key := calcTxHash transaction.transaction
    if (p.transactionsByHash key).isSome then (p, .error (.ofStatus .duplicateTransactionAlreadyPending))
    else
      let (transactionList, listElement) := p.transactionList.pushFront transaction
      ({ p with
          currentSizeInBytes := p.currentSizeInBytes + size
          transactionsByHash := Function.update p.transactionsByHash key (some ⟨gatewayNodeAddress, transaction, listElement⟩)
          transactionList := transactionList }, .ok key)

def PendingTxPool.has (p : PendingTxPool) (transaction : SignedTransaction) : Bool :=
  (p.transactionsByHash (calcTxHash transaction.transaction)).isSome

end Hash

/-- `remove`, and the gateway of the removed transaction. The reason only goes to the removal
listener. -/
def PendingTxPool.remove (p : PendingTxPool) (txHash : Bytes) : PendingTxPool × Option Bytes :=
  match p.transactionsByHash txHash with
  | some pendingTx =>
    ({ p with
        transactionsByHash := Function.update p.transactionsByHash txHash none
        currentSizeInBytes := p.currentSizeInBytes - sizeOfSignedTransaction pendingTx.transaction
        transactionList := p.transactionList.remove pendingTx.listElement }, some pendingTx.gatewayNodeAddress)
  | none => (p, none)

/-- The loop of `getBatch` over the list from its back, with the batch so far and its size. -/
def getBatchLoop (maxNumOfTransactions sizeLimitInBytes : UInt32) :
    UInt32 → List SignedTransaction → List (Nat × SignedTransaction) → List SignedTransaction
  | _, txs, [] => txs
  | sizeInBytes, txs, (_, tx) :: older =>
    if UInt32.ofNat txs.length ≥ maxNumOfTransactions then txs
    else
      let txSize := sizeOfSignedTransaction tx
      if sizeLimitInBytes > 0 ∧ sizeInBytes + txSize > sizeLimitInBytes then txs
      else getBatchLoop maxNumOfTransactions sizeLimitInBytes (sizeInBytes + txSize) (txs ++ [tx]) older

/-- `getBatch`: the oldest transactions, while they stay within the count and, with a positive
limit, the size. -/
def PendingTxPool.getBatch (p : PendingTxPool) (maxNumOfTransactions sizeLimitInBytes : UInt32) :
    List SignedTransaction :=
  getBatchLoop maxNumOfTransactions sizeLimitInBytes 0 [] p.transactionList.elements.reverse

def PendingTxPool.get (p : PendingTxPool) (txHash : Bytes) : Option SignedTransaction :=
  (p.transactionsByHash txHash).map PendingTransaction.transaction

section Hash

variable (calcTxHash : Transaction → Bytes)

/-- The loop of `clearTransactionsOlderThan` from element `e` towards the front, for at most
`fuel` elements. After removing `e` its `Prev` is nil, so the walk stops there. -/
def PendingTxPool.clearFrom (timestamp : UInt64) :
    Nat → PendingTxPool → Option (Nat × SignedTransaction) → PendingTxPool
  | 0, p, _ => p
  | _ + 1, p, none => p
  | fuel + 1, p, some (e, tx) =>
    let p := if tx.transaction.timestamp < timestamp then (p.remove (calcTxHash tx.transaction)).1 else p
    PendingTxPool.clearFrom timestamp fuel p (p.transactionList.prev e)

/-- `clearTransactionsOlderThan`, walking the list from its back; every element is visited at most
once, so its length bounds the walk. -/
def PendingTxPool.clearTransactionsOlderThan (p : PendingTxPool) (timestamp : UInt64) : PendingTxPool :=
  p.clearFrom calcTxHash timestamp p.transactionList.elements.length p.transactionList.back

end Hash

end OrbsNetwork.TransactionPool
