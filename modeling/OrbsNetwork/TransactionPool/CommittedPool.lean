import OrbsNetwork.TransactionPool.Types
import Mathlib.Logic.Function.Basic

namespace OrbsNetwork.TransactionPool

/-- `committedTransaction`. -/
structure CommittedTransaction where
  receipt : TransactionReceipt
  blockHeight : Nat
  blockTimestamp : UInt64
  deriving DecidableEq, Repr

/-- `committedTxPool` without its lock and metrics, keyed by the receipts' transaction hashes. -/
structure CommittedTxPool where
  transactions : Bytes → Option CommittedTransaction
  transactionPoolFutureTimestampGraceTimeout : UInt64

/-- `NewCommittedPool` with the grace its configuration reports. -/
def newCommittedPool (transactionPoolFutureTimestampGraceTimeout : UInt64) : CommittedTxPool :=
  ⟨fun _ => none, transactionPoolFutureTimestampGraceTimeout⟩

namespace CommittedTxPool

/-- `add`: a receipt of the same hash is overwritten. -/
def add (p : CommittedTxPool) (receipt : TransactionReceipt) (blockHeight : Nat) (blockTs : UInt64) :
    CommittedTxPool :=
  { p with transactions := Function.update p.transactions receipt.txhash (some ⟨receipt, blockHeight, blockTs⟩) }

def get (p : CommittedTxPool) (txHash : Bytes) : Option CommittedTransaction :=
  p.transactions txHash

def has (p : CommittedTxPool) (txHash : Bytes) : Bool :=
  (p.transactions txHash).isSome

/-- The test of `clearTransactionsOlderThan`, on the `uint64` sum of the block timestamp and the grace. -/
def expired (p : CommittedTxPool) (timestamp : UInt64) (tx : CommittedTransaction) : Bool :=
  tx.blockTimestamp + p.transactionPoolFutureTimestampGraceTimeout < timestamp

/-- `clearTransactionsOlderThan`: each entry is dropped when it is expired. The source deletes the
key of the entry's receipt, which is the key it is stored under. -/
def clearTransactionsOlderThan (p : CommittedTxPool) (timestamp : UInt64) : CommittedTxPool :=
  { p with transactions := fun txHash => (p.transactions txHash).filter fun tx => !p.expired timestamp tx }

end CommittedTxPool

end OrbsNetwork.TransactionPool
