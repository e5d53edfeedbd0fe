import OrbsNetwork.BlockStorage.Commit
import OrbsNetwork.TransactionPool.Service

/-! `servicesync` hands every block pair block storage commits to a service that keeps state of
its own, the transaction pool or state storage. -/

namespace OrbsNetwork.BlockStorage

/-- `BlockPairCommitter.commitBlockPair` of a service whose state is `σ`: the next height the
service asks for, or its error; `none` is a panic of the service. -/
abbrev BlockPairCommitter (σ : Type) := σ → BlockPairContainer → Option (σ × Except String UInt64)

section Sync

variable {σ : Type} (protocol : Protocol) (committer : BlockPairCommitter σ)

/-- `syncOneBlock`: the height the service asks for next; `none` when it fails, which panics. -/
def syncOneBlock (s : σ) (block : BlockPairContainer) : Option (σ × UInt64) :=
  match committer s block with
  | some (s, .ok requestedHeight) => some (s, requestedHeight)
  | _ => none

/-- The cursor `syncToTopBlock` scans with, over the service's state and `committedHeight`: it
offers the page's block pair and goes on while the service asks for the one after. `none` once a
commit panicked, or on an empty page, whose `page[0]` panics. -/
def syncCursor : Option (σ × UInt64) → Nat → List BlockPairContainer → Option (σ × UInt64) × Bool
  | some (s, _), h, block :: _ =>
    match syncOneBlock committer s block with
    | some (s, requestedHeight) => (some (s, h.toUInt64), requestedHeight == h.toUInt64 + 1)
    | none => (none, false)
  | _, _, _ => (none, false)

/-- `syncToTopBlock` over the in-memory persistence: the service's state and the height it
committed up to, or the scan's error; `none` is a panic, of the service or on an empty chain. -/
def syncToTopBlock (source : InMemoryBlockPersistence) (s : σ) : Option (σ × Except String UInt64) :=
  match source.getLastBlock with
  | none => none
  | some topBlock =>
    match syncOneBlock committer s topBlock with
    | none => none
    | some (s, requestedHeight) =>
      if (protocol.transactionsBlockHeight topBlock.transactionsBlock.header).toUInt64 < requestedHeight then
        some (s, .ok (requestedHeight - 1))
      else
        match source.scanBlocks requestedHeight.toNat 1 (syncCursor committer) (some (s, requestedHeight - 1)) with
        | some (some (s, committedHeight), .ok ()) => some (s, .ok committedHeight)
        | some (some (s, _), .error err) => some (s, .error err)
        | _ => none

end Sync

/-- `transactionPoolCommitter.commitBlockPair`: the results block's header and receipts, as the
transaction pool reads them. The receipts it hands to its results handlers are not kept. -/
def transactionPoolCommitter (protocol : Protocol) : BlockPairCommitter TransactionPool.Service :=
  fun s committedBlockPair =>
    let header := committedBlockPair.resultsBlock.header
    let input : TransactionPool.CommitTransactionReceiptsInput :=
      ⟨⟨protocol.resultsBlockHeight header, (protocol.resultsTimestamp header).toUInt64⟩,
        committedBlockPair.resultsBlock.transactionReceipts.map fun receipt => ⟨protocol.txhash receipt⟩,
        protocol.resultsBlockHeight header⟩
    (s.commitTransactionReceipts input).map fun result => (result.1, .ok result.2.1.nextDesiredBlockHeight.toUInt64)

/-- The service sync goroutine beside block storage: the stored chain, the service's state, and
the height the goroutine waits above, `none` once it stopped on a panic. -/
structure ServiceSyncNode (σ : Type) where
  persistence : InMemoryBlockPersistence
  service : σ
  waitingAbove : Option UInt64

/-- A step of block storage, or of the service sync goroutine. -/
inductive ServiceSyncEvent
  /-- block storage's `CommitBlock` -/
  | commitBlock (blockPair : BlockPairContainer)
  /-- `WaitForBlock` returns, or fails, and the goroutine runs on -/
  | wakeUp
  deriving DecidableEq, Repr

section Machine

variable {σ : Type} (protocol : Protocol) (versions : Versions) (committer : BlockPairCommitter σ)
  (graceDistance : UInt16)

/-- A step of the node. `WaitForBlock` returns once the chain has the block above the height, and
fails when that block is beyond the grace distance; a failure, or an error of `syncToTopBlock`,
ends the function, which `govnr.Forever` runs again from height 0. A panic stops the goroutine in
the model. -/
def ServiceSyncNode.step (node : ServiceSyncNode σ) : ServiceSyncEvent → ServiceSyncNode σ
  | .commitBlock blockPair =>
    match commitBlock protocol versions node.persistence blockPair with
    | some (persistence, _) => { node with persistence }
    | none => node
  | .wakeUp =>
    match node.waitingAbove with
    | none => node
    | some height =>
      let currentHeight := node.persistence.blocks.length
      let requestedHeight := (height + 1).toNat
      if requestedHeight ≤ currentHeight then
        match syncToTopBlock protocol committer node.persistence node.service with
        | some (service, .ok committedHeight) => { node with service, waitingAbove := some committedHeight }
        | some (service, .error _) => { node with service, waitingAbove := some 0 }
        | none => { node with waitingAbove := none }
      else if currentHeight + graceDistance.toNat < requestedHeight then { node with waitingAbove := some 0 }
      else node

/-- The nodes that steps lead to from `node`. -/
def ServiceSyncNode.Reaches (node : ServiceSyncNode σ) : ServiceSyncNode σ → Prop :=
  Relation.ReflTransGen (fun node node' => ∃ event, node.step protocol versions committer graceDistance event = node') node

/-- `NewServiceBlockSync`: the goroutine starts at height 0. -/
def newServiceBlockSync (persistence : InMemoryBlockPersistence) (service : σ) : ServiceSyncNode σ :=
  ⟨persistence, service, some 0⟩

end Machine

end OrbsNetwork.BlockStorage
