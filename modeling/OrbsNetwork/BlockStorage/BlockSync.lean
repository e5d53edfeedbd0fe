import OrbsNetwork.BlockStorage.Memory
import Mathlib.Data.List.Infix

namespace OrbsNetwork.BlockStorage

/-- `gossipmessages.BlockSyncRange`; the block type is the raw value of its enumeration, which the
source echoes back. -/
structure BlockSyncRange where
  blockType : Nat
  firstBlockHeight : UInt64
  lastBlockHeight : UInt64
  lastCommittedBlockHeight : UInt64
  deriving DecidableEq, Repr

structure BlockSyncRequestMessage where
  senderNodeAddress : Bytes
  signedChunkRange : BlockSyncRange
  deriving DecidableEq, Repr

structure BlockSyncResponseMessage where
  senderNodeAddress : Bytes
  signedChunkRange : BlockSyncRange
  blockPairs : List BlockPairContainer
  deriving DecidableEq, Repr

/-- `gossiptopics.BlockSyncResponseInput`. -/
structure BlockSyncResponseInput where
  recipientNodeAddress : Bytes
  message : BlockSyncResponseMessage
  deriving DecidableEq, Repr

/-- The settings the source reads. -/
structure BlockSyncConfig where
  nodeAddress : Bytes
  blockSyncNumBlocksInBatch : UInt32
  deriving DecidableEq, Repr

/-- `getBlockHeight`: the transactions block's height, 0 without a block. -/
def getBlockHeight (protocol : Protocol) : Option BlockPairContainer → UInt64
  | none => 0
  | some block => (protocol.transactionsBlockHeight block.transactionsBlock.header).toUInt64

/-- The runtime's `maxAlloc` on 64-bit platforms. -/
def maxAlloc : Nat := 2 ^ 48

/-- Whether `make([]*protocol.BlockPairContainer, 0, capacity)` returns: it panics with
"makeslice: cap out of range" when the capacity's 8-byte pointers exceed `maxAlloc`. -/
def makeSliceFits (capacity : UInt64) : Bool :=
  decide (8 * capacity.toNat ≤ maxAlloc)

/-- The cursor of `GetBlockSlice`: every page is appended, and more is wanted while the page starts
below `last`. Heights of stored blocks are below `2^64`, so the comparison is that of `Nat`. -/
def sliceCursor (last : UInt64) (blocks : List BlockPairContainer) (firstInPage : Nat)
    (page : List BlockPairContainer) : List BlockPairContainer × Bool :=
  (blocks ++ page, decide (firstInPage < last.toNat))

/-- `GetBlockSlice` over the in-memory persistence: the blocks, the first height and the last
height. `none` is the panic of `make`, whose capacity `last-first+1` is computed in `uint64`. -/
def getBlockSlice (bp : InMemoryBlockPersistence) (first last : UInt64) :
    Option (Except String (List BlockPairContainer × UInt64 × UInt64)) :=
  if makeSliceFits (last - first + 1) then
    (bp.scanBlocks first.toNat 1 (sliceCursor last) []).map fun (blocks, result) =>
      match result with
      | .error err => .error s!"failed getting block slice: {err}"
      | .ok () =>
        if blocks.length = 0 then .error s!"could not find blocks in height range {first}-{last}"
        else .ok (blocks, first, first + blocks.length.toUInt64 - 1)
  else none

/-- `tcp.IsQueueFullError`, which `gossip.IsChunkTooBigError` calls: the error's text names a full
queue. -/
def isChunkTooBigError (err : String) : Bool :=
  decide (" bytes to queue - full with ".toList <:+: err.toList)

/-- The last height `sourceHandleBlockSyncRequest` reads: a batch from the first requested height
when `first - lastCommitted`, taken in uint64, exceeds the batch, and the requested one otherwise. -/
def clampLastRequestedBlockHeight (numBlocksInBatch : UInt32) (first last lastCommitted : UInt64) : UInt64 :=
  if first - lastCommitted > (numBlocksInBatch - 1).toUInt64 then first + (numBlocksInBatch - 1).toUInt64
  else last

/-- The response the source sends with the first `chunkSize` blocks it read. -/
def chunkResponse (nodeAddress recipientNodeAddress : Bytes) (blockType : Nat)
    (firstAvailableBlockHeight lastCommittedBlockHeight : UInt64) (blocks : List BlockPairContainer)
    (chunkSize : Nat) : BlockSyncResponseInput :=
  ⟨recipientNodeAddress,
    ⟨nodeAddress,
      ⟨blockType, firstAvailableBlockHeight, firstAvailableBlockHeight + chunkSize.toUInt64 - 1,
        lastCommittedBlockHeight⟩,
      blocks.take chunkSize⟩⟩

/-- The sending loop of `sourceHandleBlockSyncRequest` from its `attempt`-th send, with the first
`chunkSize` blocks; `transport attempt` is the error that send returns. A full queue halves the
chunk and sends again, unless the chunk was already empty; any other error, or success, ends the
loop. Running out of fuel stands for a loop that does not end. -/
def sendChunks (transport : Nat → Option String) (response : Nat → BlockSyncResponseInput) :
    Nat → Nat → Nat → Option (List BlockSyncResponseInput × Option String)
  | 0, _, _ => none
  | fuel + 1, attempt, chunkSize =>
    let sent := response chunkSize
    match transport attempt with
    | none => some ([sent], none)
    | some err =>
      if !isChunkTooBigError err then some ([sent], some err)
      else if chunkSize = 0 then some ([sent], some err)
      else (sendChunks transport response fuel (attempt + 1) (chunkSize / 2)).map fun (rest, result) =>
        (sent :: rest, result)

/-- `sourceHandleBlockSyncRequest` on a node whose persistence is in memory: the responses sent,
in order, and the error returned. The in-memory `GetLastBlock` never fails. `none` is a panic. -/
def sourceHandleBlockSyncRequest (protocol : Protocol) (config : BlockSyncConfig) (bp : InMemoryBlockPersistence)
    (transport : Nat → Option String) (message : BlockSyncRequestMessage) :
    Option (List BlockSyncResponseInput × Option String) :=
  let senderNodeAddress := message.senderNodeAddress
  let blockType := message.signedChunkRange.blockType
  let firstRequestedBlockHeight := message.signedChunkRange.firstBlockHeight
  let lastRequestedBlockHeight := message.signedChunkRange.lastBlockHeight
  let lastCommittedBlockHeight := getBlockHeight protocol bp.getLastBlock
  if firstRequestedBlockHeight > lastCommittedBlockHeight then
    some ([], some "firstBlockHeight is greater than lastCommittedBlockHeight")
  else
    let lastRequestedBlockHeight := clampLastRequestedBlockHeight config.blockSyncNumBlocksInBatch
      firstRequestedBlockHeight lastRequestedBlockHeight lastCommittedBlockHeight
    (getBlockSlice bp firstRequestedBlockHeight lastRequestedBlockHeight).bind fun
      | .error err => some ([], some s!"block sync failed reading from block persistence: {err}")
      | .ok (blocks, firstAvailableBlockHeight, _) =>
        sendChunks transport
          (chunkResponse config.nodeAddress senderNodeAddress blockType firstAvailableBlockHeight
            lastCommittedBlockHeight blocks)
          (blocks.length + 1) 0 blocks.length

end OrbsNetwork.BlockStorage
