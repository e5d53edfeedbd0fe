import OrbsNetwork.BlockStorage.Codec

namespace OrbsNetwork.BlockStorage

/-- `InMemoryBlockPersistence`, without its lock, tracker, logger and metrics: the chain of
blocks, block `h` at index `h - 1`. -/
structure InMemoryBlockPersistence where
  blocks : List BlockPairContainer

/-- `NewBlockPersistence` with its preloaded blocks. -/
def newInMemoryBlockPersistence (preloadedBlocks : List BlockPairContainer) : InMemoryBlockPersistence :=
  ⟨preloadedBlocks⟩

section Protocol

variable (protocol : Protocol)

def InMemoryBlockPersistence.getLastBlock (bp : InMemoryBlockPersistence) : Option BlockPairContainer :=
  bp.blocks.getLast?

def InMemoryBlockPersistence.getLastBlockHeight (bp : InMemoryBlockPersistence) : Nat :=
  bp.blocks.length

/-- `WriteNextBlock` through `validateAndAddNextBlock`: the height checked is the transactions
block's and the height reported the results block's. Left out is the block tracker's
`IncrementTo`, which after the append panics when the results block's height is not the next one:
here such a block pair is appended and reported as added. -/
def InMemoryBlockPersistence.writeNextBlock (bp : InMemoryBlockPersistence) (blockPair : BlockPairContainer) :
    InMemoryBlockPersistence × Bool × Nat × Option String :=
  let currentTop := bp.blocks.length
  if currentTop + 1 ≠ protocol.transactionsBlockHeight blockPair.transactionsBlock.header then
    (bp, false, currentTop, none)
  else (⟨bp.blocks ++ [blockPair]⟩, true, protocol.resultsBlockHeight blockPair.resultsBlock.header, none)

/-- `GetBlockByTx`: among the blocks whose transactions block timestamp is in the range, the
first receipt with the hash. -/
def InMemoryBlockPersistence.getBlockByTx (bp : InMemoryBlockPersistence) (txHash : Bytes) (minBlockTs maxBlockTs : Nat) :
    Option BlockPairContainer × Nat × Option String :=
  let candidateBlocks := bp.blocks.filter fun blockPair =>
    let bts := protocol.transactionsTimestamp blockPair.transactionsBlock.header
    bts ≤ maxBlockTs ∧ minBlockTs ≤ bts
  let found := candidateBlocks.findSome? fun b =>
    (b.resultsBlock.transactionReceipts.findIdx? fun txr => protocol.txhash txr == txHash).map (b, ·)
  match found with
  | some (b, txi) => (some b, txi, none)
  | none => (none, 0, none)

/-- `getBlockPairAtHeight`; `none` where Go panics, at height 0, whose index wraps below 0. -/
def InMemoryBlockPersistence.getBlockPairAtHeight (bp : InMemoryBlockPersistence) (height : Nat) :
    Option (Except String BlockPairContainer) :=
  if bp.blocks.length < height then some (.error s!"block with height {height} not found in block persistence")
  else
    match height with
    | 0 => none
    | h + 1 => bp.blocks[h]?.map .ok

def InMemoryBlockPersistence.getTransactionsBlock (bp : InMemoryBlockPersistence) (height : Nat) :
    Option (Except String TransactionsBlockContainer) :=
  (bp.getBlockPairAtHeight height).map fun result => result.map BlockPairContainer.transactionsBlock

def InMemoryBlockPersistence.getResultsBlock (bp : InMemoryBlockPersistence) (height : Nat) :
    Option (Except String ResultsBlockContainer) :=
  (bp.getBlockPairAtHeight height).map fun result => result.map BlockPairContainer.resultsBlock

end Protocol

/-- The loop of `ScanBlocks` from `fromHeight` on, for at most `fuel` pages: each page the
slice `allBlocks[from-1 : min(from-1+pageSize, len)]`. Running out of fuel stands for a loop
that does not end. -/
def memScanLoop {σ : Type} (allBlocks : List BlockPairContainer) (pageSize : Nat)
    (f : σ → Nat → List BlockPairContainer → σ × Bool) : Nat → Nat → σ → Option σ
  | 0, _, _ => none
  | fuel + 1, fromHeight, s =>
    if fromHeight ≤ allBlocks.length then
      let fromIndex := fromHeight - 1
      let toIndex := min (fromIndex + pageSize) allBlocks.length
      let (s, wantsMore) := f s fromHeight ((allBlocks.drop fromIndex).take (toIndex - fromIndex))
      if wantsMore then memScanLoop allBlocks pageSize f fuel (toIndex + 1) s else some s
    else some s

/-- `ScanBlocks` with a cursor whose state is `σ`. With a page size of 0 the loop repeats its
empty page until the cursor declines, which is modelled for up to as many calls as there are
blocks. -/
def InMemoryBlockPersistence.scanBlocks {σ : Type} (bp : InMemoryBlockPersistence) (fromHeight pageSize : Nat)
    (f : σ → Nat → List BlockPairContainer → σ × Bool) (s : σ) : Option (σ × Except String Unit) :=
  let allBlocksLength := bp.blocks.length
  if allBlocksLength < fromHeight ∨ fromHeight = 0 then
    some (s, .error s!"requested unknown block height {fromHeight}. current height is {allBlocksLength}")
  else (memScanLoop bp.blocks pageSize f (allBlocksLength + 1) fromHeight s).map fun s => (s, .ok ())

end OrbsNetwork.BlockStorage
