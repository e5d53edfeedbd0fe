import OrbsNetwork.BlockStorage.Codec

namespace OrbsNetwork.BlockStorage

open ByteStream

/-- `blockHeightIndex`, without its lock and logger; its maps as functions, `none` where Go's
map has no entry. -/
@[ext] structure BlockHeightIndex where
  heightOffset : Nat → Option Nat
  firstBlockInTsBucket : Nat → Option Nat
  topBlock : Option BlockPairContainer
  topBlockHeight : Nat

def newBlockHeightIndex (firstBlockOffset : Nat) : BlockHeightIndex where
  heightOffset := Function.update (fun _ => none) 1 (some firstBlockOffset)
  firstBlockInTsBucket := fun _ => none
  topBlock := none
  topBlockHeight := 0

/-- `fetchTopOffset`; `none` where Go panics on a missing offset. -/
def BlockHeightIndex.fetchTopOffset (i : BlockHeightIndex) : Option Nat :=
  i.heightOffset (i.topBlockHeight + 1)

/-- `fetchBlockOffset`; `none` where Go panics on a missing offset. -/
def BlockHeightIndex.fetchBlockOffset (i : BlockHeightIndex) (height : Nat) : Option Nat :=
  i.heightOffset height

def minuteToNanoRatio : Nat := 60 * 1000 * 1000 * 1000

def blockTsBucketKey (nano : Nat) : Nat :=
  uint32 (nano / minuteToNanoRatio)

/-- `getEarliestTxBlockInBucketForTsRange`: the first block of the first bucket of the range
that has one. -/
def BlockHeightIndex.getEarliestTxBlockInBucketForTsRange (i : BlockHeightIndex) (rangeStart rangeEnd : Nat) :
    Option Nat :=
  let fromBucket := blockTsBucketKey rangeStart
  let toBucket := blockTsBucketKey rangeEnd
  (List.range' fromBucket (toBucket + 1 - fromBucket)).findSome? i.firstBlockInTsBucket

section Protocol

variable (protocol : Protocol)

def BlockHeightIndex.appendBlock (i : BlockHeightIndex) (prevTopOffset newTopOffset : Nat)
    (newBlock : BlockPairContainer) : Except String BlockHeightIndex :=
  let newBlockHeight := protocol.resultsBlockHeight newBlock.resultsBlock.header
  let numTxReceipts := protocol.numTransactionReceipts newBlock.resultsBlock.header
  let blockTs := protocol.resultsTimestamp newBlock.resultsBlock.header
  let topBlockHeight := i.topBlockHeight
  match i.heightOffset (topBlockHeight + 1) with
  | none => .error s!"index missing offset for block height {topBlockHeight}"
  | some currentTopOffset =>
    if currentTopOffset ≠ prevTopOffset then
      .error s!"unexpected top block offest, may be a result of two processes writing concurrently. found offest {currentTopOffset} while expecting {prevTopOffset}"
    else
      let i := { i with
        topBlock := some newBlock, topBlockHeight := newBlockHeight
        heightOffset := Function.update i.heightOffset (newBlockHeight + 1) (some newTopOffset) }
      if 0 < numTxReceipts ∧ i.firstBlockInTsBucket (blockTsBucketKey blockTs) = none then
        .ok { i with
          firstBlockInTsBucket := Function.update i.firstBlockInTsBucket (blockTsBucketKey blockTs) (some newBlockHeight) }
      else .ok i

section Codec

variable (crc32c : Bytes → UInt32) (c : Codec)

/-- The loop of `buildIndex` from `offset` on, for at most `fuel` blocks: each block decoded is
appended to the index, and the first record that does not decode ends the index. Every decoded
block takes more than one byte, so as many turns as the stream has bytes always reach that end. -/
def buildIndexLoop : Nat → Bytes → Nat → BlockHeightIndex → Except String BlockHeightIndex
  | 0, _, _, bhIndex => .ok bhIndex
  | fuel + 1, r, offset, bhIndex =>
    match (c.decode crc32c protocol).run r with
    | .error _ => .ok bhIndex
    | .ok ((aBlock, blockSize), rest) =>
      match bhIndex.appendBlock protocol offset (offset + blockSize) aBlock with
      | .error err => .error ("failed building block height index: " ++ err)
      | .ok bhIndex => buildIndexLoop fuel rest (offset + blockSize) bhIndex

/-- `buildIndex` over the stream `r` that starts at `firstBlockOffset` of the file. -/
def buildIndex (r : Bytes) (firstBlockOffset : Nat) : Except String BlockHeightIndex :=
  buildIndexLoop protocol crc32c c r.length r firstBlockOffset (newBlockHeightIndex firstBlockOffset)

/-- One page of `ScanBlocks`: at most `k` more blocks decoded from `r`, and whether the stream
ended (`io.EOF` or `io.ErrUnexpectedEOF`); any other error is returned. -/
def readPage : Nat → Bytes → List BlockPairContainer → Except String (List BlockPairContainer × Bytes × Bool)
  | 0, r, page => .ok (page, r, false)
  | k + 1, r, page =>
    match (c.decode crc32c protocol).run r with
    | .error .eof | .error .unexpectedEof => .ok (page, r, true)
    | .error (.other err) => .error ("failed to decode block: " ++ err)
    | .ok ((aBlock, _), rest) => readPage k rest (page ++ [aBlock])

/-- The outer loop of `ScanBlocks`, for at most `fuel` pages. Running out of fuel is a loop
that never ends, which is what a page size of 0 gives. -/
def scanLoop {σ : Type} (pageSize : Nat) (cursor : σ → Nat → List BlockPairContainer → σ × Bool) :
    Nat → Bytes → σ → Option (σ × Except String Unit)
  | 0, _, _ => none
  | fuel + 1, r, s =>
    match readPage protocol crc32c c pageSize r [] with
    | .error err => some (s, .error err)
    | .ok (page, rest, eof) =>
      -- `wantNext` keeps its value, true, when the page is empty
      let (s, wantNext) := match page with
        | [] => (s, true)
        | first :: _ => cursor s (protocol.resultsBlockHeight first.resultsBlock.header) page
      if wantNext ∧ ¬ eof then scanLoop pageSize cursor fuel rest s else some (s, .ok ())

end Codec

/-- The file after `data` is written at `offset`: what was there is overwritten, and the file
grows past its end, a gap reading as zeros. -/
def writeAt (file : Bytes) (offset : Nat) (data : Bytes) : Bytes :=
  file.take offset ++ List.replicate (offset - file.length) 0 ++ data ++ file.drop (offset + data.length)

/-- `BlockPersistence`, without its logger, metrics and block tracker: the codec, the contents of
the blocks file, the offset the block writer's file handle is at, and the index. -/
structure BlockPersistence where
  codec : Codec
  file : Bytes
  writeOffset : Nat
  bhIndex : BlockHeightIndex

/-- The settings `NewBlockPersistence` reads; `blocksFileName` is the data directory joined
with `blocks`. -/
structure FilesystemBlockPersistenceConfig where
  blockStorageFileSystemMaxBlockSizeInBytes : UInt32
  networkType : Nat
  virtualChainId : Nat
  blocksFileName : String

section Checksummed

variable (crc32c : Bytes → UInt32)

/-- `validateFileHeader`: an empty file first gets a new header; the header is read back and
checked; the result is the offset after it. -/
def validateFileHeader (file : Bytes) (networkType vchainId : Nat) : Bytes × Except String Nat :=
  let file := if file.isEmpty then
      (newBlocksFileHeader (uint32 networkType) (uint32 vchainId)).write crc32c
    else file
  match (BlocksFileHeader.read crc32c).run file with
  | .error err => (file, .error ("error reading blocks file header: " ++ goError err))
  | .ok (header, rest) =>
    let found := header.networkType
    let expected := uint32 networkType
    let foundChain := header.chainId
    let expectedChain := uint32 vchainId
    if found ≠ expected then
      (file, .error s!"blocks file network type mismatch. found netowrk type {found} expected {expected}")
    else if foundChain ≠ expectedChain then
      (file, .error s!"blocks file virtual chain id mismatch. found vchain id {foundChain} expected {expectedChain}")
    else (file, .ok (file.length - rest.length))

/-- `NewBlockPersistence` over the current contents of the blocks file; `none` where Go panics. -/
def newBlockPersistence (conf : FilesystemBlockPersistenceConfig) (file : Bytes) :
    Option (Except String BlockPersistence) :=
  let codec := newCodec conf.blockStorageFileSystemMaxBlockSizeInBytes
  let filename := conf.blocksFileName
  match validateFileHeader crc32c file conf.networkType conf.virtualChainId with
  | (_, .error err) => some (.error s!"failed to obtain exclusive lock for writing {filename}: {err}")
  | (file, .ok blocksOffset) =>
    match buildIndex protocol crc32c codec (file.drop blocksOffset) blocksOffset with
    | .error err => some (.error err)
    | .ok bhIndex => bhIndex.fetchTopOffset.map fun nextBlockOffset => .ok ⟨codec, file, nextBlockOffset, bhIndex⟩

/-- `blockWriter.writeBlock`: whatever `encode` wrote stays in the file, the size limit error
included. -/
def BlockPersistence.writeBlock (f : BlockPersistence) (blockPair : BlockPairContainer) :
    BlockPersistence × Except String Nat :=
  let (written, result) := f.codec.encode crc32c blockPair
  let f := { f with file := writeAt f.file f.writeOffset written, writeOffset := f.writeOffset + written.length }
  match result with
  | .error err => (f, .error ("failed to write block: " ++ err))
  | .ok bytes => (f, .ok bytes)

/-- `WriteNextBlock`: whether the block was added, the height reported and the error; `none`
where Go panics. -/
def BlockPersistence.writeNextBlock (f : BlockPersistence) (blockPair : BlockPairContainer) :
    Option (BlockPersistence × Bool × Nat × Option String) :=
  let bh := protocol.resultsBlockHeight blockPair.resultsBlock.header
  let currentTop := f.bhIndex.topBlockHeight
  if bh ≠ currentTop + 1 then some (f, false, currentTop, none)
  else
    match f.writeBlock crc32c blockPair with
    | (f, .error err) => some (f, false, currentTop, some err)
    | (f, .ok n) =>
      f.bhIndex.fetchBlockOffset bh |>.map fun startPos =>
        match f.bhIndex.appendBlock protocol startPos (startPos + n) blockPair with
        | .error err => (f, false, currentTop, some ("failed to update index after writing block: " ++ err))
        | .ok bhIndex => ({ f with bhIndex }, true, bh, none)

/-- `ScanBlocks` with a cursor whose state is `σ`: the cursor's final state and the error;
`none` where Go panics or never returns. The blocks file is read from the offset of `fromHeight`
to its end. -/
def BlockPersistence.scanBlocks {σ : Type} (f : BlockPersistence) (fromHeight pageSize : Nat)
    (cursor : σ → Nat → List BlockPairContainer → σ × Bool) (s : σ) : Option (σ × Except String Unit) :=
  let currentTop := f.bhIndex.topBlockHeight
  if currentTop < fromHeight then
    some (s, .error s!"requested unknown block height {fromHeight}. current height is {currentTop}")
  else
    f.bhIndex.fetchBlockOffset fromHeight |>.bind fun initialOffset =>
      scanLoop protocol crc32c f.codec pageSize cursor (f.file.length + 1) (f.file.drop initialOffset) s

def BlockPersistence.getLastBlockHeight (f : BlockPersistence) : Nat :=
  f.bhIndex.topBlockHeight

def BlockPersistence.getLastBlock (f : BlockPersistence) : Option BlockPairContainer :=
  f.bhIndex.topBlock

/-- `getBlockAtHeight`: the page its cursor kept, and the error of the scan. -/
def BlockPersistence.getBlockAtHeight (f : BlockPersistence) (height : Nat) :
    Option (Option BlockPairContainer × Except String Unit) :=
  f.scanBlocks protocol crc32c height 1 (fun _ _ page => (page.head?, false)) none

/-- What `GetTransactionsBlock` and `GetResultsBlock` share: the part of the block at `height`;
`none` where Go panics, on a nil block as well. -/
def BlockPersistence.getBlockPart {α : Type} (f : BlockPersistence) (part : BlockPairContainer → α)
    (height : Nat) : Option (Except String α) :=
  f.getBlockAtHeight protocol crc32c height |>.bind fun
    | (_, .error err) => some (.error err)
    | (none, .ok ()) => none
    | (some bpc, .ok ()) => some (.ok (part bpc))

def BlockPersistence.getTransactionsBlock (f : BlockPersistence) (height : Nat) :
    Option (Except String TransactionsBlockContainer) :=
  f.getBlockPart protocol crc32c BlockPairContainer.transactionsBlock height

def BlockPersistence.getResultsBlock (f : BlockPersistence) (height : Nat) :
    Option (Except String ResultsBlockContainer) :=
  f.getBlockPart protocol crc32c BlockPairContainer.resultsBlock height

/-- The cursor of `GetBlockByTx`, over pages of one block: it stops after the time range or at
the first receipt with the hash, whose block and index it keeps. -/
def txCursor (txHash : Bytes) (minBlockTs maxBlockTs : Nat) (found : Option (BlockPairContainer × Nat)) (_ : Nat)
    (page : List BlockPairContainer) : Option (BlockPairContainer × Nat) × Bool :=
  match page with
  | [] => (found, true)
  | b :: _ =>
    let ts := protocol.resultsTimestamp b.resultsBlock.header
    if maxBlockTs < ts then (found, false)
    else if ts < minBlockTs then (found, true)
    else
      match b.resultsBlock.transactionReceipts.findIdx? fun receipt => protocol.txhash receipt == txHash with
      | some i => (some (b, i), false)
      | none => (found, true)

/-- `GetBlockByTx`: the block, the index of the receipt in it, and the error; `none` where Go
panics. -/
def BlockPersistence.getBlockByTx (f : BlockPersistence) (txHash : Bytes) (minBlockTs maxBlockTs : Nat) :
    Option (Option BlockPairContainer × Nat × Option String) :=
  match f.bhIndex.getEarliestTxBlockInBucketForTsRange minBlockTs maxBlockTs with
  | none => some (none, 0, none)
  | some scanFrom =>
    f.scanBlocks protocol crc32c scanFrom 1 (txCursor protocol txHash minBlockTs maxBlockTs) none |>.map fun
      | (_, .error err) => (none, 0, some ("failed to fetch block by txHash: " ++ err))
      | (found, .ok ()) => (found.map Prod.fst, (found.map Prod.snd).getD 0, none)

end Checksummed

end Protocol

end OrbsNetwork.BlockStorage
