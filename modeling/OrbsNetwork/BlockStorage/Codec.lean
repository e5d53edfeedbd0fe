import OrbsNetwork.Library.ByteStream
import OrbsNetwork.Merkle.Node

namespace OrbsNetwork.BlockStorage

open ByteStream

/-- `unsafe.Sizeof(blockHeader{})`: six uint32 fields. -/
def blockHeaderSize : Nat := 24
def checksumSize : Nat := 4
def chunkLengthSize : Nat := 4

def orbsFormatMagic : Nat := 0x5342524f
def orbsFormatVersion : Nat := 0
def blockMagic : Nat := 0x6b4f4c42
def blockVersion : Nat := 0

/-- Go's conversion `uint32(n)` of a non-negative int. -/
def uint32 (n : Nat) : Nat := n % 2 ^ 32

/-- The text Go's `Error()` gives for a failed read. -/
def goError : ReadError String → String
  | .eof => "EOF"
  | .unexpectedEof => "unexpected EOF"
  | .other message => message

/-- `errors.Wrap(err, message)` around a read. -/
def wrapRead {α : Type} (message : String) (d : Reader UInt8 String α) : Reader UInt8 String α := fun s =>
  match d s with
  | .error err => .error (.other (message ++ ": " ++ goError err))
  | .ok r => .ok r

/-- Go's `%#v` of an unsigned integer. -/
def goHex (n : Nat) : String :=
  "0x" ++ String.ofList (Nat.toDigits 16 n)

/-- The raw bytes of the membuffers messages of a `TransactionsBlockContainer`. -/
structure TransactionsBlockContainer where
  header : Bytes
  metadata : Bytes
  signedTransactions : List Bytes
  blockProof : Bytes
  deriving DecidableEq, Repr

structure ResultsBlockContainer where
  header : Bytes
  transactionReceipts : List Bytes
  contractStateDiffs : List Bytes
  blockProof : Bytes
  deriving DecidableEq, Repr

structure BlockPairContainer where
  transactionsBlock : TransactionsBlockContainer
  resultsBlock : ResultsBlockContainer
  deriving DecidableEq, Repr

/-- The accessors of orbs-spec's `protocol` messages that block storage calls, as functions of a
message's raw bytes: those of `TransactionsBlockHeader`, of `ResultsBlockHeader` and
`TransactionReceipt.Txhash`. A timestamp is a `TimestampNano`, a uint64. -/
structure Protocol where
  transactionsBlockHeight : Bytes → Nat
  transactionsTimestamp : Bytes → Nat
  numSignedTransactions : Bytes → Nat
  resultsBlockHeight : Bytes → Nat
  resultsTimestamp : Bytes → Nat
  numTransactionReceipts : Bytes → Nat
  numContractStateDiffs : Bytes → Nat
  txhash : Bytes → Bytes
  transactionsTimestamp_lt : ∀ raw, transactionsTimestamp raw < 2 ^ 64
  resultsTimestamp_lt : ∀ raw, resultsTimestamp raw < 2 ^ 64

/-- `codec`; its limit is a uint32 setting. -/
structure Codec where
  maxBlockSize : Nat
  maxBlockSize_lt : maxBlockSize < 2 ^ 32

def newCodec (maxBlockSize : UInt32) : Codec :=
  ⟨maxBlockSize.toNat, maxBlockSize.toNat_lt⟩

/-- Little-endian uint32 fields one after the other, as `binary.Write` lays out a struct of them. -/
def writeFields (fields : List Nat) : Bytes :=
  fields.flatMap (toLE 4)

/-- Field `i` of a struct of little-endian uint32 fields read by `binary.Read`. -/
def fieldAt (bytes : Bytes) (i : Nat) : Nat :=
  ofLE ((bytes.drop (4 * i)).take 4)

def readUint32 : Reader UInt8 String Nat :=
  readLE 4

structure BlockHeader where
  magic : Nat
  version : Nat
  fixedSize : Nat
  receiptsSize : Nat
  diffsSize : Nat
  txsSize : Nat
  deriving DecidableEq, Repr

def diskChunkSize (bytes : Bytes) : Nat :=
  uint32 (chunkLengthSize + uint32 bytes.length)

def newBlockHeader : BlockHeader :=
  { magic := blockMagic, version := blockVersion, fixedSize := 0, receiptsSize := 0, diffsSize := 0, txsSize := 0 }

/-- The uint32 sum `size += diskChunkSize(m.Raw())` of `addFixed`, `addReceipt`, `addDiff` and
`addTx`. -/
def addChunk (size : Nat) (raw : Bytes) : Nat :=
  uint32 (size + diskChunkSize raw)

def BlockHeader.addFixed (bh : BlockHeader) (m : Bytes) : BlockHeader :=
  { bh with fixedSize := addChunk bh.fixedSize m }

def BlockHeader.addReceipt (bh : BlockHeader) (receipt : Bytes) : BlockHeader :=
  { bh with receiptsSize := addChunk bh.receiptsSize receipt }

def BlockHeader.addDiff (bh : BlockHeader) (diff : Bytes) : BlockHeader :=
  { bh with diffsSize := addChunk bh.diffsSize diff }

def BlockHeader.addTx (bh : BlockHeader) (tx : Bytes) : BlockHeader :=
  { bh with txsSize := addChunk bh.txsSize tx }

def BlockHeader.totalSize (bh : BlockHeader) : Nat :=
  uint32 (bh.fixedSize + bh.diffsSize + bh.receiptsSize + bh.txsSize)

def BlockHeader.fields (bh : BlockHeader) : List Nat :=
  [bh.magic, bh.version, bh.fixedSize, bh.receiptsSize, bh.diffsSize, bh.txsSize]

def BlockHeader.write (bh : BlockHeader) : Bytes :=
  writeFields bh.fields

def BlockHeader.ofBytes (bytes : Bytes) : BlockHeader :=
  ⟨fieldAt bytes 0, fieldAt bytes 1, fieldAt bytes 2, fieldAt bytes 3, fieldAt bytes 4, fieldAt bytes 5⟩

/-- The header as `%#v` prints the `*blockHeader`. -/
def BlockHeader.goSyntax (bh : BlockHeader) : String :=
  let magic := goHex bh.magic
  let version := goHex bh.version
  let fixedSize := goHex bh.fixedSize
  let receiptsSize := goHex bh.receiptsSize
  let diffsSize := goHex bh.diffsSize
  let txsSize := goHex bh.txsSize
  s!"&filesystem.blockHeader\x7bMagic:{magic}, Version:{version}, FixedSize:{fixedSize}, ReceiptsSize:{receiptsSize}, DiffsSize:{diffsSize}, TxsSize:{txsSize}\x7d"

def BlockHeader.read : Reader UInt8 String BlockHeader := do
  let bytes ← readFull blockHeaderSize
  let bh := BlockHeader.ofBytes bytes
  let magic := bh.magic
  if magic ≠ blockMagic then
    throw (.other s!"invalid block magic number {magic}")
  let version := bh.version
  if version ≠ blockVersion then
    throw (.other s!"invalid block version {version}")
  return bh

structure BlocksFileHeader where
  magic : Nat
  fileVersion : Nat
  networkType : Nat
  chainId : Nat
  deriving DecidableEq, Repr

def newBlocksFileHeader (networkType vchainId : Nat) : BlocksFileHeader :=
  ⟨orbsFormatMagic, orbsFormatVersion, networkType, vchainId⟩

def BlocksFileHeader.fields (bfh : BlocksFileHeader) : List Nat :=
  [bfh.magic, bfh.fileVersion, bfh.networkType, bfh.chainId]

def BlocksFileHeader.ofBytes (bytes : Bytes) : BlocksFileHeader :=
  ⟨fieldAt bytes 0, fieldAt bytes 1, fieldAt bytes 2, fieldAt bytes 3⟩

/-- `writeMessage`: the length as a uint32, then the raw bytes. -/
def writeMessage (message : Bytes) : Bytes :=
  toLE 4 (uint32 message.length) ++ message

/-- The five messages of the fixed section, in the order they are written and read. -/
def BlockPairContainer.fixedMessages (block : BlockPairContainer) : List Bytes :=
  [block.transactionsBlock.header, block.transactionsBlock.metadata, block.transactionsBlock.blockProof,
    block.resultsBlock.header, block.resultsBlock.blockProof]

/-- The header `encode` computes before it writes anything. -/
def BlockPairContainer.blockHeader (block : BlockPairContainer) : BlockHeader :=
  let bh := block.fixedMessages.foldl BlockHeader.addFixed newBlockHeader
  let bh := block.resultsBlock.transactionReceipts.foldl BlockHeader.addReceipt bh
  let bh := block.resultsBlock.contractStateDiffs.foldl BlockHeader.addDiff bh
  block.transactionsBlock.signedTransactions.foldl BlockHeader.addTx bh

section Checksummed

-- CRC32C (`crc32.MakeTable(crc32.Castagnoli)`) of everything a checksum writer or tee reader saw.
variable (crc32c : Bytes → UInt32)

/-- `write` of the file header: the fields, then their checksum. -/
def BlocksFileHeader.write (bfh : BlocksFileHeader) : Bytes :=
  let written := writeFields bfh.fields
  written ++ toLE 4 (crc32c written).toNat

def BlocksFileHeader.read : Reader UInt8 String BlocksFileHeader := do
  let (bytes, teed) ← tee (readFull 16)
  let bfh := BlocksFileHeader.ofBytes bytes
  let sum32 ← wrapRead "failed reading header checksum" readUint32
  if sum32 ≠ (crc32c teed).toNat then
    throw (.other "invalid header, bad checksum")
  let magic := bfh.magic
  if magic ≠ orbsFormatMagic then
    throw (.other s!"invalid magic number {magic}")
  let fileVersion := bfh.fileVersion
  if fileVersion ≠ orbsFormatVersion then
    throw (.other s!"invalid version {fileVersion}")
  return bfh

/-- What a section writer passes on, in `writeFixedBlockSectionWithChecksum` and
`writeDynamicBlockSectionWithChecksum`: the messages, then the checksum of their bytes. -/
def sectionWithChecksum (messages : List Bytes) : Bytes :=
  let written := messages.flatMap writeMessage
  written ++ toLE 4 (crc32c written).toNat

def writeFixedBlockSectionWithChecksum (block : BlockPairContainer) : Bytes :=
  sectionWithChecksum crc32c block.fixedMessages

def writeDynamicBlockSectionWithChecksum (messages : List Bytes) : Bytes :=
  sectionWithChecksum crc32c messages

/-- What `encode` writes through `fullBlockWriter`: the header and the four sections. -/
def BlockPairContainer.fullBlock (block : BlockPairContainer) : Bytes :=
  block.blockHeader.write ++ writeFixedBlockSectionWithChecksum crc32c block ++
    writeDynamicBlockSectionWithChecksum crc32c block.resultsBlock.transactionReceipts ++
    writeDynamicBlockSectionWithChecksum crc32c block.resultsBlock.contractStateDiffs ++
    writeDynamicBlockSectionWithChecksum crc32c block.transactionsBlock.signedTransactions

/-- `encode`: the bytes written to `w`, and the size it returns or its error. The size check
comes after the sections were written, so a block that is too large leaves all of it but the
final checksum behind. -/
def Codec.encode (c : Codec) (block : BlockPairContainer) : Bytes × Except String Nat :=
  let written := block.fullBlock crc32c
  let bytesWritten := written.length
  if c.maxBlockSize < bytesWritten then
    (written, .error s!"block size exceeds max limit. wrote {bytesWritten} bytes")
  else
    (written ++ toLE 4 (crc32c written).toNat, .ok (blockHeaderSize + block.blockHeader.totalSize + checksumSize * 5))

end Checksummed

structure ReadingBudget where
  limit : Nat
  bytesRead : Nat

def readChunk (budget : ReadingBudget) : Reader UInt8 String (Bytes × ReadingBudget) := do
  let chunkLength ← readUint32
  let budget := { budget with bytesRead := budget.bytesRead + chunkLengthSize }
  let limit := budget.limit
  if limit < budget.bytesRead + chunkLength then
    throw (.other s!"invalid block. size exceeds limit ({limit})")
  let chunk ← readFull chunkLength
  return (chunk, { budget with bytesRead := budget.bytesRead + chunk.length })

structure FixedSizeBlockSection where
  transactionsBlockHeader : Bytes
  transactionsBlockMetadata : Bytes
  transactionsBlockProof : Bytes
  resultsBlockHeader : Bytes
  resultsBlockProof : Bytes

/-- `readFixedSection`: the five chunks and the section checksum, which is returned unchecked. -/
def readFixedSection (budget : ReadingBudget) :
    Reader UInt8 String (FixedSizeBlockSection × Nat × ReadingBudget) := do
  let (tbHeaderChunk, budget) ← readChunk budget
  let (tbMetadataChunk, budget) ← readChunk budget
  let (tbBlockProofChunk, budget) ← readChunk budget
  let (rbHeaderChunk, budget) ← readChunk budget
  let (rbBlockProofChunk, budget) ← readChunk budget
  let checksum ← readUint32
  return (⟨tbHeaderChunk, tbMetadataChunk, tbBlockProofChunk, rbHeaderChunk, rbBlockProofChunk⟩, checksum, budget)

/-- The loop of `readDynamicBlockSection`: `count` chunks, in order. -/
def readChunks : Nat → ReadingBudget → Reader UInt8 String (List Bytes × ReadingBudget)
  | 0, budget => return ([], budget)
  | count + 1, budget => do
    let (chunk, budget) ← readChunk budget
    let (chunks, budget) ← readChunks count budget
    return (chunk :: chunks, budget)

/-- `readDynamicBlockSection`, which `readReceiptsSection`, `readStateDiffsSection` and
`readTransactionsSection` call; the section checksum is returned unchecked. -/
def readDynamicBlockSection (budget : ReadingBudget) (count : Nat) :
    Reader UInt8 String (List Bytes × Nat × ReadingBudget) := do
  let limit := budget.limit
  if uint32 limit < count then
    throw (.other s!"section element count is invalid. attempting to read {count} elements in block section while size budget is only {limit}")
  let (chunks, budget) ← readChunks count budget
  let checksum ← readUint32
  return (chunks, checksum, budget)

section Decode

variable (crc32c : Bytes → UInt32) (protocol : Protocol)

/-- The part of `decode` read through the tee reader: the header, its size checks and the four
sections; the block and the count of budgeted bytes. -/
def Codec.decodeSections (c : Codec) : Reader UInt8 String (BlockPairContainer × Nat) := do
  let serializationHeader ← BlockHeader.read
  let budget : ReadingBudget := ⟨serializationHeader.totalSize + blockHeaderSize, blockHeaderSize⟩
  if c.maxBlockSize < budget.limit then
    throw (.other ("block size exceeds max limit. block header " ++ serializationHeader.goSyntax))
  let (fixed, _, budget) ← readFixedSection budget
  let (receipts, _, budget) ←
    readDynamicBlockSection budget (protocol.numTransactionReceipts fixed.resultsBlockHeader)
  let (stateDiffs, _, budget) ←
    readDynamicBlockSection budget (protocol.numContractStateDiffs fixed.resultsBlockHeader)
  let (txs, _, budget) ←
    readDynamicBlockSection budget (protocol.numSignedTransactions fixed.transactionsBlockHeader)
  let limit := budget.limit
  let bytesRead := budget.bytesRead
  if bytesRead ≠ limit then
    throw (.other s!"block size mismatch. expected: {limit} read: {bytesRead}")
  return (⟨⟨fixed.transactionsBlockHeader, fixed.transactionsBlockMetadata, txs, fixed.transactionsBlockProof⟩,
    ⟨fixed.resultsBlockHeader, receipts, stateDiffs, fixed.resultsBlockProof⟩⟩, bytesRead)

/-- `decode`: the sections through the tee, then the block checksum read past it. Go also
returns a byte count with its errors; no caller reads it. -/
def Codec.decode (c : Codec) : Reader UInt8 String (BlockPairContainer × Nat) := do
  let ((block, bytesRead), teed) ← tee (c.decodeSections protocol)
  let checksum ← readUint32
  let computed := (crc32c teed).toNat
  if checksum ≠ computed then
    throw (.other s!"block checksum mismatch. computed: {computed} recorded: {checksum}")
  return (block, bytesRead + checksumSize * 5)

end Decode

end OrbsNetwork.BlockStorage
