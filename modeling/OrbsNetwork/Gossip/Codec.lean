import OrbsNetwork.BlockStorage.Codec

namespace OrbsNetwork.Gossip

open BlockStorage (BlockPairContainer)

/-- `NUM_HARDCODED_PAYLOADS_FOR_BLOCK_PAIR`: the two headers, the metadata and the two proofs. -/
def numHardcodedPayloadsForBlockPair : UInt32 := 5

/-- `EncodeBlockPair`: the five fixed payloads, then the transactions, the receipts and the state
diffs. Every part of a block pair here has its raw bytes, so the checks for missing parts pass. -/
def encodeBlockPair (blockPair : BlockPairContainer) : List Bytes :=
  [blockPair.transactionsBlock.header, blockPair.transactionsBlock.metadata, blockPair.transactionsBlock.blockProof,
    blockPair.resultsBlock.header, blockPair.resultsBlock.blockProof] ++
  blockPair.transactionsBlock.signedTransactions ++ blockPair.resultsBlock.transactionReceipts ++
  blockPair.resultsBlock.contractStateDiffs

def encodeBlockPairs (blockPairs : List BlockPairContainer) : List Bytes :=
  blockPairs.flatMap encodeBlockPair

/-- The counts that the decoder reads from the two headers. The membuffers readers return a
`uint32` for any bytes. -/
structure HeaderCounts where
  numSignedTransactions : Bytes → UInt32
  numTransactionReceipts : Bytes → UInt32
  numContractStateDiffs : Bytes → UInt32

/-- `payloads[i]` at a `uint32` index; `none` is the panic of an index out of range. -/
def payloadAt (payloads : List Bytes) (i : UInt32) : Option Bytes :=
  payloads[i.toNat]?

/-- One of the three inner loops: `count` payloads read at `start`, `start + 1`, ... in `uint32`;
the first index out of range panics. -/
def readPayloads (payloads : List Bytes) (start : UInt32) : Nat → Option (List Bytes)
  | 0 => some []
  | count + 1 => do
    let payload ← payloadAt payloads start
    let rest ← readPayloads payloads (start + 1) count
    pure (payload :: rest)

/-- The loop of `DecodeBlockPairs` from `payloadIndex`, with the block pairs decoded so far. The
control depends on `payloadIndex` alone, so a run that ends takes at most `2^32` turns: running out
of the fuel below stands for a loop that does not end. `none` is also a panic. -/
def decodeBlockPairsLoop (counts : HeaderCounts) (payloads : List Bytes) :
    Nat → UInt32 → List BlockPairContainer → Option (Except String (List BlockPairContainer))
  | 0, _, _ => none
  | fuel + 1, payloadIndex, results =>
    let numPayloads := payloads.length.toUInt32
    if payloadIndex < numPayloads then
      if numPayloads < payloadIndex + numHardcodedPayloadsForBlockPair then
        some (.error s!"codec failed to decode block pair, missing payloads {payloads.length}")
      else do
        let txBlockHeader ← payloadAt payloads payloadIndex
        let txBlockMetadata ← payloadAt payloads (payloadIndex + 1)
        let txBlockProof ← payloadAt payloads (payloadIndex + 2)
        let rxBlockHeader ← payloadAt payloads (payloadIndex + 3)
        let rxBlockProof ← payloadAt payloads (payloadIndex + 4)
        let payloadIndex := payloadIndex + numHardcodedPayloadsForBlockPair
        let numSignedTransactions := counts.numSignedTransactions txBlockHeader
        let numTransactionReceipts := counts.numTransactionReceipts rxBlockHeader
        let numContractStateDiffs := counts.numContractStateDiffs rxBlockHeader
        -- the three counts and the index are added in uint32 before the bounds check
        let expectedPayloads := numSignedTransactions + numTransactionReceipts + numContractStateDiffs
        if numPayloads < payloadIndex + expectedPayloads then
          some (.error s!"codec failed to decode block pair, remaining payloads {numPayloads - payloadIndex}, expected payloads {expectedPayloads}")
        else
          let txs ← readPayloads payloads payloadIndex numSignedTransactions.toNat
          let payloadIndex := payloadIndex + numSignedTransactions
          let receipts ← readPayloads payloads payloadIndex numTransactionReceipts.toNat
          let payloadIndex := payloadIndex + numTransactionReceipts
          let sdiffs ← readPayloads payloads payloadIndex numContractStateDiffs.toNat
          let payloadIndex := payloadIndex + numContractStateDiffs
          let blockPair : BlockPairContainer :=
            ⟨⟨txBlockHeader, txBlockMetadata, txs, txBlockProof⟩, ⟨rxBlockHeader, receipts, sdiffs, rxBlockProof⟩⟩
          decodeBlockPairsLoop counts payloads fuel payloadIndex (results ++ [blockPair])
    else some (.ok results)

/-- `DecodeBlockPairs`. -/
def decodeBlockPairs (counts : HeaderCounts) (payloads : List Bytes) :
    Option (Except String (List BlockPairContainer)) :=
  decodeBlockPairsLoop counts payloads (2 ^ 32 + 1) 0 []

/-- `DecodeBlockPair`: the first block pair of the payloads. -/
def decodeBlockPair (counts : HeaderCounts) (payloads : List Bytes) : Option (Except String BlockPairContainer) :=
  (decodeBlockPairs counts payloads).map fun
    | .error err => .error err
    | .ok results =>
      match results with
      | [] => .error "codec failed to decode at least one block pair"
      | blockPair :: _ => .ok blockPair

/-- `gossipmessages.BlockSyncResponseMessage` as the codec sees it: the raw chunk range and sender
signature, and the block pairs. -/
structure BlockSyncResponseMessage where
  signedChunkRange : Bytes
  sender : Bytes
  blockPairs : List BlockPairContainer
  deriving DecidableEq, Repr

/-- The `IsValid` checks of the two membuffers readers `DecodeBlockSyncResponse` builds. -/
structure ResponseReaders where
  blockSyncRangeIsValid : Bytes → Bool
  senderSignatureIsValid : Bytes → Bool

/-- `EncodeBlockSyncResponse` after the gossip header. -/
def encodeBlockSyncResponse (header : Bytes) (message : BlockSyncResponseMessage) : Except String (List Bytes) :=
  if message.blockPairs.length = 0 then .error "missing BlockPairs"
  else .ok ([header, message.signedChunkRange, message.sender] ++ encodeBlockPairs message.blockPairs)

/-- `DecodeBlockSyncResponse` of the payloads after the gossip header. -/
def decodeBlockSyncResponse (counts : HeaderCounts) (readers : ResponseReaders) (payloads : List Bytes) :
    Option (Except String BlockSyncResponseMessage) :=
  match payloads with
  | chunkRange :: senderSignature :: rest =>
    if payloads.length < 2 + numHardcodedPayloadsForBlockPair.toNat then some (.error "wrong num of payloads")
    else if !readers.blockSyncRangeIsValid chunkRange then
      some (.error "SignedChunkRange is corrupted and cannot be decoded")
    else if !readers.senderSignatureIsValid senderSignature then
      some (.error "SenderSignature is corrupted and cannot be decoded")
    else (decodeBlockPairs counts rest).map fun
      | .error err => .error err
      | .ok blocks => .ok ⟨chunkRange, senderSignature, blocks⟩
  | _ => some (.error "wrong num of payloads")

/-- `gossipmessages.LeanHelixMessage`: the consensus content and, with a proposal, its block pair. -/
structure LeanHelixMessage where
  content : Bytes
  blockPair : Option BlockPairContainer
  deriving DecidableEq, Repr

/-- `EncodeLeanHelixMessage`, whose content is never missing here. -/
def encodeLeanHelixMessage (header : Bytes) (message : LeanHelixMessage) : List Bytes :=
  [header, message.content] ++ (message.blockPair.map encodeBlockPair).getD []

/-- `DecodeLeanHelixMessage` of the payloads after the gossip header. -/
def decodeLeanHelixMessage (counts : HeaderCounts) (payloads : List Bytes) :
    Option (Except String LeanHelixMessage) :=
  match payloads with
  | [] => some (.error "wrong num of payloads")
  | [content] => some (.ok ⟨content, none⟩)
  | content :: rest =>
    (decodeBlockPair counts rest).map fun
      | .error err => .error err
      | .ok blockPair => .ok ⟨content, some blockPair⟩

end OrbsNetwork.Gossip
