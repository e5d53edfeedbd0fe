import OrbsNetwork.BlockStorage.BlockSyncSpec
import OrbsNetwork.Merkle.OrderedTreeSpec
import OrbsNetwork.Merkle.ProofSpec
import OrbsNetwork.Committee.Order

namespace OrbsNetwork.Merkle

open Node

section Siblings

variable {calcSha256 : Bytes → Bytes}

theorem getProofLoop_mem_hashes {key : List Bool} {keySize : Nat} {n : Node} {proof out : OrderedTreeProof} {j : Nat}
    (walked : getProofLoop key keySize n proof j = some out) : ∀ x ∈ out, x ∈ proof ∨ x ∈ n.hashes := by
  induction n generalizing proof j with
  | nil =>
    unfold getProofLoop at walked
    split_ifs at walked
    cases walked
    exact fun x member => .inl member
  | node p v h l r s ihl ihr =>
    have leftMem : l ≠ nil → l.hash ∈ (node p v h l r s).hashes := fun notNil =>
      List.mem_cons_of_mem _ (List.mem_append_left _ (hash_mem_hashes notNil))
    have rightMem : r ≠ nil → r.hash ∈ (node p v h l r s).hashes := fun notNil =>
      List.mem_cons_of_mem _ (List.mem_append_right _ (hash_mem_hashes notNil))
    -- the hash a step appends is a child's, and the walk goes on in the other child
    have appended : ∀ {c : Node} {sibling : Bytes}, sibling ∈ (node p v h l r s).hashes →
        (∀ {proof j}, getProofLoop key keySize c proof j = some out → ∀ x ∈ out, x ∈ proof ∨ x ∈ c.hashes) →
        (∀ x ∈ c.hashes, x ∈ (node p v h l r s).hashes) →
        (some (proof ++ [sibling]) = some out ∨ ∃ j', getProofLoop key keySize c (proof ++ [sibling]) j' = some out) →
        ∀ x ∈ out, x ∈ proof ∨ x ∈ (node p v h l r s).hashes := by
      intro c sibling siblingMem ih below stepped x member
      have extended : x ∈ proof ++ [sibling] ∨ x ∈ c.hashes := by
        rcases stepped with stopped | ⟨j', walk⟩
        · cases stopped
          exact .inl member
        · exact ih walk x member
      rcases extended with old | deeper
      · rcases List.mem_append.mp old with inProof | isSibling
        · exact .inl inProof
        · exact .inr (List.mem_singleton.mp isSibling ▸ siblingMem)
      · exact .inr (below x deeper)
    have leftBelow : ∀ x ∈ l.hashes, x ∈ (node p v h l r s).hashes := fun x member =>
      List.mem_cons_of_mem _ (List.mem_append_left _ member)
    have rightBelow : ∀ x ∈ r.hashes, x ∈ (node p v h l r s).hashes := fun x member =>
      List.mem_cons_of_mem _ (List.mem_append_right _ member)
    by_cases inside : j < keySize
    · rw [getProofLoop, if_pos inside] at walked
      dsimp only at walked
      split at walked
      · cases walked
      · by_cases nilChild : (r.isNil || l.isNil) = true
        · rw [if_pos nilChild] at walked
          cases walked
        · rw [if_neg nilChild] at walked
          have rightNotNil : r ≠ nil := isNil_eq_false_iff.mp (by simp_all)
          split at walked
          · exact appended (rightMem rightNotNil) ihl leftBelow (.inl walked)
          · exact appended (rightMem rightNotNil) ihl leftBelow (.inr ⟨_, walked⟩)
      · by_cases nilChild : (l.isNil || r.isNil) = true
        · rw [if_pos nilChild] at walked
          cases walked
        · rw [if_neg nilChild] at walked
          have leftNotNil : l ≠ nil := isNil_eq_false_iff.mp (by simp_all)
          split at walked
          · exact appended (leftMem leftNotNil) ihr rightBelow (.inl walked)
          · exact appended (leftMem leftNotNil) ihr rightBelow (.inr ⟨_, walked⟩)
    · rw [getProofLoop, if_neg inside] at walked
      cases walked
      exact fun x member => .inl member

/-- In a trie whose stored hashes are `treeHash` and whose every key reads 32 bytes, every stored
hash has 32 bytes: a leaf's is its value, and any other node's comes from the hasher. -/
theorem hashes_length_of_lookup (sized : ∀ x, (calcSha256 x).length = 32) {n : Node}
    (hashed : HashedBy (treeHash calcSha256) n) (readsHashes : ∀ key, (n.lookup calcSha256 key).length = 32) :
    ∀ x ∈ n.hashes, x.length = 32 := by
  induction n with
  | nil => nofun
  | node p v h l r s ihl ihr =>
    obtain ⟨stored, leftHashed, rightHashed⟩ := hashed
    have own : h.length = 32 := by
      rw [stored, treeHash]
      split
      · have := readsHashes p
        rwa [lookup_self] at this
      · rw [hashTwo]
        split <;> exact sized _
    have below : ∀ bit, ∀ key, (((node p v h l r s).getChild bit).lookup calcSha256 key).length = 32 :=
      fun bit key => by
        rw [← lookup_child]
        exact readsHashes _
    intro x member
    rcases List.mem_cons.mp member with rfl | deeper
    · exact own
    · rcases List.mem_append.mp deeper with inLeft | inRight
      · exact ihl leftHashed (below false) x inLeft
      · exact ihr rightHashed (below true) x inRight

theorem calculateOrderedTreeRoot_eq_create (sized : ∀ x, (calcSha256 x).length = 32) {values : List Bytes}
    (nonempty : values ≠ []) (valued : ∀ value ∈ values, value ≠ zeroValueHash calcSha256) :
    calculateOrderedTreeRoot calcSha256 values = (create calcSha256 values (ceilLog2 values.length)).hash := by
  obtain ⟨root, compressed, hashed, holds, sameHash, -, -⟩ := orderedRoot_spec sized nonempty valued
  have inside : 0 * 2 ^ ceilLog2 values.length < values.length := by
    simpa using List.length_pos_iff.mpr nonempty
  rw [calculateOrderedTreeRoot_eq_blockFold values nonempty, ← sameHash,
    hash_of_blockLookup valued compressed hashed holds inside]

/-- The hashes `GetProof` collects in the ordered tree of 32-byte values have 32 bytes each. -/
theorem getProofLoop_create_length (sized : ∀ x, (calcSha256 x).length = 32) {values : List Bytes}
    (nonempty : values ≠ []) (valued : ∀ value ∈ values, value ≠ zeroValueHash calcSha256)
    (values32 : ∀ value ∈ values, value.length = 32) {key : List Bool} {proof out : OrderedTreeProof} {j : Nat}
    (walked : getProofLoop key (ceilLog2 values.length) (create calcSha256 values (ceilLog2 values.length)) proof j =
      some out) :
    ∀ x ∈ out, x ∈ proof ∨ x.length = 32 := by
  obtain ⟨root, -, hashed, holds, -, -, walk⟩ := orderedRoot_spec sized nonempty valued
  rw [walk] at walked
  -- every key of the tree reads a value of the list or the zero value hash
  have reads : ∀ key, (root.lookup calcSha256 key).length = 32 := by
    intro key
    rw [holds, blockLookup]
    split
    · next inside => exact values32 _ (List.getD_eq_getElem _ _ inside.2 ▸ List.getElem_mem inside.2)
    · exact sized _
  intro x member
  exact (getProofLoop_mem_hashes walked x member).imp_right (hashes_length_of_lookup sized hashed reads x)

end Siblings

end OrbsNetwork.Merkle

namespace OrbsNetwork.BlockStorage

open Merkle

/-- `protocol.ReceiptProof` as `GenerateReceiptProof` builds it. -/
structure ReceiptProof where
  header : Bytes
  blockProof : Bytes
  receiptProof : Bytes
  deriving DecidableEq, Repr

/-- The errors of `validators.ValidateReceiptsMerkleRoot`, each with what it wraps. -/
inductive ReceiptsRootError
  | calcReceiptsMerkleRoot (err : String)
  | mismatchedReceiptsRootHash (expected actual : Bytes)
  deriving DecidableEq, Repr

/-- The errors of `validators.ValidateResultsBlockStateDiffHash`, each with what it wraps. -/
inductive StateDiffHashError
  | calcStateDiffHash (err : String)
  | mismatchedStateDiffHash (expected actual : Bytes)
  deriving DecidableEq, Repr

section ReceiptProof

variable (protocol : Protocol) (calcSha256 : Bytes → Bytes)

/-- `digest.CalcReceiptHashes`: `hash.CalcSha256` of each receipt's raw bytes. -/
def calcReceiptHashes (receipts : List Bytes) : List Bytes :=
  receipts.map calcSha256

/-- `digest.CalcReceiptsMerkleRoot`, which never fails. -/
def calcReceiptsMerkleRoot (receipts : List Bytes) : Except String Bytes :=
  .ok (calculateOrderedTreeRoot calcSha256 (calcReceiptHashes calcSha256 receipts))

/-- `digest.CalcStateDiffHash`: `hash.CalcSha256` of the raw state diffs one after another; it never
fails. -/
def calcStateDiffHash (stateDiffs : List Bytes) : Except String Bytes :=
  .ok (calcSha256 stateDiffs.flatten)

/-- `validators.ValidateReceiptsMerkleRoot` with `digest.CalcReceiptsMerkleRoot`, as the consensus
context and Lean Helix call it, on the root in the results block's header and its receipts. -/
def validateReceiptsMerkleRoot (expectedReceiptsMerkleRoot : Bytes) (transactionReceipts : List Bytes) :
    Option ReceiptsRootError :=
  match calcReceiptsMerkleRoot calcSha256 transactionReceipts with
  | .error err => some (.calcReceiptsMerkleRoot err)
  | .ok calculatedReceiptMerkleRoot =>
    if expectedReceiptsMerkleRoot ≠ calculatedReceiptMerkleRoot then
      some (.mismatchedReceiptsRootHash expectedReceiptsMerkleRoot calculatedReceiptMerkleRoot)
    else none

/-- `validators.ValidateResultsBlockStateDiffHash` with `digest.CalcStateDiffHash`, on the hash in the
results block's header and its state diffs. -/
def validateResultsBlockStateDiffHash (expectedStateDiffHash : Bytes) (contractStateDiffs : List Bytes) :
    Option StateDiffHashError :=
  match calcStateDiffHash calcSha256 contractStateDiffs with
  | .error err => some (.calcStateDiffHash err)
  | .ok calculatedStateDiffHash =>
    if expectedStateDiffHash ≠ calculatedStateDiffHash then
      some (.mismatchedStateDiffHash expectedStateDiffHash calculatedStateDiffHash)
    else none

/-- `generateProof`; `none` is a panic of `GetProof`. -/
def generateProof (receipts : List Bytes) (index : Nat) : Option (Except String Bytes) :=
  let hashes := calcReceiptHashes calcSha256 receipts
  ((newOrderedTree calcSha256 hashes).getProof index).map fun proof => proof.map flattenOrderedTreeProof

/-- `GenerateReceiptProof` over the in-memory persistence: the proof of the first receipt with the
hash, in the results block at the height; `none` is a panic. -/
def generateReceiptProof (bp : InMemoryBlockPersistence) (blockHeight : UInt64) (txhash : Bytes) :
    Option (Except String ReceiptProof) :=
  match bp.getResultsBlock blockHeight.toNat with
  | none => none
  | some (.error err) => some (.error err)
  | some (.ok block) =>
    match block.transactionReceipts.findIdx? fun txr => protocol.txhash txr == txhash with
    | some i =>
      (generateProof calcSha256 block.transactionReceipts i).map fun proof =>
        proof.map fun proof => ⟨block.header, block.blockProof, proof⟩
    | none => some (.error s!"could not find transaction inside block {Committee.hexEncode txhash}")

end ReceiptProof

section Spec

variable {protocol : Protocol} {calcSha256 : Bytes → Bytes}

theorem validateReceiptsMerkleRoot_eq_none_iff {expected : Bytes} {transactionReceipts : List Bytes} :
    validateReceiptsMerkleRoot calcSha256 expected transactionReceipts = none ↔
      expected = calculateOrderedTreeRoot calcSha256 (calcReceiptHashes calcSha256 transactionReceipts) := by
  simp [validateReceiptsMerkleRoot, calcReceiptsMerkleRoot]

theorem validateResultsBlockStateDiffHash_eq_none_iff {expected : Bytes} {contractStateDiffs : List Bytes} :
    validateResultsBlockStateDiffHash calcSha256 expected contractStateDiffs = none ↔
      expected = calcSha256 contractStateDiffs.flatten := by
  simp [validateResultsBlockStateDiffHash, calcStateDiffHash]

theorem getResultsBlock_of_stored {bp : InMemoryBlockPersistence} {height : Nat} {block : BlockPairContainer}
    (stored : bp.blocks[height - 1]? = some block) (positive : 0 < height) :
    bp.getResultsBlock height = some (.ok block.resultsBlock) := by
  have inside := (List.getElem?_eq_some_iff.mp stored).1
  obtain ⟨h, rfl⟩ : ∃ h, height = h + 1 := ⟨height - 1, by omega⟩
  rw [Nat.add_sub_cancel] at stored
  rw [InMemoryBlockPersistence.getResultsBlock, InMemoryBlockPersistence.getBlockPairAtHeight, if_neg (by omega)]
  simp [stored, Except.map]

/-- For a receipt of the list, `generateProof` gives the flattened path of at most
`ceilLog2 (length)` 32-byte sibling hashes that rebuilds the list's ordered tree root from the
receipt's hash. -/
theorem generateProof_of_lt (sized : ∀ x, (calcSha256 x).length = 32) {receipts : List Bytes}
    (valued : ∀ receipt ∈ receipts, calcSha256 receipt ≠ zeroValueHash calcSha256) {i : Nat} (below : i < receipts.length) :
    ∃ siblings, generateProof calcSha256 receipts i = some (.ok (flattenOrderedTreeProof siblings)) ∧
      (∀ sibling ∈ siblings, sibling.length = 32) ∧ siblings.length ≤ ceilLog2 receipts.length ∧
      OrderedTree.verify calcSha256 (calcSha256 receipts[i]) siblings
        (calculateOrderedTreeRoot calcSha256 (calcReceiptHashes calcSha256 receipts)) = .ok () := by
  have length : (calcReceiptHashes calcSha256 receipts).length = receipts.length := List.length_map ..
  have nonempty : calcReceiptHashes calcSha256 receipts ≠ [] := List.ne_nil_of_length_pos (by omega)
  have hashesValued : ∀ value ∈ calcReceiptHashes calcSha256 receipts, value ≠ zeroValueHash calcSha256 := by
    intro value member
    obtain ⟨receipt, inReceipts, rfl⟩ := List.mem_map.mp member
    exact valued receipt inReceipts
  have hashes32 : ∀ value ∈ calcReceiptHashes calcSha256 receipts, value.length = 32 := by
    intro value member
    obtain ⟨receipt, -, rfl⟩ := List.mem_map.mp member
    exact sized receipt
  have entry : (calcReceiptHashes calcSha256 receipts).getD i [] = calcSha256 receipts[i] := by
    simp [calcReceiptHashes, below]
  obtain ⟨siblings, walked, short, rebuilt⟩ :=
    orderedTree_walk sized nonempty hashesValued (show i < (calcReceiptHashes calcSha256 receipts).length by omega)
  have siblings32 := getProofLoop_create_length sized nonempty hashesValued hashes32 walked
  refine ⟨siblings, ?_, fun sibling member => (siblings32 sibling member).resolve_left (by simp),
    by rwa [length] at short, ?_⟩
  · have inBounds : ¬((i : Int) < 0 ∨ (i : Int) > (newOrderedTree calcSha256 (calcReceiptHashes calcSha256 receipts)).maxKey) := by
      simp only [newOrderedTree]
      omega
    rw [generateProof, OrderedTree.getProof, if_neg inBounds]
    simp only [newOrderedTree, Int.toNat_natCast]
    rw [walked]
    rfl
  · rw [OrderedTree.verify, ← entry, rebuilt, calculateOrderedTreeRoot_eq_create sized nonempty hashesValued]
    simp

/-- For a block pair stored at any height whose results block passed `ValidateReceiptsMerkleRoot`,
with no receipt hashing to the zero value hash: for a transaction hash some receipt carries,
`GenerateReceiptProof` returns the results header and block proof with the flattened path of a
receipt carrying it, at most `ceilLog2 n` sibling hashes of 32 bytes each, which `Verify` accepts
for the hash of that receipt against the receipts root in the header; for any other hash, it
reports that it found no such transaction. -/
theorem receipt_proof_verifies_against_header_root (sized : ∀ x, (calcSha256 x).length = 32)
    (receiptsMerkleRootHash : Bytes → Bytes) {bp : InMemoryBlockPersistence} {blockHeight : UInt64}
    {block : BlockPairContainer} (stored : bp.blocks[blockHeight.toNat - 1]? = some block) (positive : 0 < blockHeight)
    (valued : ∀ receipt ∈ block.resultsBlock.transactionReceipts, calcSha256 receipt ≠ zeroValueHash calcSha256)
    (rootChecked : validateReceiptsMerkleRoot calcSha256 (receiptsMerkleRootHash block.resultsBlock.header)
      block.resultsBlock.transactionReceipts = none)
    (txhash : Bytes) :
    ((∃ receipt ∈ block.resultsBlock.transactionReceipts, protocol.txhash receipt = txhash) →
      ∃ receipt ∈ block.resultsBlock.transactionReceipts, protocol.txhash receipt = txhash ∧
        ∃ siblings : OrderedTreeProof,
          generateReceiptProof protocol calcSha256 bp blockHeight txhash =
            some (.ok ⟨block.resultsBlock.header, block.resultsBlock.blockProof, flattenOrderedTreeProof siblings⟩) ∧
          (∀ sibling ∈ siblings, sibling.length = 32) ∧
          siblings.length ≤ ceilLog2 block.resultsBlock.transactionReceipts.length ∧
          OrderedTree.verify calcSha256 (calcSha256 receipt) siblings
            (receiptsMerkleRootHash block.resultsBlock.header) = .ok ()) ∧
    ((∀ receipt ∈ block.resultsBlock.transactionReceipts, protocol.txhash receipt ≠ txhash) →
      generateReceiptProof protocol calcSha256 bp blockHeight txhash =
        some (.error s!"could not find transaction inside block {Committee.hexEncode txhash}")) := by
  have resultsBlock := getResultsBlock_of_stored stored (UInt64.lt_iff_toNat_lt.mp positive)
  have rootEq : receiptsMerkleRootHash block.resultsBlock.header =
      calculateOrderedTreeRoot calcSha256 (calcReceiptHashes calcSha256 block.resultsBlock.transactionReceipts) := by
    exact validateReceiptsMerkleRoot_eq_none_iff.mp rootChecked
  refine ⟨fun ⟨receipt, member, carries⟩ => ?_, fun absent => ?_⟩
  · -- the scan stops at the first receipt with the hash
    have found : (block.resultsBlock.transactionReceipts.findIdx? fun txr => protocol.txhash txr == txhash).isSome := by
      rw [List.findIdx?_isSome, List.any_eq_true]
      exact ⟨receipt, member, by simpa using carries⟩
    obtain ⟨i, atIndex⟩ := Option.isSome_iff_exists.mp found
    obtain ⟨below, hit, -⟩ := List.findIdx?_eq_some_iff_getElem.mp atIndex
    obtain ⟨siblings, generated, siblings32, short, verified⟩ := generateProof_of_lt sized valued below
    refine ⟨_, List.getElem_mem below, by simpa using hit, siblings, ?_, siblings32, short, by rwa [rootEq]⟩
    rw [generateReceiptProof, resultsBlock]
    simp only [atIndex, generated]
    rfl
  · have missing : (block.resultsBlock.transactionReceipts.findIdx? fun txr => protocol.txhash txr == txhash) = none := by
      rw [List.findIdx?_eq_none_iff]
      intro receipt member
      simpa using absent receipt member
    rw [generateReceiptProof, resultsBlock]
    simp only [missing]

/-- A hash of 32 bytes that tells inputs apart by their length. -/
def lengthSha256 (x : Bytes) : Bytes :=
  List.replicate 31 0 ++ [x.length.toUInt8]

/-- The readers of `firstByteProtocol`, under which a receipt is its own transaction hash. -/
def receiptHashProtocol : Protocol :=
  { firstByteProtocol with txhash := fun receipt => receipt }

/-- A block pair with two receipts, whose results header is the root of their ordered tree. -/
def twoReceiptsBlock : BlockPairContainer :=
  ⟨⟨[1], [], [], []⟩,
    ⟨calculateOrderedTreeRoot lengthSha256 (calcReceiptHashes lengthSha256 [[1], [2, 2]]), [[1], [2, 2]], [], []⟩⟩

theorem receipt_proof_verifies_against_header_root_two :
    (∀ x, (lengthSha256 x).length = 32) ∧ (⟨[twoReceiptsBlock]⟩ : InMemoryBlockPersistence).blocks[(1 : UInt64).toNat - 1]? =
      some twoReceiptsBlock ∧ (0 : UInt64) < 1 ∧
    (∀ receipt ∈ twoReceiptsBlock.resultsBlock.transactionReceipts, lengthSha256 receipt ≠ zeroValueHash lengthSha256) ∧
    validateReceiptsMerkleRoot lengthSha256 twoReceiptsBlock.resultsBlock.header
      twoReceiptsBlock.resultsBlock.transactionReceipts = none ∧
    (((∃ receipt ∈ twoReceiptsBlock.resultsBlock.transactionReceipts, receiptHashProtocol.txhash receipt = [2, 2]) →
      ∃ receipt ∈ twoReceiptsBlock.resultsBlock.transactionReceipts, receiptHashProtocol.txhash receipt = [2, 2] ∧
        ∃ siblings : OrderedTreeProof,
          generateReceiptProof receiptHashProtocol lengthSha256 ⟨[twoReceiptsBlock]⟩ 1 [2, 2] =
            some (.ok ⟨twoReceiptsBlock.resultsBlock.header, twoReceiptsBlock.resultsBlock.blockProof,
              flattenOrderedTreeProof siblings⟩) ∧
          (∀ sibling ∈ siblings, sibling.length = 32) ∧
          siblings.length ≤ ceilLog2 twoReceiptsBlock.resultsBlock.transactionReceipts.length ∧
          OrderedTree.verify lengthSha256 (lengthSha256 receipt) siblings (id twoReceiptsBlock.resultsBlock.header) =
            .ok ()) ∧
    ((∀ receipt ∈ twoReceiptsBlock.resultsBlock.transactionReceipts, receiptHashProtocol.txhash receipt ≠ [2, 2]) →
      generateReceiptProof receiptHashProtocol lengthSha256 ⟨[twoReceiptsBlock]⟩ 1 [2, 2] =
        some (.error s!"could not find transaction inside block {Committee.hexEncode [2, 2]}"))) :=
  have sized : ∀ x, (lengthSha256 x).length = 32 := fun x => by simp [lengthSha256]
  have rootChecked : validateReceiptsMerkleRoot lengthSha256 twoReceiptsBlock.resultsBlock.header
      twoReceiptsBlock.resultsBlock.transactionReceipts = none := by
    simp [validateReceiptsMerkleRoot, calcReceiptsMerkleRoot, twoReceiptsBlock]
  ⟨sized, rfl, by decide, by decide, rootChecked,
    receipt_proof_verifies_against_header_root sized id rfl (by decide) (by decide) rootChecked [2, 2]⟩

end Spec

end OrbsNetwork.BlockStorage
