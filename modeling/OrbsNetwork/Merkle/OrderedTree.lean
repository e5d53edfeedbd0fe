import OrbsNetwork.Merkle.Forest
import Mathlib.Data.Nat.Log

namespace OrbsNetwork.Merkle

/-- `OrderedTreeProof`: the sibling hashes from the root down. -/
abbrev OrderedTreeProof := List Bytes

/-- `OrderedTree`: the collapsed trie of the values, the bit length of its keys and the last
index. -/
structure OrderedTree where
  root : Node
  keySize : Nat
  maxKey : Int
  deriving DecidableEq, Repr

/-- `getEmptyHash`: 32 zero bytes. -/
def getEmptyHash : Bytes :=
  List.replicate 32 0

/-- `int(math.Ceil(math.Log2(float64(n))))`, taken as its exact value: the float computation
returns it for every length that a slice can have in a 64-bit address space. At zero Go gets
the conversion of minus infinity, which neither caller reads. -/
def ceilLog2 (n : Nat) : Nat :=
  Nat.clog 2 n

/-- `bytes.Compare(a, b) > 0`: byte slices in lexicographic order, a prefix first. -/
def bytesCompareGt (a b : Bytes) : Bool :=
  decide (b < a)

/-- `FlattenOrderedTreeProof`. -/
def flattenOrderedTreeProof (proof : OrderedTreeProof) : Bytes :=
  proof.flatten

section Hashing

variable (calcSha256 : Bytes → Bytes)

/-- `hashTwo`: the two hashes in order, so that the result does not depend on their sides. -/
def hashTwo (left right : Bytes) : Bytes :=
  if bytesCompareGt left right then hashBytes calcSha256 [right, left]
  else hashBytes calcSha256 [left, right]

/-- The loop of `calculateOrderedTreeRootCollapseOneLevel` from the odd index `j`, for the
`pairs` iterations left of `for j := 1; j < size; j = j + 2`. When `inPlace`, source and
destination are one slice and each read sees the writes before it. -/
def collapsePairs (inPlace : Bool) (src : List Bytes) (j : Nat) : Nat → List Bytes → List Bytes
  | 0, dst => dst
  | pairs + 1, dst =>
    let read := if inPlace then dst else src
    collapsePairs inPlace src (j + 2) pairs
      (dst.set (j / 2) (hashTwo calcSha256 (read.getD (j - 1) []) (read.getD j [])))

/-- `calculateOrderedTreeRootCollapseOneLevel(src, dst, size)`: the pairs of the first `size`
entries hashed into the first half of `dst`, an odd last entry carried; the new size. -/
def calculateOrderedTreeRootCollapseOneLevel (inPlace : Bool) (src dst : List Bytes) (size : Nat) :
    List Bytes × Nat :=
  let dst := collapsePairs calcSha256 inPlace src 1 (size / 2) dst
  let read := if inPlace then dst else src
  if size % 2 ≠ 0 then (dst.set (size / 2) (read.getD (size - 1) []), size / 2 + 1)
  else (dst, size / 2)

/-- The rounds of `CalculateOrderedTreeRoot` after the first, each in place. -/
def collapseRounds : Nat → List Bytes × Nat → List Bytes × Nat
  | 0, state => state
  | rounds + 1, (nodes, n) =>
    collapseRounds rounds (calculateOrderedTreeRootCollapseOneLevel calcSha256 true nodes nodes n)

/-- `CalculateOrderedTreeRoot`: a first round from the values into a buffer of half their
number plus one, then `ceil(log2 n) - 1` rounds in place. -/
def calculateOrderedTreeRoot (values : List Bytes) : Bytes :=
  if values.length = 0 then getEmptyHash
  else
    let nodes := List.replicate (values.length / 2 + 1) []
    let first := calculateOrderedTreeRootCollapseOneLevel calcSha256 false values nodes values.length
    (collapseRounds calcSha256 (ceilLog2 values.length - 1) first).1.getD 0 []

/-- `treeHash`: a leaf hashes as its value, a node as the ordered pair of its children. -/
def treeHash (n : Node) : Bytes :=
  if n.isLeaf then n.value else hashTwo calcSha256 n.left.hash n.right.hash

/-- `toKey(index, keySize)`: the low `keySize` bits of the index, the most significant first. -/
def toKey (index keySize : Nat) : List Bool :=
  (List.range keySize).map fun i => index.testBit (keySize - 1 - i)

/-- `create`: the values inserted at their indices into one sandbox over the empty node
`&node{}`, whose value is nil and so is not the zero value hash; then one collapse. -/
def create (values : List Bytes) (keySize : Nat) : Node :=
  let root : Node := .node [] [] [] .nil .nil none
  if values.length = 0 then root.setHash getEmptyHash
  else
    let root := (values.zipIdx.foldl (fun root entry =>
      (insert calcSha256 entry.1 root (toKey entry.2 keySize)).1) root)
    collapseAndHash calcSha256 (treeHash calcSha256) root

/-- `NewOrderedTree`. -/
def newOrderedTree (values : List Bytes) : OrderedTree :=
  let keySize := ceilLog2 values.length
  ⟨create calcSha256 values keySize, keySize, (values.length : Int) - 1⟩

def OrderedTree.getRoot (t : OrderedTree) : Bytes :=
  t.root.hash

/-- The loop of `GetProof` from bit `i` at node `current`: the bit index also skips the residual
path of each node it passes. `none` is a panic: a nil node dereferenced or a key bit read out of
range. -/
def getProofLoop (keyInBytes : List Bool) (keySize : Nat) :
    Node → OrderedTreeProof → Nat → Option OrderedTreeProof
  | .nil, proof, i => if i < keySize then none else some proof
  | .node path _ _ left right _, proof, i =>
    if i < keySize then
      let i := i + path.length
      match keyInBytes[i]? with
      | none => none
      | some false =>
        if right.isNil || left.isNil then none
        else if left.isLeaf then some (proof ++ [right.hash])
        else getProofLoop keyInBytes keySize left (proof ++ [right.hash]) (i + 1)
      | some true =>
        if left.isNil || right.isNil then none
        else if right.isLeaf then some (proof ++ [left.hash])
        else getProofLoop keyInBytes keySize right (proof ++ [left.hash]) (i + 1)
    else some proof

/-- `GetProof`: `none` is a panic, an error is the out-of-bounds index. -/
def OrderedTree.getProof (t : OrderedTree) (index : Int) : Option (Except String OrderedTreeProof) :=
  if index < 0 ∨ index > t.maxKey then some (.error "index for proof is out of bounds")
  else (getProofLoop (toKey index.toNat t.keySize) t.keySize t.root [] 0).map .ok

/-- The package function `Verify` of the ordered tree: the value hashed with the proof's siblings
from the last one up. -/
def OrderedTree.verify (value : Bytes) (proof : OrderedTreeProof) (root : Bytes) : Except String Unit :=
  let current := proof.foldr (fun sibling current => hashTwo calcSha256 current sibling) value
  if root ≠ current then .error "proof hash did not match the root" else .ok ()

end Hashing

end OrbsNetwork.Merkle
