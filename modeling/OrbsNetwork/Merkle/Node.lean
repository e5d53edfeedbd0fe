import Mathlib

namespace OrbsNetwork

/-- A Go byte slice. A nil slice and an empty one are the same value here, as they are
for `bytes.Equal`, which is the only comparison the modelled code makes on them. -/
abbrev Bytes := List UInt8

namespace Merkle

/-- The entry of a node in the `dirtyNodes` sandbox of the update in progress: which of its
child arcs were replaced. -/
structure DirtyNode where
  left : Bool := false
  right : Bool := false
  deriving DecidableEq, Repr

/-- `*node`, with `nil` for Go's nil pointer. Paths are slices of bits (Go stores them as
bytes 0 and 1). The last field is the node's entry in the sandbox of the running update:
Go keys that map by pointer, and it only ever holds nodes the running update created, none of
which is shared, so the entry can travel with its node. -/
inductive Node where
  | nil
  | node (path : List Bool) (value hash : Bytes) (left right : Node) (sandbox : Option DirtyNode)
  deriving DecidableEq, Repr

namespace Node

def path : Node → List Bool
  | nil => []
  | node path .. => path

def value : Node → Bytes
  | nil => []
  | node _ value .. => value

def hash : Node → Bytes
  | nil => []
  | node _ _ hash .. => hash

def left : Node → Node
  | nil => nil
  | node _ _ _ left .. => left

def right : Node → Node
  | nil => nil
  | node _ _ _ _ right _ => right

def sandbox : Node → Option DirtyNode
  | nil => none
  | node _ _ _ _ _ sandbox => sandbox

def isNil : Node → Bool
  | nil => true
  | node .. => false

def isLeaf (n : Node) : Bool :=
  n.left.isNil && n.right.isNil

def getChild (n : Node) (bit : Bool) : Node :=
  if bit then n.right else n.left

def setChild : Node → Bool → Node → Node
  | nil, _, _ => nil
  | node path value hash left right sandbox, bit, child =>
    if bit then node path value hash left child sandbox else node path value hash child right sandbox

def setPath : Node → List Bool → Node
  | nil, _ => nil
  | node _ value hash left right sandbox, path => node path value hash left right sandbox

def setValue : Node → Bytes → Node
  | nil, _ => nil
  | node path _ hash left right sandbox, value => node path value hash left right sandbox

def setHash : Node → Bytes → Node
  | nil, _ => nil
  | node path value _ left right sandbox, hash => node path value hash left right sandbox

/-- `clone` copies path, value and children; the hash field of the copy is left empty and the
copy is a new pointer, so it has no sandbox entry. -/
def clone : Node → Node
  | nil => nil
  | node path value _ left right _ => node path value [] left right none

/-- `dirtyNodes.init`: a fresh entry with no dirty arc. -/
def init : Node → Node
  | nil => nil
  | node path value hash left right _ => node path value hash left right (some {})

/-- `dirtyNodes.set`: mark one arc dirty, creating the entry when the node has none. -/
def set : Node → Bool → Node
  | nil, _ => nil
  | node path value hash left right sandbox, arc =>
    let entry := sandbox.getD {}
    node path value hash left right
      (some (if arc then { entry with right := true } else { entry with left := true }))

/-- The sandbox dies with the update that filled it: the next update starts with an empty one. -/
def dropSandbox : Node → Node
  | nil => nil
  | node path value hash left right _ => node path value hash left.dropSandbox right.dropSandbox none

@[simp] theorem path_node {p : List Bool} {v h : Bytes} {l r : Node} {s : Option DirtyNode} :
    (node p v h l r s).path = p := rfl
@[simp] theorem value_node {p : List Bool} {v h : Bytes} {l r : Node} {s : Option DirtyNode} :
    (node p v h l r s).value = v := rfl
@[simp] theorem hash_node {p : List Bool} {v h : Bytes} {l r : Node} {s : Option DirtyNode} :
    (node p v h l r s).hash = h := rfl
@[simp] theorem left_node {p : List Bool} {v h : Bytes} {l r : Node} {s : Option DirtyNode} :
    (node p v h l r s).left = l := rfl
@[simp] theorem right_node {p : List Bool} {v h : Bytes} {l r : Node} {s : Option DirtyNode} :
    (node p v h l r s).right = r := rfl
@[simp] theorem sandbox_node {p : List Bool} {v h : Bytes} {l r : Node} {s : Option DirtyNode} :
    (node p v h l r s).sandbox = s := rfl
@[simp] theorem isNil_nil : nil.isNil = true := rfl
@[simp] theorem isNil_node {p : List Bool} {v h : Bytes} {l r : Node} {s : Option DirtyNode} :
    (node p v h l r s).isNil = false := rfl
@[simp] theorem left_nil : nil.left = nil := rfl
@[simp] theorem right_nil : nil.right = nil := rfl
@[simp] theorem hash_nil : nil.hash = [] := rfl

@[simp] theorem setChild_false {p : List Bool} {v h : Bytes} {l r c : Node} {s : Option DirtyNode} :
    (node p v h l r s).setChild false c = node p v h c r s := rfl
@[simp] theorem setChild_true {p : List Bool} {v h : Bytes} {l r c : Node} {s : Option DirtyNode} :
    (node p v h l r s).setChild true c = node p v h l c s := rfl

theorem isNil_iff {n : Node} : n.isNil = true ↔ n = nil := by
  cases n <;> simp

theorem isNil_eq_false_iff {n : Node} : n.isNil = false ↔ n ≠ nil := by
  cases n <;> simp

theorem getChild_false (n : Node) : n.getChild false = n.left := rfl
theorem getChild_true (n : Node) : n.getChild true = n.right := rfl

end Node

/-- `bytes.HasPrefix(s, prefix)` on bit slices. -/
def hasPrefix (s pre : List Bool) : Bool :=
  pre.isPrefixOf s

/-- The bytes a bit slice hashes as: Go keeps one bit per byte. -/
def bitBytes (bits : List Bool) : Bytes :=
  bits.map fun bit => if bit then 1 else 0

/-- `copy` of a hash into a fresh zeroed slice of `SHA256_HASH_SIZE_BYTES`. -/
def hashSlot (h : Bytes) : Bytes :=
  h.take 32 ++ List.replicate (32 - h.length) 0

section Hashing

variable (calcSha256 : Bytes → Bytes)

/-- `hashBytes(parts...)`: `hash.CalcSha256` writes every part into one digest. -/
def hashBytes (parts : List Bytes) : Bytes :=
  calcSha256 parts.flatten

def zeroValueHash : Bytes :=
  calcSha256 []

def Node.hasValue (n : Node) : Bool :=
  !(zeroValueHash calcSha256 == n.value)

def generateLeafParts (n : Node) : List Bytes :=
  [n.value, bitBytes n.path]

/-- A nil child contributes the zeroed slot, which is what `hashSlot` of the empty hash is. -/
def generateNodeParts (n : Node) : List Bytes :=
  [hashSlot n.left.hash, hashSlot n.right.hash, bitBytes n.path]

def hashTrieNode (n : Node) : Bytes :=
  if n.isLeaf then hashBytes calcSha256 (generateLeafParts n)
  else hashBytes calcSha256 (generateNodeParts n)

def createNode (path : List Bool) (valueHash : Bytes) : Node :=
  .node path valueHash [] .nil .nil none

def createEmptyTrieNode : Node :=
  (createNode [] (zeroValueHash calcSha256)).setHash
    (hashTrieNode calcSha256 (createNode [] (zeroValueHash calcSha256)))

theorem hasValue_iff {n : Node} : n.hasValue calcSha256 = true ↔ n.value ≠ zeroValueHash calcSha256 := by
  simp only [Node.hasValue, Bool.not_eq_eq_eq_not, Bool.not_true, beq_eq_false_iff_ne]
  exact ne_comm

theorem hasValue_eq_false_iff {n : Node} : n.hasValue calcSha256 = false ↔ n.value = zeroValueHash calcSha256 := by
  simp only [Node.hasValue, Bool.not_eq_eq_eq_not, Bool.not_false, beq_iff_eq]
  exact eq_comm

end Hashing

end Merkle

end OrbsNetwork
