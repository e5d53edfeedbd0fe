import OrbsNetwork.Merkle.Insert

namespace OrbsNetwork.Merkle

section Forest

variable (calcSha256 : Bytes → Bytes)

/-- `nodeHasherFunc`: how `collapseAndHash` computes the hash of the nodes it visits. -/
abbrev NodeHasherFunc := Node → Bytes

def collapseOnlyChild (current : Node) (onlyChild : Bool) : Node :=
  let child := current.getChild onlyChild
  child.clone.setPath (current.path ++ [onlyChild] ++ child.path)

/-- Arcs marked dirty in the node's sandbox entry take the collapsed child; the others keep
the child they have. The collapsed children are passed in by `collapseAndHash`. -/
def collapseDirtyChildren (current collapsedLeft collapsedRight : Node) : Node :=
  match current.sandbox with
  | none => current
  | some entry =>
    let current := if entry.left then current.setChild false collapsedLeft else current
    if entry.right then current.setChild true collapsedRight else current

def collapseAndHash (f : NodeHasherFunc) : Node → Node
  | .nil => .nil
  | original@(.node _ _ _ left right _) =>
    let current :=
      if !original.isLeaf then
        collapseDirtyChildren original (collapseAndHash f left) (collapseAndHash f right)
      else original
    if !current.hasValue calcSha256 && current.isLeaf then .nil
    else
      let current :=
        if current.hasValue calcSha256 then current
        else if !current.left.isNil && current.right.isNil then collapseOnlyChild current false
        else if current.left.isNil && !current.right.isNil then collapseOnlyChild current true
        else current
      current.setHash (f current)

/-- `toBin(s, size)`: bit `i` is bit `7 - i % 8` of byte `i / 8`. -/
def toBin (s : Bytes) (size : Nat) : List Bool :=
  (List.range size).map fun i => (s.getD (i / 8) 0 >>> (7 - i % 8 : Nat).toUInt8) &&& 1 == 1

def toBinSize (s : Bytes) : Nat :=
  s.length * 8

structure TrieDiff where
  key : Bytes
  value : Bytes
  deriving DecidableEq, Repr

abbrev TrieDiffs := List TrieDiff

structure Forest where
  roots : List Node
  deriving DecidableEq, Repr

def newForest : Forest × Bytes :=
  let emptyNode := createEmptyTrieNode calcSha256
  (⟨[emptyNode]⟩, emptyNode.hash)

/-- The newest root with the requested hash. -/
def Forest.findRoot (f : Forest) (rootHash : Bytes) : Option Node :=
  f.roots.reverse.find? fun root => root.hash == rootHash

def Forest.appendRoot (f : Forest) (root : Node) : Forest :=
  ⟨f.roots ++ [root]⟩

/-- The new root built by `Update` from `root`: every diff inserted in order into one sandbox,
then one collapse over the dirty nodes; an empty trie is replaced by a fresh empty node. -/
def updateRoot (root : Node) (diffs : TrieDiffs) : Node :=
  let root := diffs.foldl (fun root diff =>
    (insert calcSha256 diff.value root (toBin diff.key (toBinSize diff.key))).1) root
  let root := collapseAndHash calcSha256 (hashTrieNode calcSha256) root
  (if root.isNil then createEmptyTrieNode calcSha256 else root).dropSandbox

def Forest.update (f : Forest) (rootMerkle : Bytes) (diffs : TrieDiffs) : Except String (Bytes × Forest) :=
  match f.findRoot rootMerkle with
  | none => .error "must start with valid root"
  | some root =>
    let root := updateRoot calcSha256 root diffs
    .ok (root.hash, f.appendRoot root)

/-- `Forget` drops the first root with the hash, trying the oldest root first. -/
def Forest.forget (f : Forest) (rootHash : Bytes) : Forest :=
  match f.roots with
  | [] => f
  | first :: rest =>
    if first.hash == rootHash then ⟨rest⟩
    else ⟨f.roots.eraseP fun root => root.hash == rootHash⟩

end Forest

end OrbsNetwork.Merkle
