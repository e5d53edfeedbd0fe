import OrbsNetwork.Merkle.Lookup

namespace OrbsNetwork.Merkle

section Shape

variable (calcSha256 : Bytes → Bytes)

/-- A compressed trie, whatever its sandbox entries: every node holds a value or has two
children, and every stored hash is the hash of its node. -/
def Shaped : Node → Prop
  | .nil => False
  | n@(.node _ _ hash left right _) =>
    hash = hashTrieNode calcSha256 n ∧ (left = .nil ∨ Shaped left) ∧ (right = .nil ∨ Shaped right) ∧
      (n.hasValue calcSha256 = true ∨ (left ≠ .nil ∧ right ≠ .nil))

/-- No node has a sandbox entry, as between two updates. -/
def Clean : Node → Prop
  | .nil => True
  | .node _ _ _ left right sandbox => sandbox = none ∧ Clean left ∧ Clean right

/-- What hangs below an arc the running update has not marked dirty: nothing, or a canonical
subtree left from earlier updates. -/
def Settled (n : Node) : Prop :=
  n = .nil ∨ (Shaped calcSha256 n ∧ Clean n)

/-- What hangs below a dirty arc, so that `collapseAndHash` will visit it: a node made by
`createNode`, or a sandboxed node whose dirty arcs lead to pending subtrees and whose other
arcs to settled ones. -/
def Pending : Node → Prop
  | .nil => False
  | .node _ _ _ left right none => left = .nil ∧ right = .nil
  | .node _ _ _ left right (some entry) =>
    (if entry.left then Pending left else Settled calcSha256 left) ∧
      (if entry.right then Pending right else Settled calcSha256 right)

/-- The root between updates: the node `createEmptyTrieNode` makes, or a canonical trie. -/
def Canonical (root : Node) : Prop :=
  Clean root ∧ (root = createEmptyTrieNode calcSha256 ∨ Shaped calcSha256 root)

variable {calcSha256}

theorem Shaped.ne_nil {n : Node} (shaped : Shaped calcSha256 n) : n ≠ .nil := by
  rintro rfl
  exact shaped

theorem Pending.ne_nil {n : Node} (pending : Pending calcSha256 n) : n ≠ .nil := by
  rintro rfl
  exact pending

theorem Settled.nil : Settled calcSha256 .nil :=
  Or.inl rfl

theorem pending_fresh {p : List Bool} {v h : Bytes} : Pending calcSha256 (.node p v h .nil .nil none) :=
  ⟨rfl, rfl⟩

theorem pending_createNode (p : List Bool) (v : Bytes) : Pending calcSha256 (createNode p v) :=
  pending_fresh

theorem pending_working {p : List Bool} {v h : Bytes} {l r : Node} {entry : DirtyNode} :
    Pending calcSha256 (.node p v h l r (some entry)) ↔
      (if entry.left then Pending calcSha256 l else Settled calcSha256 l) ∧
        (if entry.right then Pending calcSha256 r else Settled calcSha256 r) :=
  Iff.rfl

theorem shaped_node {p : List Bool} {v h : Bytes} {l r : Node} {s : Option DirtyNode} :
    Shaped calcSha256 (.node p v h l r s) ↔
      h = hashTrieNode calcSha256 (.node p v h l r s) ∧ (l = .nil ∨ Shaped calcSha256 l) ∧
        (r = .nil ∨ Shaped calcSha256 r) ∧
          ((Node.node p v h l r s).hasValue calcSha256 = true ∨ (l ≠ .nil ∧ r ≠ .nil)) :=
  Iff.rfl

theorem clean_node {p : List Bool} {v h : Bytes} {l r : Node} {s : Option DirtyNode} :
    Clean (.node p v h l r s) ↔ s = none ∧ Clean l ∧ Clean r :=
  Iff.rfl

/-- The settled part of a node is what is nil or shaped, here in the shape `Shaped` asks for. -/
theorem Settled.nil_or_shaped {n : Node} (settled : Settled calcSha256 n) : n = .nil ∨ Shaped calcSha256 n :=
  settled.imp id And.left

/-- A dirty arc is never nil, so a pending leaf has no dirty arc. -/
theorem pending_leaf_entry {p : List Bool} {v h : Bytes} {entry : DirtyNode}
    (pending : Pending calcSha256 (.node p v h .nil .nil (some entry))) :
    entry.left = false ∧ entry.right = false := by
  obtain ⟨left, right⟩ := pending
  constructor
  · cases dirty : entry.left
    · rfl
    · simp only [dirty, if_true] at left
      exact absurd left id
  · cases dirty : entry.right
    · rfl
    · simp only [dirty, if_true] at right
      exact absurd right id

theorem clean_dropSandbox (n : Node) : Clean n.dropSandbox := by
  induction n with
  | nil => trivial
  | node _ _ _ _ _ _ ihLeft ihRight => exact ⟨rfl, ihLeft, ihRight⟩

theorem dropSandbox_of_clean {n : Node} (clean : Clean n) : n.dropSandbox = n := by
  induction n with
  | nil => rfl
  | node p v h l r s ihLeft ihRight =>
    obtain ⟨rfl, cleanLeft, cleanRight⟩ := clean
    simp only [Node.dropSandbox, ihLeft cleanLeft, ihRight cleanRight]

@[simp] theorem dropSandbox_eq_nil {n : Node} : n.dropSandbox = .nil ↔ n = .nil := by
  cases n <;> simp [Node.dropSandbox]

theorem hash_dropSandbox (n : Node) : n.dropSandbox.hash = n.hash := by
  cases n <;> rfl

theorem hashTrieNode_dropSandbox (n : Node) :
    hashTrieNode calcSha256 n.dropSandbox = hashTrieNode calcSha256 n := by
  cases n with
  | nil => rfl
  | node p v h l r s =>
    have leftNil : l.dropSandbox.isNil = l.isNil := by cases l <;> rfl
    have rightNil : r.dropSandbox.isNil = r.isNil := by cases r <;> rfl
    simp only [Node.dropSandbox, hashTrieNode, Node.isLeaf, generateLeafParts, generateNodeParts,
      Node.left_node, Node.right_node, Node.value_node, Node.path_node, leftNil, rightNil,
      hash_dropSandbox]
    rfl

theorem Shaped.dropSandbox {n : Node} (shaped : Shaped calcSha256 n) : Shaped calcSha256 n.dropSandbox := by
  induction n with
  | nil => exact shaped
  | node p v h l r s ihLeft ihRight =>
    obtain ⟨hashed, left, right, full⟩ := shaped
    refine ⟨?_, left.imp (fun same => by simp [same]) ihLeft, right.imp (fun same => by simp [same]) ihRight, ?_⟩
    · show h = hashTrieNode calcSha256 (Node.node p v h l r s).dropSandbox
      rw [hashTrieNode_dropSandbox]
      exact hashed
    · simpa [Node.dropSandbox, hasValue_iff] using full

theorem lookup_dropSandbox (n : Node) : n.dropSandbox.lookup calcSha256 = n.lookup calcSha256 := by
  induction n with
  | nil => rfl
  | node p v h l r s ihLeft ihRight =>
    funext key
    simp only [Node.dropSandbox, Node.lookup, ihLeft, ihRight]

end Shape

end OrbsNetwork.Merkle
