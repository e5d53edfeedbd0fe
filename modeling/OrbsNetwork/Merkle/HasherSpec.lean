import OrbsNetwork.Merkle.CollapseSpec

/-! What the collapse decides does not read a hash, so the trie it leaves has one shape whatever
the hasher, and on a trie built from nothing every stored hash is the hasher's. -/

namespace OrbsNetwork.Merkle

section HasherSpec

variable (calcSha256 : Bytes → Bytes)

open Node

/-- A node without its stored hashes and sandbox entries. -/
def Node.skeleton : Node → Node
  | nil => nil
  | node path value _ left right _ => node path value [] left.skeleton right.skeleton none

/-- The part of `collapseAndHash` after the children: an empty leaf pruned, a valueless node with
one child merged into it, and the hash computed. -/
def finishCollapse (f : NodeHasherFunc) (current : Node) : Node :=
  if !current.hasValue calcSha256 && current.isLeaf then .nil
  else
    let current :=
      if current.hasValue calcSha256 then current
      else if !current.left.isNil && current.right.isNil then collapseOnlyChild current false
      else if current.left.isNil && !current.right.isNil then collapseOnlyChild current true
      else current
    current.setHash (f current)

/-- A compressed trie, whatever its hashes: every node holds a value or has two children. -/
def Compressed : Node → Prop
  | nil => False
  | n@(node _ _ _ left right _) =>
    (left = nil ∨ Compressed left) ∧ (right = nil ∨ Compressed right) ∧
      (n.hasValue calcSha256 = true ∨ (left ≠ nil ∧ right ≠ nil))

/-- Every stored hash is what the hasher computes for its node. -/
def HashedBy (f : NodeHasherFunc) : Node → Prop
  | nil => True
  | n@(node _ _ stored left right _) => stored = f n ∧ HashedBy f left ∧ HashedBy f right

/-- No node stores a hash, as in a trie that `insert` built from nodes it created. -/
def Unhashed : Node → Prop
  | nil => True
  | node _ _ stored left right _ => stored = [] ∧ Unhashed left ∧ Unhashed right

variable {calcSha256}

section Skeleton

@[simp] theorem skeleton_nil : nil.skeleton = nil := rfl

theorem skeleton_node {p : List Bool} {v h : Bytes} {l r : Node} {s : Option DirtyNode} :
    (node p v h l r s).skeleton = node p v [] l.skeleton r.skeleton none := rfl

@[simp] theorem skeleton_eq_nil {n : Node} : n.skeleton = nil ↔ n = nil := by
  cases n <;> simp [skeleton_node]

theorem isNil_skeleton (n : Node) : n.skeleton.isNil = n.isNil := by
  cases n <;> rfl

theorem path_skeleton (n : Node) : n.skeleton.path = n.path := by
  cases n <;> rfl

theorem hasValue_skeleton (n : Node) : n.skeleton.hasValue calcSha256 = n.hasValue calcSha256 := by
  cases n <;> rfl

theorem getChild_skeleton (n : Node) (arc : Bool) : n.skeleton.getChild arc = (n.getChild arc).skeleton := by
  cases n <;> cases arc <;> rfl

theorem skeleton_setHash (n : Node) (hash : Bytes) : (n.setHash hash).skeleton = n.skeleton := by
  cases n <;> rfl

theorem skeleton_collapseOnlyChild (n : Node) (arc : Bool) :
    (collapseOnlyChild n arc).skeleton =
      (n.getChild arc).skeleton.setPath (n.path ++ [arc] ++ (n.getChild arc).path) := by
  unfold collapseOnlyChild
  cases n.getChild arc <;> rfl

theorem lookup_skeleton (n : Node) : n.skeleton.lookup calcSha256 = n.lookup calcSha256 := by
  induction n with
  | nil => rfl
  | node p v h l r s ihLeft ihRight =>
    funext key
    simp only [skeleton_node, lookup, ihLeft, ihRight]

theorem compressed_skeleton {n : Node} : Compressed calcSha256 n.skeleton ↔ Compressed calcSha256 n := by
  induction n with
  | nil => rfl
  | node p v h l r s ihLeft ihRight =>
    simp only [skeleton_node, Compressed, skeleton_eq_nil, ihLeft, ihRight, hasValue_iff, value_node, ne_eq]

/-- A compressed subtree holds at least one value. -/
theorem Compressed.exists_value {n : Node} (compressed : Compressed calcSha256 n) :
    ∃ key, n.lookup calcSha256 key ≠ zeroValueHash calcSha256 := by
  induction n with
  | nil => exact compressed.elim
  | node p v h l r s ihLeft _ =>
    obtain ⟨left, -, full⟩ := compressed
    rcases full with valued | ⟨leftNotNil, -⟩
    · refine ⟨p, ?_⟩
      rw [lookup_self]
      exact (hasValue_iff calcSha256).mp valued
    · obtain ⟨key, held⟩ := ihLeft (left.resolve_left leftNotNil)
      exact ⟨p ++ false :: key, by rwa [lookup_child]⟩

/-- A compressed child is one the node holds a value through. -/
theorem Compressed.child {p : List Bool} {v h : Bytes} {l r : Node} {s : Option DirtyNode}
    (compressed : Compressed calcSha256 (node p v h l r s)) (arc : Bool) :
    (node p v h l r s).getChild arc = nil ∨ Compressed calcSha256 ((node p v h l r s).getChild arc) := by
  cases arc
  · exact compressed.1
  · exact compressed.2.1

theorem Shaped.compressed {n : Node} (shaped : Shaped calcSha256 n) : Compressed calcSha256 n := by
  induction n with
  | nil => exact shaped
  | node p v h l r s ihLeft ihRight =>
    obtain ⟨-, left, right, full⟩ := shaped
    exact ⟨left.imp_right ihLeft, right.imp_right ihRight, full⟩

theorem collapseAndHash_node (f : NodeHasherFunc) {p : List Bool} {v h : Bytes} {l r : Node}
    {s : Option DirtyNode} :
    collapseAndHash calcSha256 f (node p v h l r s) =
      finishCollapse calcSha256 f (if !(node p v h l r s).isLeaf then
        collapseDirtyChildren (node p v h l r s) (collapseAndHash calcSha256 f l) (collapseAndHash calcSha256 f r)
      else node p v h l r s) := rfl

theorem skeleton_collapseDirtyChildren {p : List Bool} {v h : Bytes} {l r : Node} {s : Option DirtyNode}
    {cl cr cl' cr' : Node} (left : cl.skeleton = cl'.skeleton) (right : cr.skeleton = cr'.skeleton) :
    (collapseDirtyChildren (node p v h l r s) cl cr).skeleton =
      (collapseDirtyChildren (node p v h l r s) cl' cr').skeleton := by
  cases s with
  | none => rfl
  | some entry =>
    obtain ⟨dirtyLeft, dirtyRight⟩ := entry
    rw [collapseDirtyChildren_working, collapseDirtyChildren_working]
    cases dirtyLeft <;> cases dirtyRight <;> simp [skeleton_node, left, right]

/-- What `finishCollapse` does depends on the skeleton alone. -/
theorem skeleton_finishCollapse (f g : NodeHasherFunc) {a b : Node} (same : a.skeleton = b.skeleton) :
    (finishCollapse calcSha256 f a).skeleton = (finishCollapse calcSha256 g b).skeleton := by
  have valued : a.hasValue calcSha256 = b.hasValue calcSha256 := by
    rw [← hasValue_skeleton, same, hasValue_skeleton]
  have children : ∀ arc, (a.getChild arc).skeleton = (b.getChild arc).skeleton := by
    intro arc
    rw [← getChild_skeleton, same, getChild_skeleton]
  have absent : ∀ arc, (a.getChild arc).isNil = (b.getChild arc).isNil := by
    intro arc
    rw [← isNil_skeleton, children, isNil_skeleton]
  have onlyChild : ∀ arc, (collapseOnlyChild a arc).skeleton = (collapseOnlyChild b arc).skeleton := by
    intro arc
    have paths : a.path = b.path := by rw [← path_skeleton, same, path_skeleton]
    have childPaths : (a.getChild arc).path = (b.getChild arc).path := by
      rw [← path_skeleton, children, path_skeleton]
    rw [skeleton_collapseOnlyChild, skeleton_collapseOnlyChild, children, paths, childPaths]
  have leftNil := absent false
  have rightNil := absent true
  rw [getChild_false, getChild_false] at leftNil
  rw [getChild_true, getChild_true] at rightNil
  unfold finishCollapse isLeaf
  rw [valued, leftNil, rightNil]
  split_ifs
  · rfl
  all_goals simp only [skeleton_setHash]
  · exact same
  · exact onlyChild false
  · exact onlyChild true
  · exact same

/-- The trie `collapseAndHash` leaves has the same skeleton whatever the hasher. -/
theorem skeleton_collapseAndHash (f g : NodeHasherFunc) (n : Node) :
    (collapseAndHash calcSha256 f n).skeleton = (collapseAndHash calcSha256 g n).skeleton := by
  induction n with
  | nil => rfl
  | node p v h l r s ihLeft ihRight =>
    rw [collapseAndHash_node, collapseAndHash_node]
    apply skeleton_finishCollapse
    split
    · exact skeleton_collapseDirtyChildren ihLeft ihRight
    · rfl

/-- Whatever the hasher, `collapseAndHash` turns a pending subtree into nothing or a compressed
trie holding the same keys. -/
theorem collapseAndHash_compressed (f : NodeHasherFunc) {n : Node} (pending : Pending calcSha256 n) :
    (collapseAndHash calcSha256 f n = nil ∨ Compressed calcSha256 (collapseAndHash calcSha256 f n)) ∧
      (collapseAndHash calcSha256 f n).lookup calcSha256 = n.lookup calcSha256 := by
  obtain ⟨collapsed, keys⟩ := collapseAndHash_pending pending
  have same := @skeleton_collapseAndHash calcSha256 f (hashTrieNode calcSha256) n
  refine ⟨?_, by rw [← lookup_skeleton, same, lookup_skeleton, keys]⟩
  rcases collapsed with empty | shaped
  · left
    rw [← skeleton_eq_nil, same, empty, skeleton_nil]
  · right
    rw [← compressed_skeleton, same, compressed_skeleton]
    exact shaped.compressed

end Skeleton

section Hashes

variable {f : NodeHasherFunc}

@[simp] theorem hashedBy_nil : HashedBy f Node.nil := by
  simp [HashedBy]

theorem HashedBy.left {n : Node} (hashed : HashedBy f n) : HashedBy f n.left := by
  cases n with
  | nil => trivial
  | node => exact hashed.2.1

theorem HashedBy.right {n : Node} (hashed : HashedBy f n) : HashedBy f n.right := by
  cases n with
  | nil => trivial
  | node => exact hashed.2.2

theorem left_collapseOnlyChild (n : Node) (arc : Bool) :
    (collapseOnlyChild n arc).left = (n.getChild arc).left := by
  unfold collapseOnlyChild
  cases n.getChild arc <;> rfl

theorem right_collapseOnlyChild (n : Node) (arc : Bool) :
    (collapseOnlyChild n arc).right = (n.getChild arc).right := by
  unfold collapseOnlyChild
  cases n.getChild arc <;> rfl

/-- A node hashed after its children is hashed through, for a hasher that does not read the
node's own stored hash. -/
theorem hashedBy_setHash (ignores : ∀ n hash, f (n.setHash hash) = f n) {n : Node}
    (left : HashedBy f n.left) (right : HashedBy f n.right) : HashedBy f (n.setHash (f n)) := by
  cases n with
  | nil => trivial
  | node => exact ⟨(ignores _ _).symm, left, right⟩

/-- In a pending trie with no stored hash, the arcs that are not dirty are nil: a settled
subtree would be canonical and so store `hashTrieNode` hashes, none of which is empty. -/
theorem Settled.eq_nil (sized : ∀ m, hashTrieNode calcSha256 m ≠ []) {n : Node}
    (settled : Settled calcSha256 n) (unhashed : Unhashed n) : n = Node.nil := by
  rcases settled with empty | ⟨shaped, -⟩
  · exact empty
  · cases n with
    | nil => rfl
    | node => exact absurd (shaped.1.symm.trans unhashed.1) (sized _)

theorem dirtyChild_hashedBy (sized : ∀ m, hashTrieNode calcSha256 m ≠ []) {dirty : Bool} {child collapsed : Node}
    (pending : if dirty then Pending calcSha256 child else Settled calcSha256 child) (unhashed : Unhashed child)
    (collapse : Pending calcSha256 child → HashedBy f collapsed) :
    HashedBy f (if dirty then collapsed else child) := by
  cases dirty with
  | false =>
    rw [Settled.eq_nil sized pending unhashed]
    exact hashedBy_nil
  | true => exact collapse pending

theorem collapseDirtyChildren_hashedBy (sized : ∀ m, hashTrieNode calcSha256 m ≠ []) {p : List Bool}
    {v h : Bytes} {l r : Node} {s : Option DirtyNode} (pending : Pending calcSha256 (node p v h l r s))
    (unhashed : Unhashed (node p v h l r s))
    (collapseLeft : Pending calcSha256 l → HashedBy f (collapseAndHash calcSha256 f l))
    (collapseRight : Pending calcSha256 r → HashedBy f (collapseAndHash calcSha256 f r)) :
    ∃ l' r', (if !(node p v h l r s).isLeaf then
        collapseDirtyChildren (node p v h l r s) (collapseAndHash calcSha256 f l) (collapseAndHash calcSha256 f r)
      else node p v h l r s) = node p v h l' r' s ∧ HashedBy f l' ∧ HashedBy f r' := by
  rw [collapseDirtyChildren_visited pending]
  cases s with
  | none =>
    obtain ⟨rfl, rfl⟩ := pending
    exact ⟨Node.nil, Node.nil, rfl, hashedBy_nil, hashedBy_nil⟩
  | some entry =>
    obtain ⟨pendingLeft, pendingRight⟩ := pending
    exact ⟨_, _, collapseDirtyChildren_working _ _,
      dirtyChild_hashedBy sized pendingLeft unhashed.2.1 collapseLeft,
      dirtyChild_hashedBy sized pendingRight unhashed.2.2 collapseRight⟩

/-- On a pending trie that stores no hash, `collapseAndHash` visits every node, so every hash it
leaves is the hasher's. -/
theorem collapseAndHash_hashedBy (ignores : ∀ n hash, f (n.setHash hash) = f n)
    (sized : ∀ m, hashTrieNode calcSha256 m ≠ []) {n : Node} (pending : Pending calcSha256 n)
    (unhashed : Unhashed n) : HashedBy f (collapseAndHash calcSha256 f n) := by
  induction n with
  | nil => trivial
  | node p v h l r s ihLeft ihRight =>
    obtain ⟨l', r', visited, left, right⟩ := collapseDirtyChildren_hashedBy sized pending unhashed
      (fun pendingLeft => ihLeft pendingLeft unhashed.2.1) (fun pendingRight => ihRight pendingRight unhashed.2.2)
    rw [collapseAndHash_node, visited]
    unfold finishCollapse
    -- every branch but the pruned leaf hashes a node whose children are hashed
    split_ifs
    · trivial
    · exact hashedBy_setHash ignores left right
    · exact hashedBy_setHash ignores (by rw [left_collapseOnlyChild]; exact left.left)
        (by rw [right_collapseOnlyChild]; exact left.right)
    · exact hashedBy_setHash ignores (by rw [left_collapseOnlyChild]; exact right.left)
        (by rw [right_collapseOnlyChild]; exact right.right)
    · exact hashedBy_setHash ignores left right

end Hashes

section Unhashed

@[simp] theorem unhashed_nil : Unhashed Node.nil := by
  simp [Unhashed]

theorem Unhashed.setChild {n c : Node} (unhashed : Unhashed n) (arc : Bool) (child : Unhashed c) :
    Unhashed (n.setChild arc c) := by
  cases n with
  | nil => trivial
  | node =>
    obtain ⟨hash, left, right⟩ := unhashed
    cases arc
    · exact ⟨hash, child, right⟩
    · exact ⟨hash, left, child⟩

theorem Unhashed.set {n : Node} (unhashed : Unhashed n) (arc : Bool) : Unhashed (n.set arc) := by
  cases n with
  | nil => trivial
  | node => exact unhashed

theorem Unhashed.setPath {n : Node} (unhashed : Unhashed n) (path : List Bool) : Unhashed (n.setPath path) := by
  cases n with
  | nil => trivial
  | node => exact unhashed

theorem Unhashed.setValue {n : Node} (unhashed : Unhashed n) (value : Bytes) : Unhashed (n.setValue value) := by
  cases n with
  | nil => trivial
  | node => exact unhashed

theorem unhashed_createNode (path : List Bool) (value : Bytes) : Unhashed (createNode path value) :=
  ⟨rfl, trivial, trivial⟩

theorem unhashed_updateOrCreateChild {current : Node} {path : List Bool} {valueHash : Bytes}
    {insertChild : Bool → List Bool → Node × Bool} (unhashed : Unhashed current)
    (children : ∀ arc childPath, Unhashed (insertChild arc childPath).1) :
    Unhashed (updateOrCreateChild calcSha256 current path valueHash insertChild) := by
  unfold updateOrCreateChild
  by_cases replace : (!current.hasValue calcSha256 && current.isLeaf) = true
  · rw [if_pos replace]
    exact (unhashed.setPath path).setValue valueHash
  rw [if_neg replace]
  split
  · exact unhashed
  next _ arc rest _ =>
    by_cases present : (!(current.getChild arc).isNil) = true
    · rw [if_pos present]
      dsimp only
      split_ifs
      · exact (unhashed.setChild arc (children arc rest)).set arc
      · exact unhashed.setChild arc (children arc rest)
    · rw [if_neg present]
      split_ifs
      · exact unhashed
      · exact (unhashed.setChild arc (unhashed_createNode rest valueHash)).set arc

theorem unhashed_createParent {current : Node} {path : List Bool} {valueHash : Bytes} (unhashed : Unhashed current) :
    Unhashed (createParent current path valueHash) := by
  unfold createParent
  split
  · exact unhashed
  next _ arc rest _ =>
    exact ((unhashed_createNode path valueHash).setChild arc (unhashed.setPath rest)).set arc

theorem unhashed_createParentAndSibling {current : Node} {path : List Bool} {valueHash : Bytes}
    (unhashed : Unhashed current) : Unhashed (createParentAndSibling calcSha256 current path valueHash) := by
  unfold createParentAndSibling
  dsimp only
  split
  next _ _ currentArc currentRest childArc childRest _ _ =>
    have parent := ((unhashed_createNode (path.take (lastCommonPathIndex current.path path))
      (zeroValueHash calcSha256)).setChild currentArc (unhashed.setPath currentRest)).set currentArc
    exact (parent.setChild childArc (unhashed_createNode childRest valueHash)).set childArc
  · exact unhashed

/-- `insert` stores no hash: the nodes it clones drop theirs and the nodes it creates have none. -/
theorem insert_unhashed (valueHash : Bytes) {n : Node} (unhashed : Unhashed n) (path : List Bool) :
    Unhashed (insert calcSha256 valueHash n path).1 := by
  induction n generalizing path with
  | nil => trivial
  | node p v h l r s ihLeft ihRight =>
    obtain ⟨hash, left, right⟩ := unhashed
    subst hash
    have cloned : ∃ entry, getOrClone (node p v [] l r s) = (node p v [] l r (some entry), s.isNone) := by
      cases s with
      | none => exact ⟨{}, rfl⟩
      | some entry => exact ⟨entry, rfl⟩
    obtain ⟨entry, cloned⟩ := cloned
    have current : Unhashed (node p v [] l r (some entry)) := ⟨rfl, left, right⟩
    unfold insert
    rw [cloned]
    dsimp only
    split_ifs
    · exact current.setValue valueHash
    · refine unhashed_updateOrCreateChild current fun arc childPath => ?_
      cases arc
      · exact ihLeft left childPath
      · exact ihRight right childPath
    · exact unhashed_createParent current
    · exact unhashed_createParentAndSibling current

end Unhashed

end HasherSpec

end OrbsNetwork.Merkle
