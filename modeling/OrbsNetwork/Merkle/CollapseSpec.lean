import OrbsNetwork.Merkle.InsertSpec

namespace OrbsNetwork.Merkle

section CollapseSpec

variable {calcSha256 : Bytes → Bytes}

open Node

/-- A subtree after its collapse: nothing, or canonical. -/
def Collapsed (calcSha256 : Bytes → Bytes) (n : Node) : Prop :=
  n = nil ∨ Shaped calcSha256 n

theorem lookup_children_congr {p : List Bool} {v h : Bytes} {l r l' r' : Node} {s : Option DirtyNode}
    (left : l'.lookup calcSha256 = l.lookup calcSha256) (right : r'.lookup calcSha256 = r.lookup calcSha256) :
    (node p v h l' r' s).lookup calcSha256 = (node p v h l r s).lookup calcSha256 := by
  funext key
  simp only [lookup, left, right]

theorem hashTrieNode_setHash (n : Node) (h : Bytes) :
    hashTrieNode calcSha256 (n.setHash h) = hashTrieNode calcSha256 n := by
  cases n <;> rfl

theorem shaped_setHash {p : List Bool} {v h : Bytes} {l r : Node} {s : Option DirtyNode}
    (left : Collapsed calcSha256 l) (right : Collapsed calcSha256 r)
    (full : (node p v h l r s).hasValue calcSha256 = true ∨ (l ≠ nil ∧ r ≠ nil)) :
    Shaped calcSha256 ((node p v h l r s).setHash (hashTrieNode calcSha256 (node p v h l r s))) :=
  ⟨(hashTrieNode_setHash _ _).symm, left, right, full⟩

/-- Merging a valueless node into its only child keeps the child's shape and the keys below
the merged arc. -/
theorem collapseOnlyChild_spec {p : List Bool} {v h : Bytes} {l r : Node} {s : Option DirtyNode}
    (arc : Bool) (valueless : v = zeroValueHash calcSha256)
    (shaped : Shaped calcSha256 ((node p v h l r s).getChild arc))
    (other : (node p v h l r s).getChild (!arc) = nil) :
    Shaped calcSha256 ((collapseOnlyChild (node p v h l r s) arc).setHash
        (hashTrieNode calcSha256 (collapseOnlyChild (node p v h l r s) arc))) ∧
      (collapseOnlyChild (node p v h l r s) arc).lookup calcSha256 = (node p v h l r s).lookup calcSha256 := by
  cases child : (node p v h l r s).getChild arc with
  | nil => exact absurd child shaped.ne_nil
  | node q w hq a b t =>
    rw [child] at shaped
    obtain ⟨_, left, right, full⟩ := shaped
    have merged : collapseOnlyChild (node p v h l r s) arc = node (p ++ arc :: q) w [] a b none := by
      simp [collapseOnlyChild, child, clone, setPath]
    rw [merged]
    refine ⟨shaped_setHash left right (by simpa [hasValue_iff] using full), ?_⟩
    funext key
    by_cases below : ∃ rest, key = p ++ arc :: rest
    · obtain ⟨rest, rfl⟩ := below
      rw [lookup_below, lookup_child, child]
      exact congrFun lookup_congr rest
    · have apart : ∀ rest, key ≠ p ++ arc :: rest := fun rest same => below ⟨rest, same⟩
      rw [lookup_apart apart]
      rcases key_cases p key with off | rfl | ⟨bit, rest, rfl⟩
      · rw [lookup_off off]
      · rw [lookup_self, valueless]
      · have opposite : bit = !arc := Bool.eq_not_of_ne fun same => apart rest (same ▸ rfl)
        subst opposite
        rw [lookup_child, other, lookup_nil]

theorem collapseDirtyChildren_working {p : List Bool} {v h : Bytes} {l r : Node} {entry : DirtyNode}
    (cl cr : Node) :
    collapseDirtyChildren (node p v h l r (some entry)) cl cr =
      node p v h (if entry.left then cl else l) (if entry.right then cr else r) (some entry) := by
  obtain ⟨dirtyLeft, dirtyRight⟩ := entry
  cases dirtyLeft <;> cases dirtyRight <;> rfl

/-- A pending leaf has no dirty arc, so skipping `collapseDirtyChildren` on leaves changes
nothing. -/
theorem collapseDirtyChildren_leaf {p : List Bool} {v h : Bytes} {s : Option DirtyNode}
    (pending : Pending calcSha256 (node p v h nil nil s)) (cl cr : Node) :
    collapseDirtyChildren (node p v h nil nil s) cl cr = node p v h nil nil s := by
  cases s with
  | none => rfl
  | some entry =>
    obtain ⟨clean, clean'⟩ := pending_leaf_entry pending
    rw [collapseDirtyChildren_working, clean, clean']
    rfl

/-- Below an arc, `collapseDirtyChildren` takes the collapsed child when the arc is dirty and
keeps the settled one otherwise; either way the arc leads to a collapsed subtree. -/
theorem dirtyChild_spec {dirty : Bool} {child collapsed : Node}
    (pending : if dirty then Pending calcSha256 child else Settled calcSha256 child)
    (collapse : Pending calcSha256 child →
      Collapsed calcSha256 collapsed ∧ collapsed.lookup calcSha256 = child.lookup calcSha256) :
    Collapsed calcSha256 (if dirty then collapsed else child) ∧
      (if dirty then collapsed else child).lookup calcSha256 = child.lookup calcSha256 := by
  cases dirty with
  | false => exact ⟨Settled.nil_or_shaped pending, rfl⟩
  | true => exact collapse pending

/-- `collapseAndHash` skips the children of a leaf, which a pending leaf has none dirty of. -/
theorem collapseDirtyChildren_visited {p : List Bool} {v h : Bytes} {l r : Node} {s : Option DirtyNode}
    (pending : Pending calcSha256 (node p v h l r s)) (cl cr : Node) :
    (if !(node p v h l r s).isLeaf then collapseDirtyChildren (node p v h l r s) cl cr
      else node p v h l r s) = collapseDirtyChildren (node p v h l r s) cl cr := by
  split
  next => rfl
  next leaf =>
    obtain ⟨rfl, rfl⟩ : l = nil ∧ r = nil := by simpa [isLeaf, isNil_iff] using leaf
    rw [collapseDirtyChildren_leaf pending]

theorem collapseDirtyChildren_spec {p : List Bool} {v h : Bytes} {l r : Node} {s : Option DirtyNode}
    {cl cr : Node} (pending : Pending calcSha256 (node p v h l r s))
    (collapseLeft : Pending calcSha256 l → Collapsed calcSha256 cl ∧ cl.lookup calcSha256 = l.lookup calcSha256)
    (collapseRight : Pending calcSha256 r → Collapsed calcSha256 cr ∧ cr.lookup calcSha256 = r.lookup calcSha256) :
    ∃ l' r', (if !(node p v h l r s).isLeaf then collapseDirtyChildren (node p v h l r s) cl cr
        else node p v h l r s) = node p v h l' r' s ∧
      Collapsed calcSha256 l' ∧ Collapsed calcSha256 r' ∧
        l'.lookup calcSha256 = l.lookup calcSha256 ∧ r'.lookup calcSha256 = r.lookup calcSha256 := by
  rw [collapseDirtyChildren_visited pending]
  cases s with
  | none =>
    obtain ⟨rfl, rfl⟩ := pending
    exact ⟨nil, nil, rfl, Or.inl rfl, Or.inl rfl, rfl, rfl⟩
  | some entry =>
    obtain ⟨pendingLeft, pendingRight⟩ := pending
    obtain ⟨left, leftLookup⟩ := dirtyChild_spec pendingLeft collapseLeft
    obtain ⟨right, rightLookup⟩ := dirtyChild_spec pendingRight collapseRight
    exact ⟨_, _, collapseDirtyChildren_working cl cr, left, right, leftLookup, rightLookup⟩

/-- `collapseAndHash` turns a pending subtree into nothing or a canonical subtree, holding the
same keys. -/
theorem collapseAndHash_pending {n : Node} (pending : Pending calcSha256 n) :
    Collapsed calcSha256 (collapseAndHash calcSha256 (hashTrieNode calcSha256) n) ∧
      (collapseAndHash calcSha256 (hashTrieNode calcSha256) n).lookup calcSha256 = n.lookup calcSha256 := by
  induction n with
  | nil => exact absurd rfl pending.ne_nil
  | node p v h l r s ihLeft ihRight =>
    obtain ⟨l', r', visited, left, right, leftLookup, rightLookup⟩ :=
      collapseDirtyChildren_spec pending ihLeft ihRight
    rw [collapseAndHash, visited, ← lookup_children_congr leftLookup rightLookup]
    by_cases valued : (node p v h l' r' s).hasValue calcSha256 = true
    · simp only [valued, Bool.not_true, Bool.false_and, Bool.false_eq_true, if_false, if_true]
      exact ⟨Or.inr (shaped_setHash left right (Or.inl valued)), lookup_setHash _ _⟩
    have valueless : v = zeroValueHash calcSha256 := by simpa [hasValue_iff] using valued
    simp only [Bool.not_eq_true] at valued
    simp only [valued, Bool.not_false, Bool.true_and, Bool.false_eq_true, if_false]
    rcases left with rfl | leftShaped <;> rcases right with rfl | rightShaped
    · -- an empty leaf is pruned
      refine ⟨Or.inl rfl, ?_⟩
      funext key
      simp [isLeaf, lookup_leaf, valueless]
    · -- only the right child is left: the node merges into it
      have notNil := rightShaped.ne_nil
      simp only [isLeaf, left_node, right_node, isNil_nil, Bool.true_and, Bool.not_true, Bool.false_and,
        isNil_eq_false_iff.mpr notNil, Bool.not_false, Bool.and_true, Bool.false_eq_true, if_false, if_true]
      rw [lookup_setHash]
      exact (collapseOnlyChild_spec true valueless rightShaped rfl).imp Or.inr id
    · -- only the left child is left
      have notNil := leftShaped.ne_nil
      simp only [isLeaf, left_node, right_node, isNil_nil, Bool.and_true, Bool.not_true, Bool.and_false,
        isNil_eq_false_iff.mpr notNil, Bool.not_false, Bool.false_eq_true, if_false, if_true]
      rw [lookup_setHash]
      exact (collapseOnlyChild_spec false valueless leftShaped rfl).imp Or.inr id
    · -- two children: the node stays, with its hash recomputed
      have leftNotNil := leftShaped.ne_nil
      have rightNotNil := rightShaped.ne_nil
      simp only [isLeaf, left_node, right_node, isNil_eq_false_iff.mpr leftNotNil,
        isNil_eq_false_iff.mpr rightNotNil, Bool.false_and, Bool.not_false, Bool.true_and,
        Bool.false_eq_true, if_false]
      exact ⟨Or.inr (shaped_setHash (Or.inr leftShaped) (Or.inr rightShaped)
        (Or.inr ⟨leftNotNil, rightNotNil⟩)), lookup_setHash _ _⟩

/-- A canonical subtree with no sandbox entry is left as it is. -/
theorem collapseAndHash_settled {n : Node} (shaped : Shaped calcSha256 n) (clean : Clean n) :
    collapseAndHash calcSha256 (hashTrieNode calcSha256) n = n := by
  cases n with
  | nil => exact absurd rfl shaped.ne_nil
  | node p v h l r s =>
    obtain ⟨rfl, -, -⟩ := clean
    obtain ⟨hashed, -, -, full⟩ := shaped
    have untouched : (if !(node p v h l r none).isLeaf then
        collapseDirtyChildren (node p v h l r none) (collapseAndHash calcSha256 (hashTrieNode calcSha256) l)
          (collapseAndHash calcSha256 (hashTrieNode calcSha256) r) else node p v h l r none) =
        node p v h l r none := by
      split <;> rfl
    rw [collapseAndHash, untouched]
    rcases full with valued | ⟨leftNotNil, rightNotNil⟩
    · simp only [valued, Bool.not_true, Bool.false_and, Bool.false_eq_true, if_false, if_true]
      rw [← hashed]
      rfl
    · simp only [isLeaf, left_node, right_node, isNil_eq_false_iff.mpr leftNotNil,
        isNil_eq_false_iff.mpr rightNotNil, Bool.false_and, Bool.and_false, Bool.not_false,
        Bool.false_eq_true, if_false, ite_self]
      rw [← hashed]
      rfl

end CollapseSpec

end OrbsNetwork.Merkle
