import OrbsNetwork.Merkle.Forest

namespace OrbsNetwork.Merkle

section Lookup

variable (calcSha256 : Bytes → Bytes)

/-- The value a trie holds under a bit path: the value of the node whose path ends exactly
there, `zeroValueHash` (an absent key) when no node does. -/
def Node.lookup : Node → List Bool → Bytes
  | .nil, _ => zeroValueHash calcSha256
  | .node path value _ left right _, key =>
    if path.isPrefixOf key then
      match key.drop path.length with
      | [] => value
      | bit :: rest => if bit then right.lookup rest else left.lookup rest
    else zeroValueHash calcSha256

variable {calcSha256}

namespace Node

@[simp] theorem lookup_nil (key : List Bool) : nil.lookup calcSha256 key = zeroValueHash calcSha256 := by
  simp [lookup]

theorem lookup_self {p : List Bool} {v h : Bytes} {l r : Node} {s : Option DirtyNode} :
    (node p v h l r s).lookup calcSha256 p = v := by
  simp [lookup, List.isPrefixOf_iff_prefix]

theorem lookup_child {p : List Bool} {v h : Bytes} {l r : Node} {s : Option DirtyNode}
    (bit : Bool) (rest : List Bool) :
    (node p v h l r s).lookup calcSha256 (p ++ bit :: rest) = ((node p v h l r s).getChild bit).lookup calcSha256 rest := by
  cases bit <;> simp [lookup, List.isPrefixOf_iff_prefix, getChild]

theorem lookup_off {p : List Bool} {v h : Bytes} {l r : Node} {s : Option DirtyNode} {key : List Bool}
    (off : ¬ p <+: key) : (node p v h l r s).lookup calcSha256 key = zeroValueHash calcSha256 := by
  simp [lookup, List.isPrefixOf_iff_prefix, off]

/-- Every key either misses a node's path, ends on it, or continues below it through one arc. -/
theorem key_cases (p key : List Bool) :
    ¬ p <+: key ∨ key = p ∨ ∃ bit rest, key = p ++ bit :: rest := by
  by_cases pre : p <+: key
  · obtain ⟨tail, rfl⟩ := pre
    cases tail with
    | nil => exact Or.inr (Or.inl (List.append_nil p))
    | cons bit rest => exact Or.inr (Or.inr ⟨bit, rest, rfl⟩)
  · exact Or.inl pre

/-- Two nodes with the same path, value and children hold the same keys. -/
theorem lookup_congr {p : List Bool} {v h h' : Bytes} {l r : Node} {s s' : Option DirtyNode} :
    (node p v h l r s).lookup calcSha256 = (node p v h' l r s').lookup calcSha256 := by
  funext key
  simp [lookup]

@[simp] theorem lookup_set (n : Node) (arc : Bool) : (n.set arc).lookup calcSha256 = n.lookup calcSha256 := by
  cases n with
  | nil => rfl
  | node => exact lookup_congr

@[simp] theorem lookup_init (n : Node) : n.init.lookup calcSha256 = n.lookup calcSha256 := by
  cases n with
  | nil => rfl
  | node => exact lookup_congr

@[simp] theorem lookup_clone (n : Node) : n.clone.lookup calcSha256 = n.lookup calcSha256 := by
  cases n with
  | nil => rfl
  | node => exact lookup_congr

@[simp] theorem lookup_setHash (n : Node) (h : Bytes) : (n.setHash h).lookup calcSha256 = n.lookup calcSha256 := by
  cases n with
  | nil => rfl
  | node => exact lookup_congr

/-- A prefix shared by a node's path and the key does not matter. -/
theorem lookup_setPath_append {n : Node} (notNil : n ≠ nil) (pre q key : List Bool) :
    (n.setPath (pre ++ q)).lookup calcSha256 (pre ++ key) = (n.setPath q).lookup calcSha256 key := by
  cases n with
  | nil => exact absurd rfl notNil
  | node => simp [setPath, lookup, List.isPrefixOf_iff_prefix, List.prefix_append_right_inj]

theorem lookup_setPath_off {n : Node} {q key : List Bool} (off : ¬ q <+: key) :
    (n.setPath q).lookup calcSha256 key = zeroValueHash calcSha256 := by
  cases n with
  | nil => rfl
  | node => exact lookup_off off

theorem lookup_setValue {p : List Bool} {v h : Bytes} {l r : Node} {s : Option DirtyNode} (value : Bytes)
    (key : List Bool) :
    ((node p v h l r s).setValue value).lookup calcSha256 key =
      if key = p then value else (node p v h l r s).lookup calcSha256 key := by
  rcases key_cases p key with off | rfl | ⟨bit, rest, rfl⟩
  · have differ : key ≠ p := fun same => off (same ▸ List.prefix_refl p)
    simp only [setValue, lookup_off off, differ, if_false]
  · simp only [setValue, lookup_self, if_true]
  · have differ : p ++ bit :: rest ≠ p := by simp
    simp only [setValue, lookup_child, differ, if_false, getChild, left_node, right_node]

theorem lookup_leaf {q : List Bool} {v h : Bytes} {s : Option DirtyNode} (key : List Bool) :
    (node q v h nil nil s).lookup calcSha256 key = if key = q then v else zeroValueHash calcSha256 := by
  rcases key_cases q key with off | rfl | ⟨bit, rest, rfl⟩
  · have differ : key ≠ q := fun same => off (same ▸ List.prefix_refl q)
    rw [lookup_off off, if_neg differ]
  · rw [lookup_self, if_pos rfl]
  · have differ : q ++ bit :: rest ≠ q := by simp
    rw [lookup_child, if_neg differ]
    cases bit <;> rfl

theorem lookup_createNode (q : List Bool) (v : Bytes) (key : List Bool) :
    (createNode q v).lookup calcSha256 key = if key = q then v else zeroValueHash calcSha256 :=
  lookup_leaf key

theorem setPath_self (n : Node) : n.setPath n.path = n := by
  cases n <;> rfl

theorem lookup_setChild_arc {p : List Bool} {v h : Bytes} {l r : Node} {s : Option DirtyNode} (arc : Bool)
    (child : Node) (rest : List Bool) :
    ((node p v h l r s).setChild arc child).lookup calcSha256 (p ++ arc :: rest) = child.lookup calcSha256 rest := by
  cases arc <;> simp [setChild, lookup_child, getChild]

theorem lookup_setChild_other {p : List Bool} {v h : Bytes} {l r : Node} {s : Option DirtyNode} {arc : Bool}
    (child : Node) {key : List Bool} (other : ∀ rest, key ≠ p ++ arc :: rest) :
    ((node p v h l r s).setChild arc child).lookup calcSha256 key = (node p v h l r s).lookup calcSha256 key := by
  rcases key_cases p key with off | rfl | ⟨bit, rest, rfl⟩
  · cases arc <;> simp only [setChild_false, setChild_true] <;> rw [lookup_off off, lookup_off off]
  · cases arc <;> simp only [setChild_false, setChild_true] <;> rw [lookup_self, lookup_self]
  · have differ : bit ≠ arc := fun same => other rest (same ▸ rfl)
    cases bit <;> cases arc <;> simp_all [setChild, lookup_child, getChild]

/-- Replacing the child at one arc by a subtree that holds one more value changes exactly the
key that value sits under. -/
theorem lookup_setChild_update {p childPath : List Bool} {val h v : Bytes} {l r : Node} {s : Option DirtyNode}
    {arc : Bool} {child : Node}
    (childLookup : ∀ rest, child.lookup calcSha256 rest =
      if rest = childPath then v else ((node p val h l r s).getChild arc).lookup calcSha256 rest)
    (key : List Bool) :
    ((node p val h l r s).setChild arc child).lookup calcSha256 key =
      if key = p ++ arc :: childPath then v else (node p val h l r s).lookup calcSha256 key := by
  by_cases below : ∃ rest, key = p ++ arc :: rest
  · obtain ⟨rest, rfl⟩ := below
    rw [lookup_setChild_arc, childLookup, lookup_child]
    simp
  · have differ : key ≠ p ++ arc :: childPath := fun same => below ⟨childPath, same⟩
    rw [lookup_setChild_other _ (fun rest same => below ⟨rest, same⟩), if_neg differ]

end Node

end Lookup

end OrbsNetwork.Merkle
