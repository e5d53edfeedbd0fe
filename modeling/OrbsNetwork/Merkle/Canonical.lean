import OrbsNetwork.Merkle.HasherSpec

namespace OrbsNetwork.Merkle

section Canonical

variable {calcSha256 : Bytes → Bytes}

open Node

theorem prefix_of_prefix_both_arcs {q p left right : List Bool}
    (onLeft : q <+: p ++ false :: left) (onRight : q <+: p ++ true :: right) : q <+: p := by
  induction p generalizing q with
  | nil =>
    cases q with
    | nil => exact List.nil_prefix
    | cons x q =>
      obtain ⟨rfl, -⟩ := List.cons_prefix_cons.mp onLeft
      exact absurd (List.cons_prefix_cons.mp onRight).1 Bool.false_ne_true
  | cons a p ih =>
    cases q with
    | nil => exact List.nil_prefix
    | cons x q =>
      obtain ⟨rfl, tailLeft⟩ := List.cons_prefix_cons.mp onLeft
      exact List.cons_prefix_cons.mpr ⟨rfl, ih tailLeft (List.cons_prefix_cons.mp onRight).2⟩

theorem prefix_of_lookup_ne {q : List Bool} {v h : Bytes} {l r : Node} {s : Option DirtyNode} {key : List Bool}
    (held : (node q v h l r s).lookup calcSha256 key ≠ zeroValueHash calcSha256) : q <+: key := by
  by_contra off
  exact held (lookup_off off)

theorem hashTrieNode_congr {p : List Bool} {v h h' : Bytes} {l r : Node} {s s' : Option DirtyNode} :
    hashTrieNode calcSha256 (node p v h l r s) = hashTrieNode calcSha256 (node p v h' l r s') :=
  rfl

@[simp] theorem lookup_createEmptyTrieNode (key : List Bool) :
    (createEmptyTrieNode calcSha256).lookup calcSha256 key = zeroValueHash calcSha256 := by
  rw [createEmptyTrieNode, lookup_setHash, lookup_createNode, ite_self]

/-- A canonical subtree holds at least one value. -/
theorem Shaped.exists_value {n : Node} (shaped : Shaped calcSha256 n) :
    ∃ key, n.lookup calcSha256 key ≠ zeroValueHash calcSha256 :=
  shaped.compressed.exists_value

/-- The path of a canonical node is the longest prefix of the keys it holds: it holds a value
there, or values on both sides of it. -/
theorem Shaped.branches {p : List Bool} {v h : Bytes} {l r : Node} {s : Option DirtyNode}
    (shaped : Shaped calcSha256 (node p v h l r s)) :
    v ≠ zeroValueHash calcSha256 ∨
      ∀ arc, ∃ rest, (node p v h l r s).lookup calcSha256 (p ++ arc :: rest) ≠ zeroValueHash calcSha256 := by
  obtain ⟨-, left, right, full⟩ := shaped
  refine full.imp (hasValue_iff calcSha256).mp fun ⟨leftNotNil, rightNotNil⟩ arc => ?_
  have child : Shaped calcSha256 ((node p v h l r s).getChild arc) := by
    cases arc
    · exact left.resolve_left leftNotNil
    · exact right.resolve_left rightNotNil
  obtain ⟨rest, held⟩ := child.exists_value
  exact ⟨rest, by rwa [lookup_child]⟩

/-- A node holding the same keys as a canonical node has a path that is a prefix of the
canonical node's path. -/
theorem Shaped.path_prefix {p q : List Bool} {v w h h' : Bytes} {l r l' r' : Node} {s s' : Option DirtyNode}
    (shaped : Shaped calcSha256 (node p v h l r s))
    (same : (node p v h l r s).lookup calcSha256 = (node q w h' l' r' s').lookup calcSha256) : q <+: p := by
  rcases shaped.branches with valued | both
  · apply prefix_of_lookup_ne (v := w) (h := h') (l := l') (r := r') (s := s')
    rw [← same, lookup_self]
    exact valued
  · obtain ⟨left, onLeft⟩ := both false
    obtain ⟨right, onRight⟩ := both true
    rw [same] at onLeft onRight
    exact prefix_of_prefix_both_arcs (prefix_of_lookup_ne onLeft) (prefix_of_lookup_ne onRight)

theorem lookup_child_eq {p : List Bool} {v w h h' : Bytes} {l r l' r' : Node} {s s' : Option DirtyNode}
    (same : (node p v h l r s).lookup calcSha256 = (node p w h' l' r' s').lookup calcSha256) (arc : Bool) :
    ((node p v h l r s).getChild arc).lookup calcSha256 = ((node p w h' l' r' s').getChild arc).lookup calcSha256 := by
  funext rest
  rw [← lookup_child, ← lookup_child, same]

/-- Below an arc of two canonical nodes that hold the same keys: both arcs are nil, or the
subtrees are equal as soon as canonical subtrees holding the same keys are. -/
theorem child_eq_of_lookup {c c' : Node} (child : Collapsed calcSha256 c) (child' : Collapsed calcSha256 c')
    (same : c.lookup calcSha256 = c'.lookup calcSha256)
    (shapedEq : Shaped calcSha256 c → Shaped calcSha256 c' → c = c') : c = c' := by
  rcases child with rfl | shaped <;> rcases child' with rfl | shaped'
  · rfl
  · obtain ⟨key, held⟩ := shaped'.exists_value
    exact absurd (by rw [← same, lookup_nil]) held
  · obtain ⟨key, held⟩ := shaped.exists_value
    exact absurd (by rw [same, lookup_nil]) held
  · exact shapedEq shaped shaped'

/-- Two canonical tries without sandbox entries that hold the same keys are equal: the trie
is a function of what it holds, whatever the updates that built it. -/
theorem Shaped.eq_of_lookup {a b : Node} (shaped : Shaped calcSha256 a) (clean : Clean a)
    (shaped' : Shaped calcSha256 b) (clean' : Clean b) (same : a.lookup calcSha256 = b.lookup calcSha256) :
    a = b := by
  induction a generalizing b with
  | nil => exact absurd rfl shaped.ne_nil
  | node p v h l r s ihLeft ihRight =>
    cases b with
    | nil => exact absurd rfl shaped'.ne_nil
    | node q w h' l' r' s' =>
      have paths : p = q :=
        (shaped'.path_prefix same.symm).eq_of_length
          (Nat.le_antisymm (shaped'.path_prefix same.symm).length_le (shaped.path_prefix same).length_le)
      subst paths
      have values : v = w := by
        have := congrFun same p
        rwa [lookup_self, lookup_self] at this
      subst values
      obtain ⟨hashed, left, right, -⟩ := shaped
      obtain ⟨hashed', left', right', -⟩ := shaped'
      obtain ⟨rfl, cleanLeft, cleanRight⟩ := clean
      obtain ⟨rfl, cleanLeft', cleanRight'⟩ := clean'
      have lefts : l = l' := child_eq_of_lookup left left' (lookup_child_eq same false)
        fun shaped shaped' => ihLeft shaped cleanLeft shaped' cleanLeft' (lookup_child_eq same false)
      have rights : r = r' := child_eq_of_lookup right right' (lookup_child_eq same true)
        fun shaped shaped' => ihRight shaped cleanRight shaped' cleanRight' (lookup_child_eq same true)
      subst lefts rights
      have hashes : h = h' := by rw [hashed, hashed', hashTrieNode_congr]
      rw [hashes]

/-- The root between updates is a function of the keys it holds. -/
theorem Canonical.eq_of_lookup {a b : Node} (canonical : Canonical calcSha256 a) (canonical' : Canonical calcSha256 b)
    (same : a.lookup calcSha256 = b.lookup calcSha256) : a = b := by
  obtain ⟨clean, empty | shaped⟩ := canonical <;> obtain ⟨clean', empty' | shaped'⟩ := canonical'
  · rw [empty, empty']
  · obtain ⟨key, held⟩ := shaped'.exists_value
    exact absurd (by rw [← same, empty, lookup_createEmptyTrieNode]) held
  · obtain ⟨key, held⟩ := shaped.exists_value
    exact absurd (by rw [same, empty', lookup_createEmptyTrieNode]) held
  · exact shaped.eq_of_lookup clean shaped' clean' same

end Canonical

end OrbsNetwork.Merkle
