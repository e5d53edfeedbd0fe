import OrbsNetwork.Merkle.Shape

namespace OrbsNetwork.Merkle

section InsertSpec

variable (calcSha256 : Bytes → Bytes)

/-- A pending subtree that holds the new value under the inserted path and every other key of
the old subtree unchanged. -/
def Inserted (old : Node) (valueHash : Bytes) (path : List Bool) (result : Node) : Prop :=
  Pending calcSha256 result ∧
    ∀ key, result.lookup calcSha256 key = if key = path then valueHash else old.lookup calcSha256 key

/-- What one `insert` leaves behind, with the parent's arc marked exactly when the old node had
no sandbox entry. -/
def InsertResult (old : Node) (valueHash : Bytes) (path : List Bool) (result : Node × Bool) : Prop :=
  Inserted calcSha256 old valueHash path result.1 ∧ result.2 = old.sandbox.isNone

variable {calcSha256}

open Node

theorem pending_congr {p p' : List Bool} {v v' h h' : Bytes} {l r : Node} {s : Option DirtyNode}
    (pending : Pending calcSha256 (node p v h l r s)) : Pending calcSha256 (node p' v' h' l r s) := by
  cases s <;> exact pending

/-- The subtree behind any arc of a pending node is pending or canonical. -/
theorem Pending.child {p : List Bool} {v h : Bytes} {l r : Node} {entry : DirtyNode} {arc : Bool}
    (pending : Pending calcSha256 (node p v h l r (some entry)))
    (notNil : (node p v h l r (some entry)).getChild arc ≠ nil) :
    Pending calcSha256 ((node p v h l r (some entry)).getChild arc) ∨
      (Shaped calcSha256 ((node p v h l r (some entry)).getChild arc) ∧
        Clean ((node p v h l r (some entry)).getChild arc)) := by
  obtain ⟨left, right⟩ := pending
  cases arc
  · by_cases dirty : entry.left
    · simp only [dirty, if_true] at left
      exact Or.inl left
    · simp only [dirty, Bool.false_eq_true, if_false] at left
      exact Or.inr (left.resolve_left notNil)
  · by_cases dirty : entry.right
    · simp only [dirty, if_true] at right
      exact Or.inl right
    · simp only [dirty, Bool.false_eq_true, if_false] at right
      exact Or.inr (right.resolve_left notNil)

theorem Pending.setChild_set {p : List Bool} {v h : Bytes} {l r child : Node} {entry : DirtyNode} {arc : Bool}
    (pending : Pending calcSha256 (node p v h l r (some entry))) (childPending : Pending calcSha256 child) :
    Pending calcSha256 (((node p v h l r (some entry)).setChild arc child).set arc) := by
  obtain ⟨left, right⟩ := pending
  cases arc
  · exact ⟨by simpa using childPending, by simpa using right⟩
  · exact ⟨by simpa using left, by simpa using childPending⟩

/-- Behind an arc that is already dirty a pending child can be put without marking it again. -/
theorem Pending.setChild_dirty {p : List Bool} {v h : Bytes} {l r child : Node} {entry : DirtyNode} {arc : Bool}
    (pending : Pending calcSha256 (node p v h l r (some entry)))
    (dirty : (if arc then entry.right else entry.left) = true) (childPending : Pending calcSha256 child) :
    Pending calcSha256 ((node p v h l r (some entry)).setChild arc child) := by
  obtain ⟨left, right⟩ := pending
  cases arc
  · simp only [Bool.false_eq_true, if_false] at dirty
    exact ⟨by simpa [dirty] using childPending, right⟩
  · simp only [if_true] at dirty
    exact ⟨left, by simpa [dirty] using childPending⟩

/-- A child with a sandbox entry was put there by this update, so its arc is dirty. -/
theorem Pending.dirty_of_sandbox {p : List Bool} {v h : Bytes} {l r : Node} {entry : DirtyNode} {arc : Bool}
    (pending : Pending calcSha256 (node p v h l r (some entry)))
    (notNil : (node p v h l r (some entry)).getChild arc ≠ nil)
    (kept : ((node p v h l r (some entry)).getChild arc).sandbox.isNone = false) :
    (if arc then entry.right else entry.left) = true := by
  by_contra clean
  obtain ⟨left, right⟩ := pending
  have settled : Settled calcSha256 ((node p v h l r (some entry)).getChild arc) := by
    cases arc
    · simp only [Bool.false_eq_true, if_false, Bool.not_eq_true] at clean
      simpa [clean, getChild] using left
    · simp only [if_true, Bool.not_eq_true] at clean
      simpa [clean, getChild] using right
  obtain ⟨_, cleanChild⟩ := settled.resolve_left notNil
  cases child : (node p v h l r (some entry)).getChild arc with
  | nil => exact notNil child
  | node => simp_all [clean_node]

theorem pending_createNode_setChild_set (path : List Bool) (v : Bytes) (arc : Bool) {child : Node}
    (childPending : Pending calcSha256 child) :
    Pending calcSha256 (((createNode path v).setChild arc child).set arc) := by
  cases arc
  · exact ⟨by simpa using childPending, by simpa using Settled.nil⟩
  · exact ⟨by simpa using Settled.nil, by simpa using childPending⟩

theorem getOrClone_spec {p : List Bool} {v h : Bytes} {l r : Node} {s : Option DirtyNode}
    (insertable : Pending calcSha256 (node p v h l r s) ∨
      (Shaped calcSha256 (node p v h l r s) ∧ Clean (node p v h l r s))) :
    ∃ h' entry, getOrClone (node p v h l r s) = (node p v h' l r (some entry), s.isNone) ∧
      Pending calcSha256 (node p v h' l r (some entry)) := by
  cases s with
  | some entry =>
    refine ⟨h, entry, rfl, ?_⟩
    rcases insertable with pending | ⟨_, clean⟩
    · exact pending
    · exact absurd clean.1 (by simp)
  | none =>
    refine ⟨[], {}, rfl, ?_⟩
    rcases insertable with ⟨rfl, rfl⟩ | ⟨⟨_, left, right, _⟩, ⟨_, cleanLeft, cleanRight⟩⟩
    · exact ⟨Settled.nil, Settled.nil⟩
    · exact ⟨left.imp_right fun shaped => ⟨shaped, cleanLeft⟩, right.imp_right fun shaped => ⟨shaped, cleanRight⟩⟩

theorem updateOrCreateChild_spec {p childPath : List Bool} {val h valueHash : Bytes} {l r : Node}
    {entry : DirtyNode} {arc : Bool} (insertChild : Bool → List Bool → Node × Bool)
    (pending : Pending calcSha256 (node p val h l r (some entry)))
    (childSpec : (node p val h l r (some entry)).getChild arc ≠ nil →
      InsertResult calcSha256 ((node p val h l r (some entry)).getChild arc) valueHash childPath
        (insertChild arc childPath)) :
    Inserted calcSha256 (node p val h l r (some entry)) valueHash (p ++ arc :: childPath)
      (updateOrCreateChild calcSha256 (node p val h l r (some entry)) (p ++ arc :: childPath) valueHash
        insertChild) := by
  unfold updateOrCreateChild
  by_cases replace : (!(node p val h l r (some entry)).hasValue calcSha256 && (node p val h l r (some entry)).isLeaf) = true
  · rw [if_pos replace]
    simp only [Bool.and_eq_true, Bool.not_eq_true', isLeaf, left_node, right_node, isNil_iff,
      hasValue_eq_false_iff, value_node] at replace
    obtain ⟨zero, rfl, rfl⟩ := replace
    refine ⟨pending_congr pending, fun key => ?_⟩
    simp only [setPath, setValue, lookup_leaf, zero]
    split_ifs <;> rfl
  · rw [if_neg replace]
    simp only [path_node, List.drop_left]
    by_cases absent : (node p val h l r (some entry)).getChild arc = nil
    · rw [if_neg (by simp [absent])]
      by_cases zero : valueHash = zeroValueHash calcSha256
      · rw [if_pos (by simp [zero])]
        refine ⟨pending, fun key => ?_⟩
        split_ifs with onPath
        · rw [onPath, lookup_child, absent, lookup_nil, zero]
        · rfl
      · rw [if_neg (by simp [zero])]
        refine ⟨pending.setChild_set (pending_createNode _ _), fun key => ?_⟩
        rw [lookup_set, lookup_setChild_update (fun rest => by rw [lookup_createNode, absent, lookup_nil]) key]
    · rw [if_pos (by simpa [isNil_eq_false_iff] using absent)]
      obtain ⟨⟨childPending, childLookup⟩, marked⟩ := childSpec absent
      split_ifs with markedTrue
      · exact ⟨pending.setChild_set childPending, fun key => by rw [lookup_set, lookup_setChild_update childLookup]⟩
      · have kept : ((node p val h l r (some entry)).getChild arc).sandbox.isNone = false := by
          rw [← marked]
          simpa using markedTrue
        exact ⟨pending.setChild_dirty (pending.dirty_of_sandbox absent kept) childPending,
          lookup_setChild_update childLookup⟩

/-- A node's path extending `pre ++ arc :: rest`, seen from the child at `arc` of `pre`. -/
theorem lookup_below {pre rest below : List Bool} {arc : Bool} {val h : Bytes} {l r : Node}
    {s : Option DirtyNode} :
    (node (pre ++ arc :: rest) val h l r s).lookup calcSha256 (pre ++ arc :: below) =
      (node rest val h l r s).lookup calcSha256 below := by
  have split : ((node rest val h l r s).setPath (pre ++ [arc] ++ rest)).lookup calcSha256 (pre ++ [arc] ++ below) =
      ((node rest val h l r s).setPath rest).lookup calcSha256 below :=
    lookup_setPath_append (by simp) _ _ _
  simpa [setPath] using split

theorem lookup_apart {pre rest key : List Bool} {arc : Bool} {val h : Bytes} {l r : Node}
    {s : Option DirtyNode} (apart : ∀ below, key ≠ pre ++ arc :: below) :
    (node (pre ++ arc :: rest) val h l r s).lookup calcSha256 key = zeroValueHash calcSha256 := by
  apply lookup_off
  rintro ⟨tail, rfl⟩
  exact apart (rest ++ tail) (by simp)

theorem createParent_spec {path rest : List Bool} {val h valueHash : Bytes} {l r : Node}
    {entry : DirtyNode} {childArc : Bool}
    (pending : Pending calcSha256 (node (path ++ childArc :: rest) val h l r (some entry))) :
    Inserted calcSha256 (node (path ++ childArc :: rest) val h l r (some entry)) valueHash path
      (createParent (node (path ++ childArc :: rest) val h l r (some entry)) path valueHash) := by
  unfold createParent
  simp only [path_node, List.drop_left]
  refine ⟨pending_createNode_setChild_set _ _ _ (pending_congr pending), fun key => ?_⟩
  rw [lookup_set]
  by_cases below : ∃ tail, key = path ++ childArc :: tail
  · obtain ⟨tail, rfl⟩ := below
    rw [createNode, lookup_setChild_arc, if_neg (by simp), lookup_below]
    rfl
  · have apart : ∀ tail, key ≠ path ++ childArc :: tail := fun tail same => below ⟨tail, same⟩
    rw [createNode, lookup_setChild_other _ apart, lookup_leaf, lookup_apart apart]

theorem lastCommonPathIndex_split {a b : List Bool} (ab : ¬ a <+: b) (ba : ¬ b <+: a) :
    ∃ pre x y a' b', a = pre ++ x :: a' ∧ b = pre ++ y :: b' ∧ x ≠ y ∧
      lastCommonPathIndex a b = pre.length := by
  induction a generalizing b with
  | nil => exact absurd List.nil_prefix ab
  | cons x as ih =>
    cases b with
    | nil => exact absurd List.nil_prefix ba
    | cons y bs =>
      by_cases same : x = y
      · subst same
        obtain ⟨pre, x', y', a', b', rfl, rfl, differ, index⟩ :=
          ih (fun pre => ab (List.prefix_cons_inj x |>.mpr pre)) (fun pre => ba (List.prefix_cons_inj x |>.mpr pre))
        exact ⟨x :: pre, x', y', a', b', rfl, rfl, differ, by simp [lastCommonPathIndex, index]⟩
      · exact ⟨[], x, y, as, bs, rfl, rfl, same, by simp [lastCommonPathIndex, same]⟩

theorem createParentAndSibling_eq {pre a' b' : List Bool} {x : Bool} {val h valueHash : Bytes}
    {l r : Node} {entry : DirtyNode}
    (index : lastCommonPathIndex (pre ++ x :: a') (pre ++ (!x) :: b') = pre.length) :
    createParentAndSibling calcSha256 (node (pre ++ x :: a') val h l r (some entry)) (pre ++ (!x) :: b') valueHash =
      node pre (zeroValueHash calcSha256) []
        (if x then createNode b' valueHash else node a' val h l r (some entry))
        (if x then node a' val h l r (some entry) else createNode b' valueHash)
        (some { left := true, right := true }) := by
  unfold createParentAndSibling
  simp only [path_node, index, List.drop_left, List.take_left]
  cases x <;> rfl

theorem createParentAndSibling_spec {pre a' b' : List Bool} {x y : Bool} {val h valueHash : Bytes}
    {l r : Node} {entry : DirtyNode} (differ : x ≠ y)
    (index : lastCommonPathIndex (pre ++ x :: a') (pre ++ y :: b') = pre.length)
    (pending : Pending calcSha256 (node (pre ++ x :: a') val h l r (some entry))) :
    Inserted calcSha256 (node (pre ++ x :: a') val h l r (some entry)) valueHash (pre ++ y :: b')
      (createParentAndSibling calcSha256 (node (pre ++ x :: a') val h l r (some entry)) (pre ++ y :: b')
        valueHash) := by
  have opposite : y = !x := by cases x <;> cases y <;> simp_all
  subst opposite
  have child : Pending calcSha256 (node a' val h l r (some entry)) := pending_congr pending
  have sibling : Pending calcSha256 (createNode b' valueHash) := pending_createNode b' valueHash
  rw [createParentAndSibling_eq index]
  have parent : Pending calcSha256 (node pre (zeroValueHash calcSha256) []
      (if x then createNode b' valueHash else node a' val h l r (some entry))
      (if x then node a' val h l r (some entry) else createNode b' valueHash)
      (some { left := true, right := true })) := by
    cases x
    · exact ⟨by simpa using child, by simpa using sibling⟩
    · exact ⟨by simpa using sibling, by simpa using child⟩
  refine ⟨parent, fun key => ?_⟩
  rcases key_cases pre key with off | rfl | ⟨bit, below, rfl⟩
  · have differ : key ≠ pre ++ (!x) :: b' := fun same => off (same ▸ List.prefix_append pre _)
    have oldOff : ¬ pre ++ x :: a' <+: key := fun pre' => off ((List.prefix_append pre _).trans pre')
    rw [lookup_off off, if_neg differ, lookup_off oldOff]
  · rw [lookup_self, if_neg (by simp), lookup_apart (fun below same => by simp at same)]
  · rw [lookup_child]
    by_cases side : bit = x
    · subst side
      have differ : pre ++ bit :: below ≠ pre ++ (!bit) :: b' := by cases bit <;> simp
      rw [if_neg differ, lookup_below]
      cases bit <;> rfl
    · have opposite : bit = !x := by cases x <;> cases bit <;> simp_all
      subst opposite
      have apart : ∀ tail, pre ++ (!x) :: below ≠ pre ++ x :: tail := by cases x <;> simp
      rw [lookup_apart apart]
      cases x <;> simp [getChild, lookup_createNode]

theorem Inserted.of_lookup {old old' result : Node} {valueHash : Bytes} {path : List Bool}
    (same : old.lookup calcSha256 = old'.lookup calcSha256)
    (inserted : Inserted calcSha256 old valueHash path result) :
    Inserted calcSha256 old' valueHash path result :=
  ⟨inserted.1, fun key => by rw [inserted.2, same]⟩

/-- One `insert`, started on a pending or canonical subtree, returns a pending subtree that
holds the new value, and marks the parent's arc unless the subtree was already sandboxed. -/
theorem insert_spec {n : Node} (insertable : Pending calcSha256 n ∨ (Shaped calcSha256 n ∧ Clean n))
    (valueHash : Bytes) (path : List Bool) :
    InsertResult calcSha256 n valueHash path (insert calcSha256 valueHash n path) := by
  induction n generalizing path with
  | nil => exact absurd rfl (insertable.elim Pending.ne_nil fun canonical => canonical.1.ne_nil)
  | node p v h l r s ihLeft ihRight =>
    obtain ⟨h', entry, cloned, pending⟩ := getOrClone_spec insertable
    unfold insert
    rw [cloned]
    have sameKeys : (node p v h' l r (some entry)).lookup calcSha256 = (node p v h l r s).lookup calcSha256 :=
      lookup_congr
    refine ⟨Inserted.of_lookup sameKeys ?_, rfl⟩
    dsimp only
    by_cases same : p = path
    · subst same
      simp only [shouldUpdateCurrent, path_node, beq_self_eq_true, if_true]
      exact ⟨pending_congr pending, lookup_setValue valueHash⟩
    rw [if_neg (by simpa [shouldUpdateCurrent] using same)]
    by_cases below : p <+: path
    · obtain ⟨tail, rfl⟩ := below
      cases tail with
      | nil => exact absurd (List.append_nil p).symm same
      | cons arc childPath =>
        rw [if_pos (by simp [shouldUpdateOrCreateChild, hasPrefix, List.isPrefixOf_iff_prefix])]
        refine updateOrCreateChild_spec _ pending fun notNil => ?_
        have insertable := pending.child notNil
        cases arc
        · exact ihLeft (by simpa [getChild] using insertable) childPath
        · exact ihRight (by simpa [getChild] using insertable) childPath
    rw [if_neg (by simpa [shouldUpdateOrCreateChild, hasPrefix, List.isPrefixOf_iff_prefix] using below)]
    by_cases above : path <+: p
    · obtain ⟨tail, rfl⟩ := above
      cases tail with
      | nil => exact absurd (List.append_nil path) same
      | cons childArc rest =>
        rw [if_pos (by simp [shouldCreateParent, hasPrefix, List.isPrefixOf_iff_prefix])]
        exact createParent_spec pending
    rw [if_neg (by simpa [shouldCreateParent, hasPrefix, List.isPrefixOf_iff_prefix] using above)]
    obtain ⟨pre, x, y, a', b', rfl, rfl, differ, index⟩ := lastCommonPathIndex_split below above
    exact createParentAndSibling_spec differ index pending

end InsertSpec

end OrbsNetwork.Merkle
