import Mathlib

/-! A forest given by a parent function, and the depth-first walk below a node, bounded by fuel. -/

namespace InTree

variable {α : Type*} (nodes : List α) (parent : α → α)

/-- One step up: a node of the list passes to its parent, unless it is its own parent. -/
def Step (a b : α) : Prop := a ∈ nodes ∧ parent a = b ∧ a ≠ b

/-- `d` lies below `x`: its chain of parents reaches `x`. -/
def Below (d x : α) : Prop := Relation.TransGen (Step nodes parent) d x

section Chains

variable {nodes parent}

theorem step_rightUnique : Relator.RightUnique (Step nodes parent) :=
  fun _ _ _ first second => first.2.1.symm.trans second.2.1

theorem Below.mem {d x : α} (below : Below nodes parent d x) : d ∈ nodes := by
  obtain ⟨_, first, -⟩ := Relation.TransGen.head'_iff.mp below
  exact first.1

/-- A child of a node that lies on no cycle lies on none. -/
theorem not_below_self_of_step {d x : α} (step : Step nodes parent d x) (acyclic : ¬Below nodes parent x x) :
    ¬Below nodes parent d d := by
  intro cycle
  obtain ⟨y, first, back⟩ := Relation.TransGen.head'_iff.mp cycle
  -- the cycle leaves `d` for its parent, `x`, and comes back to `d`, which steps to `x` again
  obtain rfl : y = x := step_rightUnique first step
  exact acyclic (Relation.TransGen.tail' back step)

/-- Two children of a node on no cycle, one reached from the other, are the same child. -/
theorem eq_of_steps_of_reflTransGen {d₁ d₂ x : α} (step₁ : Step nodes parent d₁ x) (step₂ : Step nodes parent d₂ x)
    (acyclic : ¬Below nodes parent x x) (path : Relation.ReflTransGen (Step nodes parent) d₁ d₂) : d₁ = d₂ := by
  rcases Relation.reflTransGen_iff_eq_or_transGen.mp path with same | longer
  · exact same.symm
  · obtain ⟨y, first, rest⟩ := Relation.TransGen.head'_iff.mp longer
    obtain rfl : y = x := step_rightUnique first step₁
    exact absurd (Relation.TransGen.tail' rest step₂) acyclic

/-- Two roots, nodes that step nowhere, with a node below both, are one root. -/
theorem eq_of_below_of_below {e r₁ r₂ : α} (root₁ : ∀ y, ¬Step nodes parent r₁ y) (root₂ : ∀ y, ¬Step nodes parent r₂ y)
    (below₁ : Below nodes parent e r₁) (below₂ : Below nodes parent e r₂) : r₁ = r₂ := by
  rcases Relation.ReflTransGen.total_of_right_unique step_rightUnique below₁.to_reflTransGen
      below₂.to_reflTransGen with path | path <;>
    rcases Relation.reflTransGen_iff_eq_or_transGen.mp path with same | longer
  · exact same.symm
  · obtain ⟨y, first, -⟩ := Relation.TransGen.head'_iff.mp longer
    exact absurd first (root₁ y)
  · exact same
  · obtain ⟨y, first, -⟩ := Relation.TransGen.head'_iff.mp longer
    exact absurd first (root₂ y)

/-- A root, a node that steps nowhere, lies on no cycle. -/
theorem not_below_self_of_root {r : α} (root : ∀ y, ¬Step nodes parent r y) : ¬Below nodes parent r r := by
  intro cycle
  obtain ⟨y, first, -⟩ := Relation.TransGen.head'_iff.mp cycle
  exact root y first

end Chains

variable [DecidableEq α]

def children (x : α) : List α := nodes.filter fun d => parent d = x ∧ d ≠ x

/-- The depth-first walk below `x`: each child, then the walk below it. -/
def walk : Nat → α → List α
  | 0, _ => []
  | fuel + 1, x => (children nodes parent x).flatMap fun d => d :: walk fuel d

/-- The fuel lasts the walk below `x`: no call of it is left with none. -/
def Fits : Nat → α → Prop
  | 0, _ => False
  | fuel + 1, x => ∀ d ∈ children nodes parent x, Fits fuel d

open Classical in
/-- The nodes below `x`. -/
noncomputable def descendants (x : α) : Finset α := nodes.toFinset.filter fun d => Below nodes parent d x

variable {nodes parent}

theorem mem_children {d x : α} : d ∈ children nodes parent x ↔ Step nodes parent d x := by
  simp [children, Step]

theorem mem_descendants {d x : α} : d ∈ descendants nodes parent x ↔ d ∈ nodes ∧ Below nodes parent d x := by
  classical
  rw [descendants, Finset.mem_filter, List.mem_toFinset]

/-- The walk below any node, whatever its fuel, meets only nodes of the list. -/
theorem mem_of_mem_walk {fuel : Nat} {x e : α} (member : e ∈ walk nodes parent fuel x) : e ∈ nodes := by
  induction fuel generalizing x with
  | zero => simp [walk] at member
  | succ fuel ih =>
    obtain ⟨d, child, inPart⟩ := List.mem_flatMap.mp member
    rcases List.mem_cons.mp inPart with rfl | deeper
    · exact (mem_children.mp child).1
    · exact ih deeper

section Walk

variable {fuel : Nat} {x : α}

theorem mem_walk_iff {e : α} (fits : Fits nodes parent fuel x) :
    e ∈ walk nodes parent fuel x ↔ Below nodes parent e x := by
  induction fuel generalizing x with
  | zero => exact fits.elim
  | succ fuel ih =>
    simp only [walk, List.mem_flatMap, List.mem_cons, mem_children]
    rw [Below, Relation.TransGen.tail'_iff]
    constructor
    · rintro ⟨d, step, rfl | deeper⟩
      · exact ⟨e, .refl, step⟩
      · exact ⟨d, ((ih (fits d (mem_children.mpr step))).mp deeper).to_reflTransGen, step⟩
    · rintro ⟨d, path, step⟩
      refine ⟨d, step, ?_⟩
      rcases Relation.reflTransGen_iff_eq_or_transGen.mp path with same | longer
      · exact .inl same.symm
      · exact .inr ((ih (fits d (mem_children.mpr step))).mpr longer)

/-- A node met in a child's part of the walk is the child or lies below it. -/
theorem reflTransGen_of_mem_cons_walk {d e : α} (fits : Fits nodes parent fuel d)
    (member : e ∈ d :: walk nodes parent fuel d) : Relation.ReflTransGen (Step nodes parent) e d := by
  rcases List.mem_cons.mp member with rfl | deeper
  · exact .refl
  · exact ((mem_walk_iff fits).mp deeper).to_reflTransGen

/-- Below a node on no cycle, the walk meets every node once. -/
theorem nodup_walk (distinct : nodes.Nodup) (fits : Fits nodes parent fuel x) (acyclic : ¬Below nodes parent x x) :
    (walk nodes parent fuel x).Nodup := by
  induction fuel generalizing x with
  | zero => exact fits.elim
  | succ fuel ih =>
    rw [walk, List.nodup_flatMap]
    refine ⟨fun d child => ?_, ?_⟩
    · have acyclic' := not_below_self_of_step (mem_children.mp child) acyclic
      have fits' := fits d child
      exact List.nodup_cons.mpr ⟨fun again => acyclic' ((mem_walk_iff fits').mp again), ih fits' acyclic'⟩
    -- the parts of two children are disjoint: a node in both reaches one child from the other
    · refine (distinct.filter _).pairwise_of_forall_ne fun d₁ child₁ d₂ child₂ apart e in₁ in₂ => apart ?_
      have path₁ := reflTransGen_of_mem_cons_walk (fits d₁ child₁) in₁
      have path₂ := reflTransGen_of_mem_cons_walk (fits d₂ child₂) in₂
      have step₁ := mem_children.mp child₁
      have step₂ := mem_children.mp child₂
      rcases Relation.ReflTransGen.total_of_right_unique step_rightUnique path₁ path₂ with path | path
      · exact eq_of_steps_of_reflTransGen step₁ step₂ acyclic path
      · exact (eq_of_steps_of_reflTransGen step₂ step₁ acyclic path).symm

theorem toFinset_walk (fits : Fits nodes parent fuel x) :
    (walk nodes parent fuel x).toFinset = descendants nodes parent x := by
  ext e
  rw [List.mem_toFinset, mem_walk_iff fits, mem_descendants]
  exact ⟨fun below => ⟨below.mem, below⟩, And.right⟩

theorem sum_walk {M : Type*} [AddCommMonoid M] (w : α → M) (distinct : nodes.Nodup)
    (fits : Fits nodes parent fuel x) (acyclic : ¬Below nodes parent x x) :
    ((walk nodes parent fuel x).map w).sum = ∑ d ∈ descendants nodes parent x, w d := by
  rw [← toFinset_walk fits, List.sum_toFinset w (nodup_walk distinct fits acyclic)]

/-- More fuel than lasts changes nothing. -/
theorem walk_of_le {fuel' : Nat} (fits : Fits nodes parent fuel x) (more : fuel ≤ fuel') :
    Fits nodes parent fuel' x ∧ walk nodes parent fuel' x = walk nodes parent fuel x := by
  induction fuel generalizing fuel' x with
  | zero => exact fits.elim
  | succ fuel ih =>
    obtain ⟨fuel', rfl⟩ : ∃ k, fuel' = k + 1 := ⟨fuel' - 1, by omega⟩
    have each := fun d child => ih (fits d child) (Nat.le_of_succ_le_succ more)
    refine ⟨fun d child => (each d child).1, ?_⟩
    exact List.flatMap_congr fun d child => by rw [(each d child).2]

end Walk

section Termination

/-- The nodes below a child are fewer than those below its parent, which has the child too. -/
theorem descendants_ssubset {d x : α} (step : Step nodes parent d x) (acyclic : ¬Below nodes parent d d) :
    descendants nodes parent d ⊂ descendants nodes parent x := by
  have within : descendants nodes parent d ⊆ descendants nodes parent x := by
    intro e member
    obtain ⟨mem, below⟩ := mem_descendants.mp member
    exact mem_descendants.mpr ⟨mem, below.tail step⟩
  rw [Finset.ssubset_iff_of_subset within]
  exact ⟨d, mem_descendants.mpr ⟨step.1, .single step⟩, fun member => acyclic (mem_descendants.mp member).2⟩

theorem fits_of_card_lt {fuel : Nat} {x : α} (acyclic : ¬Below nodes parent x x)
    (small : (descendants nodes parent x).card < fuel) : Fits nodes parent fuel x := by
  induction fuel generalizing x with
  | zero => omega
  | succ fuel ih =>
    intro d child
    have step := mem_children.mp child
    have acyclic' := not_below_self_of_step step acyclic
    have fewer := Finset.card_lt_card (descendants_ssubset step acyclic')
    exact ih acyclic' (by omega)

/-- One more unit of fuel than there are nodes lasts the walk below any node on no cycle. -/
theorem fits_length_succ {x : α} (acyclic : ¬Below nodes parent x x) : Fits nodes parent (nodes.length + 1) x := by
  refine fits_of_card_lt acyclic ?_
  classical
  calc (descendants nodes parent x).card
      ≤ nodes.toFinset.card := Finset.card_filter_le _ _
    _ ≤ nodes.length := List.toFinset_card_le nodes
    _ < nodes.length + 1 := Nat.lt_succ_self _

end Termination

end InTree
