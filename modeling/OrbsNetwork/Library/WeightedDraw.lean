import Mathlib

/-! Drawing without replacement by accumulated weights, kept as running sums with the taken
positions zeroed. -/

namespace WeightedDraw

variable {α : Type*}

/-- The accumulated weights from a running sum `s`: at a position not taken the running sum of the
weights not taken up to it, at a taken one zero. -/
def maskedPrefixSums : Int → List Int → List Bool → List Int
  | s, w :: ws, t :: ts =>
    if t then 0 :: maskedPrefixSums s ws ts else (s + w) :: maskedPrefixSums (s + w) ws ts
  | _, _, _ => []

/-- The weight of the positions not taken. -/
def untakenWeight : List Int → List Bool → Int
  | w :: ws, t :: ts => (if t then 0 else w) + untakenWeight ws ts
  | _, _ => 0

/-- The items at the positions not taken, in order. -/
def untaken : List α → List Bool → List α
  | a :: as, t :: ts => if t then untaken as ts else a :: untaken as ts
  | _, _ => []

/-- The update after a draw at `i` of weight `w`: the entry at `i` zeroed, `w` taken off the
nonzero entries after it. -/
def removeAt : List Int → Nat → Int → List Int
  | [], _, _ => []
  | _ :: acc, 0, w => 0 :: acc.map fun a => if a ≠ 0 then a - w else a
  | a :: acc, i + 1, w => a :: removeAt acc i w

/-- The update as a loop over indices writes it: set, then subtract after `i`. -/
theorem removeAt_eq_mapIdx (acc : List Int) (i : Nat) (w : Int) :
    removeAt acc i w = (acc.set i 0).mapIdx fun k a => if i < k ∧ a ≠ 0 then a - w else a := by
  induction acc generalizing i with
  | nil => simp [removeAt]
  | cons a acc ih =>
    cases i with
    | zero =>
      simp only [removeAt, List.set_cons_zero, List.mapIdx_cons, Nat.lt_irrefl, false_and, if_false,
        Nat.zero_lt_succ, true_and, List.cons.injEq]
      refine List.ext_getElem (by simp) fun k _ _ => ?_
      simp
    | succ i =>
      simp only [removeAt, List.set_cons_succ, List.mapIdx_cons, Nat.not_lt_zero, false_and, if_false,
        ih, Nat.succ_lt_succ_iff]

/-- The entries from a running sum `s + w` with `w` taken off the nonzero ones: those from `s`. -/
theorem map_sub_maskedPrefixSums {s w : Int} (nonneg : 0 ≤ s) (positive : 0 < w) (ws : List Int)
    (weights : ∀ v ∈ ws, 0 < v) (ts : List Bool) :
    (maskedPrefixSums (s + w) ws ts).map (fun a => if a ≠ 0 then a - w else a) = maskedPrefixSums s ws ts := by
  induction ws generalizing s ts with
  | nil => simp [maskedPrefixSums]
  | cons v ws ih =>
    have later : ∀ u ∈ ws, 0 < u := fun u member => weights u (List.mem_cons_of_mem _ member)
    have atV := weights v List.mem_cons_self
    cases ts with
    | nil => simp [maskedPrefixSums]
    | cons t ts =>
      cases t
      · -- a position not taken holds a positive running sum
        have shifted : s + w + v = s + v + w := by omega
        have step := ih (s := s + v) (by omega) later ts
        simp only [maskedPrefixSums, Bool.false_eq_true, if_false, List.map_cons, shifted] at step ⊢
        rw [step, if_pos (by omega)]
        simp
      · simp only [maskedPrefixSums, if_true, List.map_cons, ne_eq, not_true_eq_false, if_false]
        rw [ih nonneg later ts]

/-- Taking a position not taken keeps the array the accumulated weights of what is left. -/
theorem removeAt_maskedPrefixSums {s : Int} (nonneg : 0 ≤ s) {ws : List Int} (weights : ∀ v ∈ ws, 0 < v)
    {ts : List Bool} {i : Nat} (free : ts[i]? = some false) (within : i < ws.length) :
    removeAt (maskedPrefixSums s ws ts) i ws[i] = maskedPrefixSums s ws (ts.set i true) := by
  induction ws generalizing s ts i with
  | nil => simp at within
  | cons v ws ih =>
    have later : ∀ u ∈ ws, 0 < u := fun u member => weights u (List.mem_cons_of_mem _ member)
    have atV := weights v List.mem_cons_self
    cases ts with
    | nil => simp at free
    | cons t ts =>
      cases i with
      | zero =>
        simp only [List.getElem?_cons_zero, Option.some.injEq] at free
        subst free
        simp only [maskedPrefixSums, Bool.false_eq_true, if_false, List.getElem_cons_zero, removeAt,
          List.set_cons_zero, if_true]
        rw [map_sub_maskedPrefixSums nonneg atV ws later ts]
      | succ i =>
        simp only [List.getElem?_cons_succ] at free
        simp only [List.length_cons, Nat.succ_lt_succ_iff] at within
        cases t
        · simp only [maskedPrefixSums, Bool.false_eq_true, if_false, List.getElem_cons_succ, removeAt,
            List.set_cons_succ]
          rw [ih (by omega) later free within]
        · simp only [maskedPrefixSums, if_true, List.getElem_cons_succ, removeAt, List.set_cons_succ]
          rw [ih nonneg later free within]

/-- A draw above the running sum and within the weight left names a position not taken: the first
entry at least the draw. -/
theorem findIdx?_maskedPrefixSums {s d : Int} (nonneg : 0 ≤ s) {ws : List Int} (weights : ∀ v ∈ ws, 0 < v)
    {ts : List Bool} (same : ws.length = ts.length) (above : s < d) (within : d ≤ s + untakenWeight ws ts) :
    ∃ i, (maskedPrefixSums s ws ts).findIdx? (fun a => !decide (d > a)) = some i ∧ ts[i]? = some false ∧
      i < ws.length := by
  induction ws generalizing s ts with
  | nil =>
    cases ts <;> simp [untakenWeight] at within <;> omega
  | cons v ws ih =>
    have later : ∀ u ∈ ws, 0 < u := fun u member => weights u (List.mem_cons_of_mem _ member)
    have atV := weights v List.mem_cons_self
    cases ts with
    | nil => simp at same
    | cons t ts =>
      simp only [List.length_cons, Nat.add_right_cancel_iff] at same
      cases t
      · simp only [untakenWeight, Bool.false_eq_true, if_false] at within
        by_cases here : d ≤ s + v
        · -- the first position not taken already covers the draw
          refine ⟨0, ?_, rfl, by simp⟩
          simp [maskedPrefixSums, List.findIdx?_cons, here]
        · obtain ⟨i, found, free, bound⟩ := ih (s := s + v) (by omega) later same (by omega) (by omega)
          refine ⟨i + 1, ?_, free, by simpa using bound⟩
          simp only [maskedPrefixSums, Bool.false_eq_true, if_false, List.findIdx?_cons]
          rw [if_neg (by simpa using here), found]
          rfl
      · simp only [untakenWeight, if_true, Int.zero_add] at within
        obtain ⟨i, found, free, bound⟩ := ih nonneg later same above within
        refine ⟨i + 1, ?_, free, by simpa using bound⟩
        simp only [maskedPrefixSums, if_true, List.findIdx?_cons]
        rw [if_neg (by simp; omega), found]
        rfl

theorem untakenWeight_set {ws : List Int} {ts : List Bool} {i : Nat} (free : ts[i]? = some false)
    (within : i < ws.length) :
    untakenWeight ws (ts.set i true) = untakenWeight ws ts - ws[i] := by
  induction ws generalizing ts i with
  | nil => simp at within
  | cons v ws ih =>
    cases ts with
    | nil => simp at free
    | cons t ts =>
      cases i with
      | zero =>
        simp only [List.getElem?_cons_zero, Option.some.injEq] at free
        subst free
        simp only [untakenWeight, List.set_cons_zero, if_true, Bool.false_eq_true, if_false,
          List.getElem_cons_zero]
        omega
      | succ i =>
        simp only [List.getElem?_cons_succ] at free
        simp only [List.length_cons, Nat.succ_lt_succ_iff] at within
        simp only [untakenWeight, List.set_cons_succ, List.getElem_cons_succ, ih free within]
        omega

/-- Taking a position moves its item out of what is left. -/
theorem untaken_set_perm (as : List α) {ts : List Bool} {i : Nat} (free : ts[i]? = some false)
    (within : i < as.length) :
    (as[i] :: untaken as (ts.set i true)).Perm (untaken as ts) := by
  induction as generalizing ts i with
  | nil => simp at within
  | cons a as ih =>
    cases ts with
    | nil => simp at free
    | cons t ts =>
      cases i with
      | zero =>
        simp only [List.getElem?_cons_zero, Option.some.injEq] at free
        subst free
        simp [untaken]
      | succ i =>
        simp only [List.getElem?_cons_succ] at free
        simp only [List.length_cons, Nat.succ_lt_succ_iff] at within
        cases t
        · simp only [untaken, List.set_cons_succ, Bool.false_eq_true, if_false, List.getElem_cons_succ]
          exact (List.Perm.swap _ _ _).trans ((ih free within).cons a)
        · simp only [untaken, List.set_cons_succ, if_true, List.getElem_cons_succ]
          exact ih free within

theorem length_untaken_set (as : List α) {ts : List Bool} {i : Nat} (free : ts[i]? = some false)
    (within : i < as.length) :
    (untaken as (ts.set i true)).length + 1 = (untaken as ts).length :=
  by simpa using (untaken_set_perm as free within).length_eq

theorem untakenWeight_nonneg {ws : List Int} (weights : ∀ v ∈ ws, 0 < v) (ts : List Bool) :
    0 ≤ untakenWeight ws ts := by
  induction ws generalizing ts with
  | nil => simp [untakenWeight]
  | cons v ws ih =>
    have later : ∀ u ∈ ws, 0 < u := fun u member => weights u (List.mem_cons_of_mem _ member)
    have atV := weights v List.mem_cons_self
    cases ts with
    | nil => simp [untakenWeight]
    | cons t ts =>
      have rest := ih later ts
      cases t <;> simp only [untakenWeight, Bool.false_eq_true, if_false, if_true] <;> omega

/-- With a position left, the weight left is positive. -/
theorem untakenWeight_pos {ws : List Int} (weights : ∀ v ∈ ws, 0 < v) {ts : List Bool}
    (left : 0 < (untaken ws ts).length) : 0 < untakenWeight ws ts := by
  induction ws generalizing ts with
  | nil => simp [untaken] at left
  | cons v ws ih =>
    have later : ∀ u ∈ ws, 0 < u := fun u member => weights u (List.mem_cons_of_mem _ member)
    have atV := weights v List.mem_cons_self
    cases ts with
    | nil => simp [untaken] at left
    | cons t ts =>
      cases t
      · have rest := untakenWeight_nonneg later ts
        simp only [untakenWeight, Bool.false_eq_true, if_false]
        omega
      · simp only [untaken, if_true] at left
        simp only [untakenWeight, if_true, Int.zero_add]
        exact ih later left

/-- The weight left never exceeds the whole weight. -/
theorem untakenWeight_le_sum {ws : List Int} (weights : ∀ v ∈ ws, 0 < v) (ts : List Bool) :
    untakenWeight ws ts ≤ ws.sum := by
  induction ws generalizing ts with
  | nil => simp [untakenWeight]
  | cons v ws ih =>
    have later : ∀ u ∈ ws, 0 < u := fun u member => weights u (List.mem_cons_of_mem _ member)
    have atV := weights v List.mem_cons_self
    have rest : 0 ≤ ws.sum := List.sum_nonneg fun u member => (later u member).le
    cases ts with
    | nil => simp only [untakenWeight, List.sum_cons]; omega
    | cons t ts =>
      have step := ih later ts
      cases t <;> simp only [untakenWeight, Bool.false_eq_true, if_false, if_true, List.sum_cons] <;> omega

theorem untaken_map {β : Type*} (f : α → β) (as : List α) (ts : List Bool) :
    untaken (as.map f) ts = (untaken as ts).map f := by
  induction as generalizing ts with
  | nil => simp [untaken]
  | cons a as ih =>
    cases ts with
    | nil => simp [untaken]
    | cons t ts => cases t <;> simp [untaken, ih]

/-- Before any draw everything is left. -/
theorem untaken_replicate_false (as : List α) : untaken as (List.replicate as.length false) = as := by
  induction as with
  | nil => rfl
  | cons a as ih => simp [untaken, List.replicate_succ, ih]

theorem untakenWeight_replicate_false (ws : List Int) :
    untakenWeight ws (List.replicate ws.length false) = ws.sum := by
  induction ws with
  | nil => rfl
  | cons w ws ih => simp [untakenWeight, List.replicate_succ, ih]

end WeightedDraw
