import OrbsNetwork.StateStorage.RollingRevisions
import OrbsNetwork.Merkle.UpdateSpec
import OrbsNetwork.Library.LastWrite

namespace OrbsNetwork.StateStorage

open Merkle

/-- The arguments of one `addRevision` call. -/
structure BlockDiff where
  height : Nat
  ts : Nat
  proposer : Bytes
  diff : ChainState

def RevisionDiff.block (d : RevisionDiff) : BlockDiff :=
  ⟨d.height, d.ts, d.proposer, d.diff⟩

section Snapshot

/-- The value (contract, key) holds after `blocks` over `before`: every block with a record for
it overwrites it, the zero value deleting it. -/
def valueAfter (blocks : List BlockDiff) (contract key : Bytes) (before : Option Bytes) : Option Bytes :=
  blocks.foldl (fun v b => ((b.diff.get? contract key).map storedValue).getD v) before

/-- The state at height `h`: the blocks up to `h` applied to the persisted state `base`. -/
def stateAt (base : Bytes × Bytes → Option Bytes) (blocks : List BlockDiff) (h : Nat) (contract key : Bytes) :
    Option Bytes :=
  valueAfter (blocks.filter fun b => b.height ≤ h) contract key (base (contract, key))

/-- A value as `getRevisionRecord` answers it: the record, empty for a missing key, and whether
the key is there. -/
def snapshotRecord (value : Option Bytes) : Bytes × Bool :=
  (value.getD [], value.isSome)

theorem valueAfter_append (l l' : List BlockDiff) (contract key : Bytes) (before : Option Bytes) :
    valueAfter (l ++ l') contract key before = valueAfter l' contract key (valueAfter l contract key before) :=
  List.foldl_append

theorem valueAfter_eq_findSome? (l : List BlockDiff) (contract key : Bytes) (before : Option Bytes) :
    valueAfter l contract key before =
      ((l.reverse.findSome? fun b => b.diff.get? contract key).map storedValue).getD before :=
  List.foldl_overwrite_eq_findSome?_reverse _ _ l before

theorem snapshotRecord_storedValue (record : Bytes) :
    snapshotRecord (storedValue record) = (record, !isZeroValue record) := by
  unfold snapshotRecord storedValue
  by_cases zero : isZeroValue record = true
  · have empty : record = [] := by simpa [isZeroValue] using zero
    subst empty
    rfl
  · simp [zero]

/-- Over blocks at consecutive heights from `s + 1`, those up to `s + k` are the first `k`. -/
theorem filter_height_eq_take {l : List BlockDiff} {s : Nat} (heights : l.map BlockDiff.height = List.range' (s + 1) l.length)
    {k h : Nat} (bound : s + k = h) : (l.filter fun b => b.height ≤ h) = l.take k := by
  subst bound
  induction l generalizing s k with
  | nil => simp
  | cons b l ih =>
    rw [List.map_cons, List.length_cons, List.range'_succ, List.cons.injEq] at heights
    obtain ⟨first, rest⟩ := heights
    cases k with
    | zero =>
      have above := ih (s := s + 1) rest (k := 0)
      rw [List.take_zero, List.filter_eq_nil_iff] at above
      rw [List.take_zero, List.filter_eq_nil_iff]
      intro c member
      simp only [List.mem_cons] at member
      rcases member with rfl | member
      · simp [first]
      · have := above c member
        simp only [decide_eq_true_eq] at this ⊢
        omega
    | succ k =>
      have kept : b.height ≤ s + (k + 1) := by omega
      rw [List.filter_cons_of_pos (by simpa using kept), List.take_succ_cons, ← ih rest (k := k)]
      congr 2
      funext c
      rw [Nat.add_assoc, Nat.add_comm 1 k]

end Snapshot

section Runs

variable (calcSha256 : Bytes → Bytes)

/-- `ls` is reached from `init` by `addRevision` calls with `blocks` that succeed, each at the
height after the current one, as `CommitStateDiff` makes them. -/
inductive Added (init : RollingRevisions) : List BlockDiff → RollingRevisions → Prop
  | start : Added init [] init
  | next {blocks : List BlockDiff} {ls ls' : RollingRevisions} {b : BlockDiff} :
      Added init blocks ls → b.height = ls.currentHeight + 1 →
      ls.addRevision calcSha256 b.height b.ts b.proposer b.diff = (ls', .ok ()) → Added init (blocks ++ [b]) ls'

/-- The trie map after `blocks` over `base`: the `toMerkleInput` of every block applied in
order. -/
def merkleAfter (base : List Bool → Bytes) (blocks : List BlockDiff) : List Bool → Bytes :=
  blocks.foldl (fun m b => applyDiffs m (toMerkleInput calcSha256 b.diff)) base

end Runs

/-- The rolling revisions after `blocks` were added to `init`: the first of them, `evicted`,
were written to the persistence, the others are held as revisions. -/
structure Rolled (init : RollingRevisions) (blocks evicted : List BlockDiff) (ls : RollingRevisions) : Prop where
  history : blocks = evicted ++ ls.revisions.map RevisionDiff.block
  heights : blocks.map BlockDiff.height = List.range' (init.persistedHeight + 1) blocks.length
  currentHeight : ls.currentHeight = init.persistedHeight + blocks.length
  persistedHeight : ls.persistedHeight = init.persistedHeight + evicted.length
  transientRevisions : ls.transientRevisions = init.transientRevisions
  persisted : ∀ q, ls.persist.fullState q = valueAfter evicted q.1 q.2 (init.persist.fullState q)

section Rolled

variable {init ls : RollingRevisions} {blocks evicted : List BlockDiff}

theorem rolled_start (fresh : init.revisions = []) (sameHeight : init.currentHeight = init.persistedHeight) :
    Rolled init [] [] init where
  history := by rw [fresh]; rfl
  heights := rfl
  currentHeight := sameHeight
  persistedHeight := rfl
  transientRevisions := rfl
  persisted _ := rfl

theorem Rolled.length (rolled : Rolled init blocks evicted ls) :
    blocks.length = evicted.length + ls.revisions.length := by
  rw [rolled.history, List.length_append, List.length_map]

/-- The evicted blocks end at the persisted height, the revisions follow it one height after
another. -/
theorem Rolled.heights_split (rolled : Rolled init blocks evicted ls) :
    evicted.map BlockDiff.height = List.range' (init.persistedHeight + 1) evicted.length ∧
      ls.revisions.map RevisionDiff.height = List.range' (ls.persistedHeight + 1) ls.revisions.length := by
  have heights := rolled.heights
  rw [rolled.length, ← List.range'_append, rolled.history, List.map_append, List.map_map] at heights
  obtain ⟨low, high⟩ := List.append_inj heights (by simp)
  refine ⟨low, ?_⟩
  have start : init.persistedHeight + evicted.length + 1 = init.persistedHeight + 1 + 1 * evicted.length := by omega
  rw [rolled.persistedHeight, start, ← high]
  rfl

theorem Rolled.evicted_le (rolled : Rolled init blocks evicted ls) {b : BlockDiff} (member : b ∈ evicted) :
    b.height ≤ ls.persistedHeight := by
  have inRange : b.height ∈ List.range' (init.persistedHeight + 1) evicted.length := by
    rw [← rolled.heights_split.1]
    exact List.mem_map_of_mem member
  rw [List.mem_range'_1] at inRange
  rw [rolled.persistedHeight]
  omega

theorem Rolled.revision_gt (rolled : Rolled init blocks evicted ls) {r : RevisionDiff} (member : r ∈ ls.revisions) :
    ls.persistedHeight < r.height := by
  have inRange : r.height ∈ List.range' (ls.persistedHeight + 1) ls.revisions.length := by
    rw [← rolled.heights_split.2]
    exact List.mem_map_of_mem member
  rw [List.mem_range'_1] at inRange
  omega

theorem Rolled.currentHeight_sub (rolled : Rolled init blocks evicted ls) :
    ls.currentHeight - ls.persistedHeight = ls.revisions.length := by
  rw [rolled.currentHeight, rolled.persistedHeight, rolled.length]
  omega

theorem Rolled.appendRevision (rolled : Rolled init blocks evicted ls) {b : BlockDiff}
    (next : b.height = ls.currentHeight + 1) (merkle : Forest) (newRoot : Bytes) :
    Rolled init (blocks ++ [b]) evicted (ls.appendRevision merkle newRoot b.height b.ts b.proposer b.diff) where
  history := by
    simp only [RollingRevisions.appendRevision, List.map_append, List.map_singleton, ← List.append_assoc,
      ← rolled.history]
    rfl
  heights := by
    rw [List.map_append, rolled.heights, List.length_append, List.length_singleton, List.range'_concat,
      List.map_singleton, next, rolled.currentHeight, Nat.one_mul, Nat.add_right_comm _ 1]
  currentHeight := by
    show b.height = _
    rw [next, rolled.currentHeight, List.length_append, List.length_singleton, Nat.add_assoc]
  persistedHeight := rolled.persistedHeight
  transientRevisions := rolled.transientRevisions
  persisted := rolled.persisted

theorem Rolled.evictOldest (rolled : Rolled init blocks evicted ls) {d : RevisionDiff} {rest : List RevisionDiff}
    (oldest : ls.revisions = d :: rest) {persist : InMemoryStatePersistence}
    (written : persist.fullState = writeRecords ls.persist.fullState d.diff) :
    Rolled init blocks (evicted ++ [d.block]) (ls.evictOldest persist d rest) where
  history := by
    simp only [RollingRevisions.evictOldest, List.append_assoc, List.singleton_append]
    rw [← List.map_cons, ← oldest, ← rolled.history]
  heights := rolled.heights
  currentHeight := rolled.currentHeight
  persistedHeight := by
    have first := (rolled.heights_split.2)
    rw [oldest, List.map_cons, List.length_cons, List.range'_succ, List.cons.injEq] at first
    simp only [RollingRevisions.evictOldest, first.1, rolled.persistedHeight, List.length_append,
      List.length_singleton]
    omega
  transientRevisions := rolled.transientRevisions
  persisted q := by
    simp only [RollingRevisions.evictOldest, written, writeRecords_apply, rolled.persisted, valueAfter_append]
    rfl

end Rolled

section AddRevision

variable {calcSha256 : Bytes → Bytes}

/-- The loop of `evictRevisions` ends without error, with `min` of the revisions and
`transientRevisions` held, and keeps every invariant that one eviction keeps. -/
theorem evictLoop_spec (P : RollingRevisions → Prop)
    (step : ∀ ls d rest persist, P ls → ls.revisions = d :: rest → ls.transientRevisions < ls.revisions.length →
      persist.fullState = writeRecords ls.persist.fullState d.diff → P (ls.evictOldest persist d rest)) :
    ∀ (pending : List RevisionDiff) (ls : RollingRevisions), P ls → ls.revisions = pending →
      ∃ ls', evictLoop ls pending = (ls', .ok ()) ∧ P ls' ∧ ls'.transientRevisions = ls.transientRevisions ∧
        ls'.revisions.length = min ls.revisions.length ls.transientRevisions := by
  intro pending
  induction pending with
  | nil =>
    intro ls holds empty
    exact ⟨ls, rfl, holds, rfl, by simp [empty]⟩
  | cons d rest ih =>
    intro ls holds pending
    by_cases crowded : ls.transientRevisions < ls.revisions.length
    · -- the oldest revision goes to the persistence, the loop goes on with the rest
      obtain ⟨persist, write, written⟩ := ls.persist.write_ok d.height d.ts d.proposer d.merkleRoot d.diff
      obtain ⟨ls', loop, holds', transient, window⟩ := ih _ (step ls d rest persist holds pending crowded written) rfl
      refine ⟨ls', ?_, holds', transient, ?_⟩
      · rw [evictLoop, if_pos crowded, write]
        exact loop
      · rw [window]
        simp only [RollingRevisions.evictOldest]
        rw [pending, List.length_cons] at crowded ⊢
        omega
    · rw [evictLoop, if_neg crowded]
      exact ⟨ls, rfl, holds, rfl, by omega⟩

/-- `addRevision` returning without error: the trie update went through, and the loop of
`evictRevisions` ran from the state with the new revision appended. -/
theorem addRevision_ok {ls ls' : RollingRevisions} {height ts : Nat} {proposer : Bytes} {diff : ChainState}
    (added : ls.addRevision calcSha256 height ts proposer diff = (ls', .ok ())) :
    ∃ newRoot merkle, ls.merkle.update calcSha256 ls.currentMerkleRoot (toMerkleInput calcSha256 diff) = .ok (newRoot, merkle) ∧
      (ls.appendRevision merkle newRoot height ts proposer diff).evictRevisions = (ls', .ok ()) := by
  unfold RollingRevisions.addRevision at added
  cases update : ls.merkle.update calcSha256 ls.currentMerkleRoot (toMerkleInput calcSha256 diff) with
  | error err =>
    rw [update] at added
    cases added
  | ok result =>
    rw [update] at added
    exact ⟨result.1, result.2, rfl, added⟩

/-- Every invariant that the appended revision and each eviction keep holds after a successful
`addRevision`, which leaves `min` of the revisions and `transientRevisions` held. -/
theorem addRevision_spec (P : RollingRevisions → Prop) {ls ls' : RollingRevisions} {height ts : Nat}
    {proposer : Bytes} {diff : ChainState}
    (appended : ∀ newRoot merkle, ls.merkle.update calcSha256 ls.currentMerkleRoot (toMerkleInput calcSha256 diff) =
      .ok (newRoot, merkle) → P (ls.appendRevision merkle newRoot height ts proposer diff))
    (step : ∀ ls d rest persist, P ls → ls.revisions = d :: rest → ls.transientRevisions < ls.revisions.length →
      persist.fullState = writeRecords ls.persist.fullState d.diff → P (ls.evictOldest persist d rest))
    (added : ls.addRevision calcSha256 height ts proposer diff = (ls', .ok ())) :
    P ls' ∧ ls'.transientRevisions = ls.transientRevisions ∧
      ls'.revisions.length = min (ls.revisions.length + 1) ls.transientRevisions := by
  obtain ⟨newRoot, merkle, update, evict⟩ := addRevision_ok added
  obtain ⟨ls'', loop, holds, transient, window⟩ :=
    evictLoop_spec P step _ _ (appended newRoot merkle update) rfl
  unfold RollingRevisions.evictRevisions at evict
  rw [evict] at loop
  obtain rfl := (Prod.mk.inj loop).1
  refine ⟨holds, transient, ?_⟩
  rw [window]
  simp [RollingRevisions.appendRevision]

/-- After any run of `addRevision` calls, the history invariant holds, and the revisions held
are the last `transientRevisions` blocks, or all of them. -/
theorem Added.rolled {init ls : RollingRevisions} {blocks : List BlockDiff}
    (fresh : init.revisions = []) (sameHeight : init.currentHeight = init.persistedHeight)
    (added : Added calcSha256 init blocks ls) :
    ∃ evicted, Rolled init blocks evicted ls ∧ ls.revisions.length = min blocks.length ls.transientRevisions := by
  induction added with
  | start => exact ⟨[], rolled_start fresh sameHeight, by simp [fresh]⟩
  | @next blocks ls ls' b _ next added ih =>
    obtain ⟨evicted, rolled, window⟩ := ih
    obtain ⟨⟨evicted', rolled'⟩, transient, window'⟩ :=
      addRevision_spec (fun ls' => ∃ evicted', Rolled init (blocks ++ [b]) evicted' ls')
        (fun newRoot merkle _ => ⟨evicted, rolled.appendRevision next merkle newRoot⟩)
        (fun _ d rest _ ⟨evicted, rolled⟩ oldest _ written => ⟨_, rolled.evictOldest oldest written⟩) added
    refine ⟨evicted', rolled', ?_⟩
    rw [window', window, transient, List.length_append, List.length_singleton]
    omega

end AddRevision

section Reads

variable {init ls : RollingRevisions} {blocks evicted : List BlockDiff}

/-- The scan of `getRevisionRecord` over the revisions, newest first and skipping those above
the height, finds the last write among the revisions up to the height. -/
theorem scan_eq_findSome? (revisions : List RevisionDiff) (h : Nat) (contract key : Bytes) :
    revisions.reverse.findSome? (fun r => if h < r.height then none else r.diff.get? contract key) =
      ((revisions.map RevisionDiff.block).filter fun b => b.height ≤ h).reverse.findSome?
        fun b => b.diff.get? contract key := by
  rw [List.findSome?_skip_eq_filter, List.filter_map, ← List.map_reverse, List.findSome?_map, List.filter_reverse]
  congr 2
  exact List.filter_congr fun r _ => decide_eq_decide.mpr Nat.not_lt

theorem Rolled.getRevisionRecord (rolled : Rolled init blocks evicted ls) {h : Nat}
    (lower : ls.persistedHeight ≤ h) (upper : h ≤ ls.currentHeight) (contract key : Bytes) :
    ls.getRevisionRecord h contract key = .ok (snapshotRecord (stateAt init.persist.fullState blocks h contract key)) := by
  have kept : (evicted.filter fun b => b.height ≤ h) = evicted :=
    List.filter_eq_self.mpr fun b member => by simpa using Nat.le_trans (rolled.evicted_le member) lower
  -- the evicted blocks are all below `h`: the state at `h` starts from the persisted one
  have state : stateAt init.persist.fullState blocks h contract key =
      ((((ls.revisions.map RevisionDiff.block).filter fun b => b.height ≤ h).reverse.findSome?
        fun b => b.diff.get? contract key).map storedValue).getD (ls.persist.fullState (contract, key)) := by
    rw [stateAt, rolled.history, List.filter_append, kept, valueAfter_append, rolled.persisted,
      valueAfter_eq_findSome? _ _ _ (valueAfter evicted _ _ _)]
  unfold RollingRevisions.getRevisionRecord
  simp only [if_neg (Nat.not_lt.mpr upper), scan_eq_findSome?, state]
  cases ((ls.revisions.map RevisionDiff.block).filter fun b => b.height ≤ h).reverse.findSome?
      fun b => b.diff.get? contract key with
  | some record => simp only [Option.map_some, Option.getD_some, snapshotRecord_storedValue]
  | none =>
    simp only [Option.map_none, Option.getD_none, if_neg (Nat.not_lt.mpr lower)]
    rfl

theorem getRevisionRecord_too_new {ls : RollingRevisions} {h : Nat} (above : ls.currentHeight < h) (contract key : Bytes) :
    ∃ err, ls.getRevisionRecord h contract key = .error err := by
  unfold RollingRevisions.getRevisionRecord
  exact ⟨_, if_pos above⟩

theorem Rolled.getRevisionRecord_too_old (rolled : Rolled init blocks evicted ls) {h : Nat}
    (below : h < ls.persistedHeight) (contract key : Bytes) :
    ∃ err, ls.getRevisionRecord h contract key = .error err := by
  -- every revision is above the persisted height, so the scan skips them all
  have skipped : ls.revisions.reverse.findSome? (fun r => if h < r.height then none else r.diff.get? contract key) = none :=
    List.findSome?_eq_none_iff.mpr fun r member =>
      if_pos (Nat.lt_trans below (rolled.revision_gt (List.mem_reverse.mp member)))
  unfold RollingRevisions.getRevisionRecord
  by_cases above : ls.currentHeight < h
  · exact ⟨_, if_pos above⟩
  · simp only [if_neg above, skipped, if_pos below]
    exact ⟨_, rfl⟩

end Reads

section Forest

variable {calcSha256 : Bytes → Bytes}

/-- The forest in step with the rolling revisions: a root for the persisted state, then one for
each revision in order, the last of them the current root. -/
structure Rooted (ls : RollingRevisions) : Prop where
  roots : ls.merkle.roots.map Node.hash = ls.persistedRoot :: ls.revisions.map RevisionDiff.merkleRoot
  currentMerkleRoot : (ls.persistedRoot :: ls.revisions.map RevisionDiff.merkleRoot).getLast? = some ls.currentMerkleRoot

/-- What the roots of the forest hold after `blocks`, of which `evicted` were persisted: the
root at place `i` is canonical and holds what the evicted blocks and the first `i` revisions
wrote over `base`. -/
def Tried (calcSha256 : Bytes → Bytes) (base : List Bool → Bytes) (blocks evicted : List BlockDiff)
    (ls : RollingRevisions) : Prop :=
  ∀ i (lt : i < ls.merkle.roots.length), Canonical calcSha256 ls.merkle.roots[i] ∧
    ls.merkle.roots[i].lookup calcSha256 = merkleAfter calcSha256 base (blocks.take (evicted.length + i))

variable {init ls : RollingRevisions} {base : List Bool → Bytes} {blocks evicted : List BlockDiff}

theorem rooted_start {root : Node} (forest : init.merkle.roots = [root]) (persistedRoot : root.hash = init.persistedRoot)
    (current : init.currentMerkleRoot = init.persistedRoot) (fresh : init.revisions = []) : Rooted init where
  roots := by rw [forest, fresh, List.map_singleton, persistedRoot, List.map_nil]
  currentMerkleRoot := by rw [fresh, current]; rfl

theorem tried_start {root : Node} (forest : init.merkle.roots = [root]) (canonical : Canonical calcSha256 root) :
    Tried calcSha256 (root.lookup calcSha256) [] [] init := by
  intro i lt
  simp only [forest, List.length_singleton, Nat.lt_one_iff] at lt
  subst lt
  simp only [forest]
  exact ⟨canonical, rfl⟩

theorem Rooted.length_roots (rooted : Rooted ls) : ls.merkle.roots.length = ls.revisions.length + 1 := by
  have lengths := congrArg List.length rooted.roots
  simpa using lengths

theorem Rooted.hash_root (rooted : Rooted ls) {i : Nat} (lt : i < ls.merkle.roots.length) :
    (ls.persistedRoot :: ls.revisions.map RevisionDiff.merkleRoot)[i]? = some ls.merkle.roots[i].hash := by
  rw [← rooted.roots, List.getElem?_map, List.getElem?_eq_getElem lt, Option.map_some]

/-- The current root is the newest root of the forest, which is what `Update` starts from. -/
theorem Rooted.findRoot_current (rooted : Rooted ls) :
    ls.merkle.findRoot ls.currentMerkleRoot = ls.merkle.roots.getLast? := by
  have lt : ls.revisions.length < ls.merkle.roots.length := by rw [rooted.length_roots]; omega
  have ends : ls.merkle.roots.getLast? = some ls.merkle.roots[ls.revisions.length] := by
    rw [List.getLast?_eq_getElem?, rooted.length_roots, Nat.add_sub_cancel, List.getElem?_eq_getElem lt]
  have hashed : ls.merkle.roots[ls.revisions.length].hash = ls.currentMerkleRoot := by
    have last := rooted.currentMerkleRoot
    rw [← rooted.roots, List.getLast?_map, ends, Option.map_some] at last
    exact Option.some.inj last
  rw [ends, ← hashed]
  exact Forest.findRoot_of_getLast? ends

/-- The newest root holds every block added. -/
theorem Tried.last (rolled : Rolled init blocks evicted ls) (rooted : Rooted ls) (tried : Tried calcSha256 base blocks evicted ls)
    {last : Node} (ends : ls.merkle.roots.getLast? = some last) :
    Canonical calcSha256 last ∧ last.lookup calcSha256 = merkleAfter calcSha256 base blocks := by
  have lt : ls.revisions.length < ls.merkle.roots.length := by rw [rooted.length_roots]; omega
  rw [List.getLast?_eq_getElem?, rooted.length_roots, Nat.add_sub_cancel, List.getElem?_eq_getElem lt,
    Option.some_inj] at ends
  obtain ⟨canonical, holds⟩ := tried _ lt
  rw [ends, ← rolled.length, List.take_length] at *
  exact ⟨canonical, holds⟩

theorem Rooted.appendRevision (rooted : Rooted ls) {b : BlockDiff} {newRoot : Bytes} {merkle : Forest}
    (update : ls.merkle.update calcSha256 ls.currentMerkleRoot (toMerkleInput calcSha256 b.diff) = .ok (newRoot, merkle)) :
    Rooted (ls.appendRevision merkle newRoot b.height b.ts b.proposer b.diff) := by
  obtain ⟨last, -, rfl, rfl⟩ := Forest.update_ok update
  constructor
  · simp only [RollingRevisions.appendRevision, Forest.appendRoot, List.map_append, rooted.roots, List.map_singleton,
      List.cons_append]
  · simp only [RollingRevisions.appendRevision, List.map_append, List.map_singleton, ← List.cons_append,
      List.getLast?_concat]

theorem Tried.appendRevision (rolled : Rolled init blocks evicted ls) (rooted : Rooted ls)
    (tried : Tried calcSha256 base blocks evicted ls) {b : BlockDiff} {newRoot : Bytes} {merkle : Forest}
    (update : ls.merkle.update calcSha256 ls.currentMerkleRoot (toMerkleInput calcSha256 b.diff) = .ok (newRoot, merkle)) :
    Tried calcSha256 base (blocks ++ [b]) evicted (ls.appendRevision merkle newRoot b.height b.ts b.proposer b.diff) := by
  obtain ⟨last, found, rfl, rfl⟩ := Forest.update_ok update
  rw [rooted.findRoot_current] at found
  obtain ⟨canonical, holds⟩ := tried.last rolled rooted found
  obtain ⟨canonical', holds'⟩ := updateRoot_spec canonical (toMerkleInput calcSha256 b.diff)
  intro i lt
  simp only [RollingRevisions.appendRevision, Forest.appendRoot, List.length_append, List.length_singleton] at lt ⊢
  by_cases old : i < ls.merkle.roots.length
  · -- the roots already there keep what they held
    rw [List.getElem_append_left old, List.take_append_of_le_length]
    · exact tried i old
    · have := rooted.length_roots
      rw [rolled.length]
      omega
  · -- the new root holds the new block over the last one
    have newest : i = ls.merkle.roots.length := by omega
    subst newest
    rw [List.getElem_append_right (Nat.le_refl _)]
    simp only [Nat.sub_self, List.getElem_cons_zero]
    refine ⟨canonical', ?_⟩
    have enough : (blocks ++ [b]).length ≤ evicted.length + ls.merkle.roots.length := by
      rw [List.length_append, List.length_singleton, rolled.length, rooted.length_roots]
      omega
    rw [holds', holds, List.take_of_length_le enough, merkleAfter, merkleAfter, List.foldl_append]
    rfl

theorem Rooted.forget (rooted : Rooted ls) : ls.merkle.forget ls.persistedRoot = ⟨ls.merkle.roots.tail⟩ := by
  cases roots : ls.merkle.roots with
  | nil => simpa [roots] using rooted.roots
  | cons first rest =>
    have head := rooted.roots
    rw [roots, List.map_cons, List.cons.injEq] at head
    rw [← head.1]
    exact Forest.forget_of_head roots

theorem Rooted.evictOldest (rooted : Rooted ls) {d : RevisionDiff} {rest : List RevisionDiff}
    (oldest : ls.revisions = d :: rest) (persist : InMemoryStatePersistence) :
    Rooted (ls.evictOldest persist d rest) := by
  have tail := congrArg List.tail rooted.roots
  rw [← List.map_tail, oldest] at tail
  constructor
  · simpa only [RollingRevisions.evictOldest, rooted.forget, List.map_cons, List.tail_cons] using tail
  · have current := rooted.currentMerkleRoot
    rw [oldest, List.map_cons, List.getLast?_cons_cons] at current
    simpa only [RollingRevisions.evictOldest] using current

theorem Tried.evictOldest (rooted : Rooted ls) (tried : Tried calcSha256 base blocks evicted ls) {d : RevisionDiff}
    {rest : List RevisionDiff} (persist : InMemoryStatePersistence) :
    Tried calcSha256 base blocks (evicted ++ [d.block]) (ls.evictOldest persist d rest) := by
  intro i lt
  simp only [RollingRevisions.evictOldest, rooted.forget, List.length_tail] at lt ⊢
  rw [List.getElem_tail, List.length_append, List.length_singleton, Nat.add_assoc, Nat.add_comm 1 i]
  exact tried (i + 1) (by omega)

/-- After any run of `addRevision` calls from a forest holding only the persisted root, the
history invariant holds, the forest is in step, its roots hold what the blocks wrote when the
first root is canonical, and the last `transientRevisions` blocks are held. -/
theorem Added.rooted {root : Node} (fresh : init.revisions = []) (sameHeight : init.currentHeight = init.persistedHeight)
    (forest : init.merkle.roots = [root]) (persistedRoot : root.hash = init.persistedRoot)
    (current : init.currentMerkleRoot = init.persistedRoot) (added : Added calcSha256 init blocks ls) :
    ∃ evicted, Rolled init blocks evicted ls ∧ Rooted ls ∧
      (Canonical calcSha256 root → Tried calcSha256 (root.lookup calcSha256) blocks evicted ls) ∧
      ls.revisions.length = min blocks.length ls.transientRevisions := by
  induction added with
  | start =>
    exact ⟨[], rolled_start fresh sameHeight, rooted_start forest persistedRoot current fresh,
      tried_start forest, by simp [fresh]⟩
  | @next blocks ls ls' b _ next added ih =>
    obtain ⟨evicted, rolled, rooted, tried, window⟩ := ih
    obtain ⟨⟨evicted', rolled', rooted', tried'⟩, transient, window'⟩ :=
      addRevision_spec
        (fun ls' => ∃ evicted', Rolled init (blocks ++ [b]) evicted' ls' ∧ Rooted ls' ∧
          (Canonical calcSha256 root → Tried calcSha256 (root.lookup calcSha256) (blocks ++ [b]) evicted' ls'))
        (fun newRoot merkle update => ⟨evicted, rolled.appendRevision next merkle newRoot, rooted.appendRevision update,
          fun canonical => (tried canonical).appendRevision rolled rooted update⟩)
        (fun _ d rest persist ⟨evicted, rolled, rooted, tried⟩ oldest _ written =>
          ⟨_, rolled.evictOldest oldest written, rooted.evictOldest oldest persist,
            fun canonical => (tried canonical).evictOldest rooted persist⟩) added
    refine ⟨evicted', rolled', rooted', tried', ?_⟩
    rw [window', window, transient, List.length_append, List.length_singleton]
    omega

/-- With the forest in step, `addRevision` never fails: `Update` finds the current root and
the in-memory writes of `evictRevisions` go through. -/
theorem Rooted.addRevision_ok (rooted : Rooted ls) (height ts : Nat) (proposer : Bytes) (diff : ChainState) :
    ∃ ls', ls.addRevision calcSha256 height ts proposer diff = (ls', .ok ()) := by
  obtain ⟨last, ends⟩ : ∃ last, ls.merkle.roots.getLast? = some last :=
    Option.isSome_iff_exists.mp (List.getLast?_isSome.mpr (List.ne_nil_of_length_pos (by
      rw [rooted.length_roots]; omega)))
  have found := rooted.findRoot_current
  rw [ends] at found
  obtain ⟨ls', loop, -⟩ := evictLoop_spec (fun _ => True) (fun _ _ _ _ _ _ _ _ => trivial) _ _ trivial rfl
  refine ⟨ls', ?_⟩
  unfold RollingRevisions.addRevision
  rw [Forest.update_of_findRoot found]
  exact loop

/-- In a revision window the revision at a height is found by its height. -/
theorem find?_reverse_height {revisions : List RevisionDiff} {s : Nat}
    (heights : revisions.map RevisionDiff.height = List.range' s revisions.length) {j : Nat} (lt : j < revisions.length) :
    revisions.reverse.find? (fun r => r.height == s + j) = some revisions[j] := by
  have heightAt : ∀ k (bound : k < revisions.length), revisions[k].height = s + k := by
    intro k bound
    have at_k := congrArg (·[k]?) heights
    simp only [List.getElem?_map, List.getElem?_eq_getElem bound, Option.map_some,
      List.getElem?_range' bound, Nat.one_mul] at at_k
    exact Option.some.inj at_k
  cases found : revisions.reverse.find? (fun r => r.height == s + j) with
  | none =>
    have missed := List.find?_eq_none.mp found revisions[j] (List.mem_reverse.mpr (List.getElem_mem lt))
    simp [heightAt j lt] at missed
  | some r =>
    have matched := List.find?_some found
    obtain ⟨k, bound, rfl⟩ := List.mem_iff_getElem.mp (List.mem_reverse.mp (List.mem_of_find?_eq_some found))
    rw [beq_iff_eq, heightAt k bound, Nat.add_left_cancel_iff] at matched
    subst matched
    rfl

/-- `getRevisionHash` at the `j`-th height of the window answers the `j`-th root hash: the
persisted root, then the revisions' roots. -/
theorem Rolled.getRevisionHash (rolled : Rolled init blocks evicted ls) {j : Nat} {root : Bytes}
    (atIndex : (ls.persistedRoot :: ls.revisions.map RevisionDiff.merkleRoot)[j]? = some root) :
    ls.getRevisionHash (ls.persistedHeight + j) = .ok root := by
  unfold RollingRevisions.getRevisionHash
  cases j with
  | zero =>
    have none : ls.revisions.reverse.find? (fun r => r.height == ls.persistedHeight) = none :=
      List.find?_eq_none.mpr fun r member => by
        have above := rolled.revision_gt (List.mem_reverse.mp member)
        simp only [beq_iff_eq]
        omega
    rw [List.getElem?_cons_zero] at atIndex
    simp only [Nat.add_zero, none, ne_eq, not_true_eq_false, if_false]
    rw [Option.some.inj atIndex]
  | succ j =>
    rw [List.getElem?_cons_succ, List.getElem?_map] at atIndex
    obtain ⟨bound, found⟩ : ∃ bound : j < ls.revisions.length, ls.revisions[j].merkleRoot = root := by
      cases lookup : ls.revisions[j]? with
      | none => simp [lookup] at atIndex
      | some r =>
        obtain ⟨bound, same⟩ := List.getElem?_eq_some_iff.mp lookup
        rw [lookup, Option.map_some, Option.some_inj] at atIndex
        exact ⟨bound, by rw [same, atIndex]⟩
    rw [Nat.add_succ, ← Nat.succ_add, find?_reverse_height rolled.heights_split.2 bound]
    exact congrArg Except.ok found

theorem Rolled.root_index_lt (rolled : Rolled init blocks evicted ls) (rooted : Rooted ls) {h : Nat}
    (upper : h ≤ ls.currentHeight) : h - ls.persistedHeight < ls.merkle.roots.length := by
  have window := rolled.currentHeight_sub
  rw [rooted.length_roots]
  omega

/-- `getRevisionHash` answers, for every height of the window, the hash of the forest root at
the matching place. -/
theorem Rooted.getRevisionHash (rolled : Rolled init blocks evicted ls) (rooted : Rooted ls)
    {h : Nat} (lower : ls.persistedHeight ≤ h) (upper : h ≤ ls.currentHeight) :
    ∃ node, ls.merkle.roots[h - ls.persistedHeight]? = some node ∧ ls.getRevisionHash h = .ok node.hash := by
  have lt := rolled.root_index_lt rooted upper
  refine ⟨_, List.getElem?_eq_getElem lt, ?_⟩
  have answer := rolled.getRevisionHash (rooted.hash_root lt)
  rwa [Nat.add_sub_cancel' lower] at answer

/-- The forest root at the place of a height of the window holds the blocks up to that
height. -/
theorem Tried.at_height (rolled : Rolled init blocks evicted ls) (rooted : Rooted ls)
    (tried : Tried calcSha256 base blocks evicted ls) {h : Nat} (lower : ls.persistedHeight ≤ h) (upper : h ≤ ls.currentHeight)
    {node : Node} (atHeight : ls.merkle.roots[h - ls.persistedHeight]? = some node) :
    Canonical calcSha256 node ∧ node.lookup calcSha256 = merkleAfter calcSha256 base (blocks.filter fun b => b.height ≤ h) := by
  have lt := rolled.root_index_lt rooted upper
  rw [List.getElem?_eq_getElem lt, Option.some_inj] at atHeight
  obtain ⟨canonical, holds⟩ := tried _ lt
  rw [atHeight] at canonical holds
  refine ⟨canonical, ?_⟩
  rw [holds, filter_height_eq_take rolled.heights (k := evicted.length + (h - ls.persistedHeight))]
  rw [rolled.persistedHeight] at lower ⊢
  omega

end Forest

section Window

variable {calcSha256 : Bytes → Bytes}

theorem forest_tracks_revision_window {persist : InMemoryStatePersistence} {transientRevisions : Nat} {root : Node}
    (persistedRoot : root.hash = persist.merkleRoot) {blocks : List BlockDiff} {ls : RollingRevisions}
    (added : Added calcSha256 (newRollingRevisions persist transientRevisions ⟨[root]⟩) blocks ls) :
    ls.revisions.length ≤ ls.transientRevisions ∧
      ls.revisions.map RevisionDiff.height = List.range' (ls.persistedHeight + 1) (ls.currentHeight - ls.persistedHeight) ∧
      ls.merkle.roots.map Node.hash = ls.persistedRoot :: ls.revisions.map RevisionDiff.merkleRoot ∧
      (∀ height ts proposer diff, ∃ ls', ls.addRevision calcSha256 height ts proposer diff = (ls', .ok ())) ∧
      ls.merkle.forget ls.persistedRoot = ⟨ls.merkle.roots.tail⟩ ∧
      ∀ h, ls.persistedHeight ≤ h → h ≤ ls.currentHeight →
        ∃ node, ls.merkle.roots[h - ls.persistedHeight]? = some node ∧ ls.getRevisionHash h = .ok node.hash ∧
          (Canonical calcSha256 root → Canonical calcSha256 node ∧
            node.lookup calcSha256 = merkleAfter calcSha256 (root.lookup calcSha256) (blocks.filter fun b => b.height ≤ h)) := by
  obtain ⟨evicted, rolled, rooted, tried, window⟩ := Added.rooted rfl rfl rfl persistedRoot rfl added
  refine ⟨?_, ?_, rooted.roots, rooted.addRevision_ok, rooted.forget, fun h lower upper => ?_⟩
  · rw [window]
    exact Nat.min_le_right _ _
  · rw [rolled.currentHeight_sub]
    exact rolled.heights_split.2
  · obtain ⟨node, atHeight, answer⟩ := rooted.getRevisionHash rolled lower upper
    exact ⟨node, atHeight, answer, fun canonical => (tried canonical).at_height rolled rooted lower upper atHeight⟩

/-- Two blocks with one revision kept: the first is evicted, and the forest keeps the root of
the persisted block 1 and of revision 2. -/
theorem forest_tracks_revision_window_after_eviction :
    ∃ ls, Added (fun bytes => bytes) (newRollingRevisions (newStatePersistence fun bytes => bytes) 1
        ⟨[createEmptyTrieNode fun bytes => bytes]⟩)
        [⟨1, 0, [], ChainState.empty.set [1] [2] [5]⟩, ⟨2, 0, [], ChainState.empty.set [1] [2] []⟩] ls ∧
      ls.revisions.length ≤ ls.transientRevisions ∧
      ls.revisions.map RevisionDiff.height = List.range' (ls.persistedHeight + 1) (ls.currentHeight - ls.persistedHeight) ∧
      ls.merkle.roots.map Node.hash = ls.persistedRoot :: ls.revisions.map RevisionDiff.merkleRoot ∧
      (∀ height ts proposer diff, ∃ ls', ls.addRevision (fun bytes => bytes) height ts proposer diff = (ls', .ok ())) ∧
      ls.merkle.forget ls.persistedRoot = ⟨ls.merkle.roots.tail⟩ ∧
      ∀ h, ls.persistedHeight ≤ h → h ≤ ls.currentHeight →
        ∃ node, ls.merkle.roots[h - ls.persistedHeight]? = some node ∧ ls.getRevisionHash h = .ok node.hash ∧
          Canonical (fun bytes => bytes) node ∧
          node.lookup (fun bytes => bytes) = merkleAfter (fun bytes => bytes)
            ((createEmptyTrieNode fun bytes => bytes).lookup fun bytes => bytes)
            ([⟨1, 0, [], ChainState.empty.set [1] [2] [5]⟩, ⟨2, 0, [], ChainState.empty.set [1] [2] []⟩].filter
              fun b => b.height ≤ h) := by
  have run := @Added.next (fun bytes => bytes) (newRollingRevisions (newStatePersistence fun bytes => bytes) 1
      ⟨[createEmptyTrieNode fun bytes => bytes]⟩) [⟨1, 0, [], ChainState.empty.set [1] [2] [5]⟩] _ _
    ⟨2, 0, [], ChainState.empty.set [1] [2] []⟩
    (@Added.next _ _ [] _ _ ⟨1, 0, [], ChainState.empty.set [1] [2] [5]⟩ .start rfl rfl) rfl rfl
  obtain ⟨window, heights, roots, addable, forgets, hashes⟩ := forest_tracks_revision_window rfl run
  refine ⟨_, run, window, heights, roots, addable, forgets, fun h lower upper => ?_⟩
  obtain ⟨node, atHeight, answer, tries⟩ := hashes h lower upper
  exact ⟨node, atHeight, answer, tries canonical_createEmptyTrieNode⟩

end Window

end OrbsNetwork.StateStorage
