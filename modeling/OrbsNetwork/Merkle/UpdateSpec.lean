import OrbsNetwork.Merkle.Canonical
import OrbsNetwork.Library.FunctionUpdate

namespace OrbsNetwork.Merkle

section ToBin

theorem toBin_length (s : Bytes) (size : Nat) : (toBin s size).length = size := by
  simp [toBin]

theorem byteBit_eq_testBit (b : UInt8) {k : Nat} (low : k < 8) :
    ((b >>> k.toUInt8) &&& 1 == 1) = b.toNat.testBit k := by
  have shift : (k.toUInt8).toNat % 8 = k := by
    simp [Nat.toUInt8]
    omega
  rw [Nat.testBit, Bool.eq_iff_iff]
  simp only [beq_iff_eq, bne_iff_ne, ne_eq, ← UInt8.toNat_inj, UInt8.toNat_and, UInt8.toNat_shiftRight,
    UInt8.toNat_one, shift, Nat.and_comm 1, Nat.and_one_is_mod]
  omega

theorem byte_eq_of_testBit {a b : UInt8} (bits : ∀ k < 8, a.toNat.testBit k = b.toNat.testBit k) : a = b := by
  rw [← UInt8.toNat_inj]
  apply Nat.eq_of_testBit_eq
  intro k
  by_cases low : k < 8
  · exact bits k low
  · have high : 2 ^ 8 ≤ 2 ^ k := Nat.pow_le_pow_right (by omega) (by omega)
    rw [Nat.testBit_lt_two_pow (Nat.lt_of_lt_of_le a.toNat_lt high),
      Nat.testBit_lt_two_pow (Nat.lt_of_lt_of_le b.toNat_lt high)]

/-- The eight bits `toBin` writes for one byte determine the byte. -/
theorem toBin_byte_injective {a b : UInt8} (same : toBin [a] 8 = toBin [b] 8) : a = b := by
  apply byte_eq_of_testBit
  intro k low
  have bit := congrArg (fun bits => bits.getD (7 - k) false) same
  simp only [toBin, List.getD_eq_getElem?_getD, List.getElem?_map, List.getElem?_range (by omega : 7 - k < 8),
    Option.map_some, Option.getD_some] at bit
  have byteIndex : (7 - k) / 8 = 0 := by omega
  have bitIndex : 7 - (7 - k) % 8 = k := by omega
  simp only [byteIndex, bitIndex, List.getElem?_cons_zero, Option.getD_some] at bit
  rwa [byteBit_eq_testBit a low, byteBit_eq_testBit b low] at bit

theorem toBin_cons (a : UInt8) (s : Bytes) (size : Nat) :
    toBin (a :: s) (8 + size) = toBin [a] 8 ++ toBin s size := by
  simp only [toBin, List.range_add, List.map_append, List.map_map]
  have first : (List.range 8).map (fun i => (a :: s).getD (i / 8) 0 >>> (7 - i % 8 : Nat).toUInt8 &&& 1 == 1) =
      (List.range 8).map fun i => [a].getD (i / 8) 0 >>> (7 - i % 8 : Nat).toUInt8 &&& 1 == 1 := by
    apply List.map_congr_left
    intro i member
    have byteIndex : i / 8 = 0 := Nat.div_eq_of_lt (List.mem_range.mp member)
    simp only [byteIndex, List.getD_cons_zero]
  rw [first]
  congr 1
  apply List.map_congr_left
  intro i _
  have byteIndex : (8 + i) / 8 = i / 8 + 1 := by omega
  have bitIndex : (8 + i) % 8 = i % 8 := by omega
  simp only [Function.comp_apply, byteIndex, bitIndex, List.getD_cons_succ]

theorem toBinSize_cons (a : UInt8) (s : Bytes) : toBinSize (a :: s) = 8 + toBinSize s := by
  simp only [toBinSize, List.length_cons]
  omega

/-- Distinct keys are stored under distinct bit paths. -/
theorem toBin_injective : Function.Injective fun s : Bytes => toBin s (toBinSize s) := by
  intro s
  induction s with
  | nil =>
    intro t same
    have lengths := congrArg List.length same
    simp only [toBin_length, toBinSize, List.length_nil, Nat.zero_mul] at lengths
    exact (List.length_eq_zero_iff.mp (by omega)).symm
  | cons a s ih =>
    intro t same
    cases t with
    | nil =>
      have lengths := congrArg List.length same
      simp only [toBin_length, toBinSize, List.length_cons, List.length_nil] at lengths
      omega
    | cons b t =>
      simp only [toBinSize_cons, toBin_cons] at same
      obtain ⟨heads, tails⟩ := List.append_inj same (by rw [toBin_length, toBin_length])
      rw [toBin_byte_injective heads, ih tails]

end ToBin

section UpdateSpec

variable (calcSha256 : Bytes → Bytes)

/-- What a trie holds after a batch of diffs, as a function of bit paths: each diff written in
order at the bit path of its key. -/
def applyDiffs (m : List Bool → Bytes) (diffs : TrieDiffs) : List Bool → Bytes :=
  diffs.foldl (fun m diff => Function.update m (toBin diff.key (toBinSize diff.key)) diff.value) m

/-- The key-value map that batches of diffs leave, starting from the empty map: the last write
of a key wins, and `zeroValueHash` stands for an absent key. -/
def batchesMap (batches : List TrieDiffs) : Bytes → Bytes :=
  batches.foldl (fun m diffs => diffs.foldl (fun m diff => Function.update m diff.key diff.value) m)
    fun _ => zeroValueHash calcSha256

/-- `Update` called batch after batch, each batch on the root hash the previous call returned. -/
def Forest.updateBatches (f : Forest) (rootHash : Bytes) : List TrieDiffs → Except String (Bytes × Forest)
  | [] => .ok (rootHash, f)
  | diffs :: batches =>
    match f.update calcSha256 rootHash diffs with
    | .error e => .error e
    | .ok (rootHash, f) => f.updateBatches rootHash batches

variable {calcSha256}

open Node

theorem pending_createEmptyTrieNode : Pending calcSha256 (createEmptyTrieNode calcSha256) :=
  pending_fresh

theorem clean_createEmptyTrieNode : Clean (createEmptyTrieNode calcSha256) :=
  ⟨rfl, trivial, trivial⟩

theorem canonical_createEmptyTrieNode : Canonical calcSha256 (createEmptyTrieNode calcSha256) :=
  ⟨clean_createEmptyTrieNode, Or.inl rfl⟩

/-- The insert loop of `Update`: every diff lands at the bit path of its key, and the trie
stays pending or canonical. -/
theorem insertDiffs_spec {root : Node} (insertable : Pending calcSha256 root ∨ (Shaped calcSha256 root ∧ Clean root))
    (diffs : TrieDiffs) :
    (Pending calcSha256 (diffs.foldl (fun root diff =>
        (insert calcSha256 diff.value root (toBin diff.key (toBinSize diff.key))).1) root) ∨
      (Shaped calcSha256 (diffs.foldl (fun root diff =>
          (insert calcSha256 diff.value root (toBin diff.key (toBinSize diff.key))).1) root) ∧
        Clean (diffs.foldl (fun root diff =>
          (insert calcSha256 diff.value root (toBin diff.key (toBinSize diff.key))).1) root))) ∧
    (diffs.foldl (fun root diff =>
        (insert calcSha256 diff.value root (toBin diff.key (toBinSize diff.key))).1) root).lookup calcSha256 =
      applyDiffs (root.lookup calcSha256) diffs := by
  induction diffs generalizing root with
  | nil => exact ⟨insertable, rfl⟩
  | cons diff diffs ih =>
    obtain ⟨⟨pending, inserted⟩, -⟩ := insert_spec insertable diff.value (toBin diff.key (toBinSize diff.key))
    have written : (insert calcSha256 diff.value root (toBin diff.key (toBinSize diff.key))).1.lookup calcSha256 =
        Function.update (root.lookup calcSha256) (toBin diff.key (toBinSize diff.key)) diff.value := by
      funext key
      rw [inserted, Function.update_apply]
    rw [List.foldl_cons, applyDiffs, List.foldl_cons, ← written]
    exact ih (Or.inl pending)

/-- After the collapse, the root `Update` appends: the empty node when nothing is left, else the
collapsed trie with its sandbox entries dropped. -/
theorem Collapsed.root_canonical {c : Node} (collapsed : Collapsed calcSha256 c) :
    Canonical calcSha256 (if c.isNil then createEmptyTrieNode calcSha256 else c).dropSandbox ∧
      (if c.isNil then createEmptyTrieNode calcSha256 else c).dropSandbox.lookup calcSha256 = c.lookup calcSha256 := by
  rcases collapsed with rfl | shaped
  · rw [if_pos isNil_nil, dropSandbox_of_clean clean_createEmptyTrieNode]
    refine ⟨canonical_createEmptyTrieNode, ?_⟩
    funext key
    rw [lookup_createEmptyTrieNode, lookup_nil]
  · rw [if_neg (by simpa [isNil_eq_false_iff] using shaped.ne_nil)]
    exact ⟨⟨clean_dropSandbox c, Or.inr shaped.dropSandbox⟩, lookup_dropSandbox c⟩

/-- One `Update` on a root between updates gives a root between updates holding the diffs
written in order. -/
theorem updateRoot_spec {root : Node} (canonical : Canonical calcSha256 root) (diffs : TrieDiffs) :
    Canonical calcSha256 (updateRoot calcSha256 root diffs) ∧
      (updateRoot calcSha256 root diffs).lookup calcSha256 = applyDiffs (root.lookup calcSha256) diffs := by
  have insertable : Pending calcSha256 root ∨ (Shaped calcSha256 root ∧ Clean root) := by
    obtain ⟨clean, rfl | shaped⟩ := canonical
    · exact Or.inl pending_createEmptyTrieNode
    · exact Or.inr ⟨shaped, clean⟩
  obtain ⟨inserted, insertedLookup⟩ := insertDiffs_spec insertable diffs
  obtain ⟨collapsed, collapsedLookup⟩ : Collapsed calcSha256 (collapseAndHash calcSha256 (hashTrieNode calcSha256)
      (diffs.foldl (fun root diff => (insert calcSha256 diff.value root (toBin diff.key (toBinSize diff.key))).1) root)) ∧
      (collapseAndHash calcSha256 (hashTrieNode calcSha256)
        (diffs.foldl (fun root diff => (insert calcSha256 diff.value root (toBin diff.key (toBinSize diff.key))).1)
          root)).lookup calcSha256 = applyDiffs (root.lookup calcSha256) diffs := by
    rw [← insertedLookup]
    rcases inserted with pending | ⟨shaped, clean⟩
    · exact collapseAndHash_pending pending
    · rw [collapseAndHash_settled shaped clean]
      exact ⟨Or.inr shaped, rfl⟩
  obtain ⟨rootCanonical, rootLookup⟩ := collapsed.root_canonical
  exact ⟨rootCanonical, rootLookup.trans collapsedLookup⟩

theorem Forest.findRoot_appendRoot (f : Forest) (root : Node) : (f.appendRoot root).findRoot root.hash = some root := by
  simp [Forest.findRoot, Forest.appendRoot]

theorem Forest.update_of_findRoot {f : Forest} {rootHash : Bytes} {root : Node}
    (found : f.findRoot rootHash = some root) (diffs : TrieDiffs) :
    f.update calcSha256 rootHash diffs =
      .ok ((updateRoot calcSha256 root diffs).hash, f.appendRoot (updateRoot calcSha256 root diffs)) := by
  simp only [Forest.update, found]

/-- `Update` returning a root: it found its starting root and appended the updated one. -/
theorem Forest.update_ok {f f' : Forest} {rootHash newRoot : Bytes} {diffs : TrieDiffs}
    (update : f.update calcSha256 rootHash diffs = .ok (newRoot, f')) :
    ∃ root, f.findRoot rootHash = some root ∧ newRoot = (updateRoot calcSha256 root diffs).hash ∧
      f' = f.appendRoot (updateRoot calcSha256 root diffs) := by
  unfold Forest.update at update
  cases found : f.findRoot rootHash with
  | none =>
    rw [found] at update
    cases update
  | some root =>
    rw [found] at update
    cases update
    exact ⟨root, rfl, rfl, rfl⟩

/-- The newest root is found by its own hash, whatever older roots share it. -/
theorem Forest.findRoot_of_getLast? {f : Forest} {last : Node} (ends : f.roots.getLast? = some last) :
    f.findRoot last.hash = some last := by
  obtain ⟨older, split⟩ := List.getLast?_eq_some_iff.mp ends
  have appended : f = Forest.appendRoot ⟨older⟩ last := by
    cases f
    simp only [Forest.appendRoot, Forest.mk.injEq]
    exact split
  rw [appended]
  exact Forest.findRoot_appendRoot _ _

/-- `Forget` of the first root's hash drops the first root. -/
theorem Forest.forget_of_head {f : Forest} {first : Node} {rest : List Node} (roots : f.roots = first :: rest) :
    f.forget first.hash = ⟨rest⟩ := by
  unfold Forest.forget
  rw [roots]
  simp

/-- Batch after batch from a root between updates, every `Update` finds its root and the last
root holds all the diffs written in order. -/
theorem Forest.updateBatches_spec {f : Forest} {root : Node} (canonical : Canonical calcSha256 root)
    (found : f.findRoot root.hash = some root) (batches : List TrieDiffs) :
    ∃ root' f', f.updateBatches calcSha256 root.hash batches = .ok (root'.hash, f') ∧
      f'.findRoot root'.hash = some root' ∧ Canonical calcSha256 root' ∧
        root'.lookup calcSha256 = batches.foldl applyDiffs (root.lookup calcSha256) := by
  induction batches generalizing f root with
  | nil => exact ⟨root, f, rfl, found, canonical, rfl⟩
  | cons diffs batches ih =>
    obtain ⟨updated, updatedLookup⟩ := updateRoot_spec canonical diffs
    obtain ⟨root', f', run, found', canonical', lookup'⟩ :=
      ih updated (Forest.findRoot_appendRoot f (updateRoot calcSha256 root diffs))
    refine ⟨root', f', ?_, found', canonical', ?_⟩
    · rw [Forest.updateBatches, Forest.update_of_findRoot found]
      exact run
    · rw [lookup', updatedLookup, List.foldl_cons]

/-- What the trie holds, from the empty trie, is the key-value map of the batches read at the
bit path of each key. -/
theorem foldl_applyDiffs_eq_of_batchesMap {batches batches' : List TrieDiffs}
    (sameMap : batchesMap calcSha256 batches = batchesMap calcSha256 batches') :
    batches.foldl applyDiffs (fun _ => zeroValueHash calcSha256) =
      batches'.foldl applyDiffs (fun _ => zeroValueHash calcSha256) := by
  simp only [batchesMap, ← List.foldl_flatten] at sameMap
  unfold applyDiffs
  rw [← List.foldl_flatten, ← List.foldl_flatten]
  exact Function.foldl_update_eq_of_injective toBin_injective TrieDiff.key TrieDiff.value _ sameMap

theorem newForest_findRoot :
    (newForest calcSha256).1.findRoot (createEmptyTrieNode calcSha256).hash = some (createEmptyTrieNode calcSha256) := by
  unfold newForest Forest.findRoot
  simp

theorem lookup_createEmptyTrieNode_eq :
    (createEmptyTrieNode calcSha256).lookup calcSha256 = fun _ => zeroValueHash calcSha256 :=
  funext lookup_createEmptyTrieNode

/-- Deleting every key brings `Update` back to the root hash of `NewForest`. -/
theorem Forest.updateBatches_of_batchesMap_empty {batches : List TrieDiffs}
    (empty : batchesMap calcSha256 batches = fun _ => zeroValueHash calcSha256) :
    ∃ f, (newForest calcSha256).1.updateBatches calcSha256 (newForest calcSha256).2 batches =
      .ok ((newForest calcSha256).2, f) := by
  obtain ⟨root, f, run, -, canonical, holds⟩ :=
    Forest.updateBatches_spec canonical_createEmptyTrieNode newForest_findRoot batches
  have emptied : root = createEmptyTrieNode calcSha256 := by
    apply canonical.eq_of_lookup canonical_createEmptyTrieNode
    have none : batches.foldl applyDiffs (fun _ => zeroValueHash calcSha256) =
        ([] : List TrieDiffs).foldl applyDiffs (fun _ => zeroValueHash calcSha256) :=
      foldl_applyDiffs_eq_of_batchesMap empty
    rw [holds, lookup_createEmptyTrieNode_eq]
    exact none
  subst emptied
  exact ⟨f, run⟩

end UpdateSpec

end OrbsNetwork.Merkle
