import OrbsNetwork.Merkle.HasherSpec
import OrbsNetwork.Merkle.OrderedRootSpec
import OrbsNetwork.Merkle.Canonical

/-! The ordered tree of `NewOrderedTree` is the top-down block tree `blockFold`, and `GetProof`
walks one block down per step. -/

namespace OrbsNetwork.Merkle

open PairTree Node

section OrderedTreeSpec

variable (calcSha256 : Bytes → Bytes)

/-- What block `a` of level `d` holds, seen from the node above it: entry `a * 2^d + i` under the
`d` bits of `i`, and nothing elsewhere. -/
def blockLookup (values : List Bytes) (d a : Nat) (key : List Bool) : Bytes :=
  if key.length = d ∧ a * 2 ^ d + bitsValue key < values.length then values.getD (a * 2 ^ d + bitsValue key) []
  else zeroValueHash calcSha256

variable {calcSha256}

section Keys

theorem length_toKey (index keySize : Nat) : (toKey index keySize).length = keySize := by
  simp [toKey]

theorem bitsValue_toKey (index keySize : Nat) : bitsValue (toKey index keySize) = index % 2 ^ keySize :=
  bitsValue_map_testBit index keySize

/-- Below `2^keySize`, the key of an index is the one key of that length spelling it. -/
theorem toKey_eq_iff {index keySize : Nat} (below : index < 2 ^ keySize) (key : List Bool) :
    toKey index keySize = key ↔ key.length = keySize ∧ bitsValue key = index := by
  constructor
  · rintro rfl
    exact ⟨length_toKey _ _, by rw [bitsValue_toKey, Nat.mod_eq_of_lt below]⟩
  · rintro ⟨length, value⟩
    apply eq_of_bitsValue_eq (by rw [length_toKey, length])
    rw [bitsValue_toKey, Nat.mod_eq_of_lt below, value]

theorem getElem?_toKey {index keySize j : Nat} (inside : j < keySize) :
    (toKey index keySize)[j]? = some (index.testBit (keySize - 1 - j)) := by
  simp [toKey, inside]

end Keys

section Build

/-- The inserts of `create` from index `start` on: the trie stays pending with no stored hash, and
holds each value under the key of its index. -/
theorem foldl_insert_spec (keySize : Nat) (values : List Bytes) (start : Nat) (root : Node)
    (pending : Pending calcSha256 root) (unhashed : Unhashed root) (fits : start + values.length ≤ 2 ^ keySize) :
    Pending calcSha256 ((values.zipIdx start).foldl
        (fun root entry => (insert calcSha256 entry.1 root (toKey entry.2 keySize)).1) root) ∧
      Unhashed ((values.zipIdx start).foldl
        (fun root entry => (insert calcSha256 entry.1 root (toKey entry.2 keySize)).1) root) ∧
      ∀ key, ((values.zipIdx start).foldl
          (fun root entry => (insert calcSha256 entry.1 root (toKey entry.2 keySize)).1) root).lookup calcSha256 key =
        if key.length = keySize ∧ start ≤ bitsValue key ∧ bitsValue key < start + values.length then
          values.getD (bitsValue key - start) []
        else root.lookup calcSha256 key := by
  induction values generalizing start root with
  | nil => exact ⟨pending, unhashed, fun key => by simp⟩
  | cons value rest ih =>
    simp only [List.zipIdx_cons, List.foldl_cons]
    obtain ⟨⟨pending', inserted⟩, -⟩ := insert_spec (Or.inl pending) value (toKey start keySize)
    obtain ⟨pendingAll, unhashedAll, keys⟩ := ih (start + 1) _ pending' (insert_unhashed value unhashed _)
      (by simp only [List.length_cons] at fits; omega)
    refine ⟨pendingAll, unhashedAll, fun key => ?_⟩
    have onKey : key = toKey start keySize ↔ key.length = keySize ∧ bitsValue key = start :=
      eq_comm.trans (toKey_eq_iff (by simp only [List.length_cons] at fits; omega) key)
    rw [keys, inserted]
    simp only [onKey, List.length_cons]
    by_cases later : key.length = keySize ∧ start + 1 ≤ bitsValue key ∧ bitsValue key < start + 1 + rest.length
    · rw [if_pos later, if_pos ⟨later.1, by omega, by omega⟩,
        show bitsValue key - start = bitsValue key - (start + 1) + 1 by omega, List.getD_cons_succ]
    rw [if_neg later]
    by_cases first : key.length = keySize ∧ bitsValue key = start
    · rw [if_pos first, if_pos ⟨first.1, by omega, by omega⟩, first.2, Nat.sub_self, List.getD_cons_zero]
    · rw [if_neg first, if_neg (by omega)]

end Build

section Collapsed

theorem treeHash_setHash (n : Node) (hash : Bytes) : treeHash calcSha256 (n.setHash hash) = treeHash calcSha256 n := by
  cases n <;> rfl

theorem hashTrieNode_ne_nil (sized : ∀ x, (calcSha256 x).length = 32) (n : Node) : hashTrieNode calcSha256 n ≠ [] := by
  intro empty
  have length := congrArg List.length empty
  unfold hashTrieNode hashBytes at length
  split at length <;> simp [sized] at length

theorem zeroValueHash_ne_nil (sized : ∀ x, (calcSha256 x).length = 32) : zeroValueHash calcSha256 ≠ [] := by
  intro empty
  have length := congrArg List.length empty
  simp [zeroValueHash, sized] at length

/-- The trie `create` collapses, holding the values under their keys and `&node{}`'s empty value at
the empty key. -/
theorem create_keys (values : List Bytes) (keySize : Nat) (fits : values.length ≤ 2 ^ keySize) :
    Pending calcSha256 (values.zipIdx.foldl
        (fun root entry => (insert calcSha256 entry.1 root (toKey entry.2 keySize)).1) (node [] [] [] nil nil none)) ∧
      Unhashed (values.zipIdx.foldl
        (fun root entry => (insert calcSha256 entry.1 root (toKey entry.2 keySize)).1) (node [] [] [] nil nil none)) ∧
      ∀ key, (values.zipIdx.foldl (fun root entry => (insert calcSha256 entry.1 root (toKey entry.2 keySize)).1)
          (node [] [] [] nil nil none)).lookup calcSha256 key =
        if key.length = keySize ∧ bitsValue key < values.length then values.getD (bitsValue key) []
        else if key = [] then [] else zeroValueHash calcSha256 := by
  obtain ⟨pending, unhashed, keys⟩ := foldl_insert_spec keySize values 0 (node [] [] [] nil nil none)
    pending_fresh ⟨rfl, unhashed_nil, unhashed_nil⟩ (by omega)
  refine ⟨pending, unhashed, fun key => ?_⟩
  rw [keys, lookup_leaf]
  simp only [Nat.zero_le, true_and, Nat.zero_add, Nat.sub_zero]

/-- The root `create` returns for a nonempty list: a compressed trie that holds the keys of the
inserts and stores `treeHash` hashes. -/
theorem create_spec (sized : ∀ x, (calcSha256 x).length = 32) (values : List Bytes) (nonempty : values ≠ [])
    (keySize : Nat) (fits : values.length ≤ 2 ^ keySize) :
    (create calcSha256 values keySize = nil ∨ Compressed calcSha256 (create calcSha256 values keySize)) ∧
      HashedBy (treeHash calcSha256) (create calcSha256 values keySize) ∧
      ∀ key, (create calcSha256 values keySize).lookup calcSha256 key =
        if key.length = keySize ∧ bitsValue key < values.length then values.getD (bitsValue key) []
        else if key = [] then [] else zeroValueHash calcSha256 := by
  obtain ⟨pending, unhashed, keys⟩ := @create_keys calcSha256 values keySize fits
  have built : create calcSha256 values keySize = collapseAndHash calcSha256 (treeHash calcSha256)
      (values.zipIdx.foldl (fun root entry => (insert calcSha256 entry.1 root (toKey entry.2 keySize)).1)
        (node [] [] [] nil nil none)) := by
    rw [create, if_neg (by simpa using nonempty)]
  obtain ⟨shape, same⟩ := collapseAndHash_compressed (treeHash calcSha256) pending
  rw [built]
  exact ⟨shape, collapseAndHash_hashedBy treeHash_setHash (hashTrieNode_ne_nil sized) pending unhashed,
    fun key => by rw [same, keys]⟩

end Collapsed

section Blocks

variable {values : List Bytes}

theorem blockIndex_cons (a : Nat) (bit : Bool) (key : List Bool) :
    a * 2 ^ (key.length + 1) + bitsValue (bit :: key) = (2 * a + bit.toNat) * 2 ^ key.length + bitsValue key := by
  rw [bitsValue_cons, Nat.add_mul, double_mul_two_pow, Nat.add_assoc]

/-- One bit read from the top of a block: the lower or the upper half of it. -/
theorem blockLookup_cons (d a : Nat) (bit : Bool) (key : List Bool) :
    blockLookup calcSha256 values (d + 1) a (bit :: key) = blockLookup calcSha256 values d (2 * a + bit.toNat) key := by
  unfold blockLookup
  by_cases length : key.length = d
  · subst length
    simp only [List.length_cons, blockIndex_cons, true_and]
  · simp [length]

/-- A node's first path bit, read from the key. -/
theorem lookup_cons_path {bit : Bool} {p : List Bool} {v h : Bytes} {l r : Node} {s : Option DirtyNode}
    (key : List Bool) :
    (node (bit :: p) v h l r s).lookup calcSha256 (bit :: key) = (node p v h l r s).lookup calcSha256 key :=
  @lookup_below calcSha256 [] p key bit v h l r s

theorem blockLookup_held {d a : Nat} {key : List Bool}
    (held : blockLookup calcSha256 values d a key ≠ zeroValueHash calcSha256) :
    key.length = d ∧ a * 2 ^ d + bitsValue key < values.length := by
  unfold blockLookup at held
  split_ifs at held with inside
  · exact inside
  · exact absurd rfl held

/-- The children of a node holding a block are nil once no bit is left below its path. -/
theorem child_nil_of_blockLookup {d a : Nat} {p : List Bool} {v h : Bytes} {l r : Node} {s : Option DirtyNode}
    (compressed : Compressed calcSha256 (node p v h l r s))
    (holds : (node p v h l r s).lookup calcSha256 = blockLookup calcSha256 values d a)
    (short : d ≤ p.length) (arc : Bool) : (node p v h l r s).getChild arc = nil := by
  refine (compressed.child arc).resolve_right fun child => ?_
  obtain ⟨key, held⟩ := child.exists_value
  rw [← lookup_child, holds] at held
  have length := (blockLookup_held held).1
  simp only [List.length_append, List.length_cons] at length
  omega

theorem hashTwo_comm (x y : Bytes) : hashTwo calcSha256 x y = hashTwo calcSha256 y x := by
  unfold hashTwo bytesCompareGt
  rcases Std.lt_trichotomy x y with less | same | greater
  · simp [less, List.lt_asymm less]
  · rw [same]
  · simp [greater, List.lt_asymm greater]

/-- A leaf storing its `treeHash` is hashed as the value it holds. -/
theorem hash_of_leaf {c : Node} {key : List Bool} {w : Bytes} (hashed : HashedBy (treeHash calcSha256) c)
    (leaf : c.isLeaf = true) (holds : c.lookup calcSha256 key = w) (valuedKey : w ≠ zeroValueHash calcSha256) :
    c.hash = w := by
  cases c with
  | nil => exact absurd (by rw [← holds, lookup_nil]) valuedKey
  | node q value stored l r t =>
    obtain ⟨rfl, rfl⟩ : l = nil ∧ r = nil := by simpa [isLeaf, isNil_iff] using leaf
    rw [lookup_leaf] at holds
    split_ifs at holds
    · rw [hash_node, hashed.1, ← holds]
      rfl
    · exact absurd holds.symm valuedKey

theorem hashTwo_getChild {p : List Bool} {v h : Bytes} {l r : Node} {s : Option DirtyNode} (bit : Bool) :
    hashTwo calcSha256 ((node p v h l r s).getChild bit).hash ((node p v h l r s).getChild (!bit)).hash =
      hashTwo calcSha256 l.hash r.hash := by
  cases bit
  · rfl
  · exact hashTwo_comm _ _

theorem treeHash_branch {p : List Bool} {v h : Bytes} {l r : Node} {s : Option DirtyNode} (leftNotNil : l ≠ nil) :
    treeHash calcSha256 (node p v h l r s) = hashTwo calcSha256 l.hash r.hash := by
  simp [treeHash, isLeaf, isNil_eq_false_iff.mpr leftNotNil]

/-- `GetProof` at a node whose path starts with a bit: the bit index moves past it. -/
theorem getProofLoop_cons_path {key : List Bool} {keySize j : Nat} {bit : Bool} {p : List Bool} {v h : Bytes}
    {l r : Node} {s : Option DirtyNode} (proof : OrderedTreeProof) (more : j + 1 < keySize) :
    getProofLoop key keySize (node (bit :: p) v h l r s) proof j =
      getProofLoop key keySize (node p v h l r s) proof (j + 1) := by
  rw [getProofLoop, getProofLoop, if_pos (by omega), if_pos more, List.length_cons,
    show j + (p.length + 1) = j + 1 + p.length by omega]

/-- `GetProof` at a node with an empty path and two children: one key bit chooses the child, the
other child's hash joins the proof, and the walk stops at a leaf. -/
theorem getProofLoop_branch {key : List Bool} {keySize j : Nat} {bit : Bool} {v h : Bytes} {l r : Node}
    {s : Option DirtyNode} (proof : OrderedTreeProof) (inside : j < keySize) (read : key[j]? = some bit)
    (leftNotNil : l ≠ nil) (rightNotNil : r ≠ nil) :
    getProofLoop key keySize (node [] v h l r s) proof j =
      if ((node [] v h l r s).getChild bit).isLeaf then
        some (proof ++ [((node [] v h l r s).getChild (!bit)).hash])
      else getProofLoop key keySize ((node [] v h l r s).getChild bit)
        (proof ++ [((node [] v h l r s).getChild (!bit)).hash]) (j + 1) := by
  rw [getProofLoop, if_pos inside]
  dsimp only
  rw [List.length_nil, Nat.add_zero, read]
  cases bit <;> simp [isNil_eq_false_iff.mpr leftNotNil, isNil_eq_false_iff.mpr rightNotNil, getChild]

section Valued

variable (valued : ∀ value ∈ values, value ≠ zeroValueHash calcSha256)
include valued

theorem blockLookup_of_inside {d a : Nat} {key : List Bool} (length : key.length = d)
    (inside : a * 2 ^ d + bitsValue key < values.length) :
    blockLookup calcSha256 values d a key = values.getD (a * 2 ^ d + bitsValue key) [] ∧
      values.getD (a * 2 ^ d + bitsValue key) [] ≠ zeroValueHash calcSha256 := by
  refine ⟨by rw [blockLookup, if_pos ⟨length, inside⟩], ?_⟩
  rw [List.getD_eq_getElem _ _ inside]
  exact valued _ (List.getElem_mem inside)

/-- A block whose first entry is in the list holds a value under the key of zeros. -/
theorem blockLookup_zeros {d a : Nat} (inside : a * 2 ^ d < values.length) :
    blockLookup calcSha256 values d a (List.replicate d false) ≠ zeroValueHash calcSha256 := by
  have entry := blockLookup_of_inside valued (a := a) (List.length_replicate (n := d) (a := false))
    (by simpa using inside)
  rw [entry.1]
  exact entry.2

/-- A compressed trie storing `treeHash` hashes that holds block `a` of level `d` has the block's
tree as its hash. The induction reads one bit at a time: from the node's path while it has one,
then through the arc into a child. -/
theorem hash_of_blockLookup {d a : Nat} {n : Node} (compressed : Compressed calcSha256 n)
    (hashed : HashedBy (treeHash calcSha256) n) (holds : n.lookup calcSha256 = blockLookup calcSha256 values d a)
    (inside : a * 2 ^ d < values.length) :
    n.hash = blockFold (hashTwo calcSha256) values [] d a := by
  induction d generalizing a n with
  | zero =>
    cases n with
    | nil => exact compressed.elim
    | node p v h l r s =>
      have held : (node p v h l r s).lookup calcSha256 [] ≠ zeroValueHash calcSha256 := by
        rw [holds]
        exact blockLookup_zeros valued inside
      obtain rfl : p = [] := List.prefix_nil.mp (prefix_of_lookup_ne held)
      have value : v = values.getD a [] := by
        have := congrFun holds []
        rwa [lookup_self, blockLookup, if_pos ⟨rfl, by simpa using inside⟩, Nat.pow_zero, Nat.mul_one,
          bitsValue_nil, Nat.add_zero] at this
      obtain rfl : l = nil := child_nil_of_blockLookup compressed holds (Nat.zero_le _) false
      obtain rfl : r = nil := child_nil_of_blockLookup compressed holds (Nat.zero_le _) true
      rw [hash_node, hashed.1, value]
      rfl
  | succ e ih =>
    cases n with
    | nil => exact compressed.elim
    | node p v h l r s =>
      rcases p with _ | ⟨bit, p⟩
      · -- a branch: the value is absent, so both children are there
        have valueless : v = zeroValueHash calcSha256 := by
          have := congrFun holds []
          rwa [lookup_self, blockLookup, if_neg (by simp)] at this
        have both : l ≠ nil ∧ r ≠ nil := compressed.2.2.resolve_left (by simp [hasValue_iff, valueless])
        have children : ∀ arc, ((node [] v h l r s).getChild arc).lookup calcSha256 =
            blockLookup calcSha256 values e (2 * a + arc.toNat) := by
          intro arc
          funext key
          rw [← blockLookup_cons, ← holds]
          exact (lookup_child arc key).symm
        have upper : (2 * a + 1) * 2 ^ e < values.length := by
          obtain ⟨key, held⟩ := ((compressed.child true).resolve_left both.2).exists_value
          rw [children] at held
          have := (blockLookup_held held).2
          simp only [Bool.toNat_true] at this
          omega
        have left := ih ((compressed.child false).resolve_left both.1) hashed.2.1 (children false)
          (by rw [Bool.toNat_false, Nat.add_zero, double_mul_two_pow]; exact inside)
        have right := ih ((compressed.child true).resolve_left both.2) hashed.2.2 (children true) upper
        simp only [getChild_false, getChild_true, left_node, right_node, Bool.toNat_false, Bool.toNat_true,
          Nat.add_zero] at left right
        rw [hash_node, hashed.1, blockFold_succ_of_lt upper]
        simp only [treeHash, isLeaf, left_node, right_node, isNil_eq_false_iff.mpr both.1, Bool.false_and,
          Bool.false_eq_true, if_false, left, right]
      · -- a path bit: the block's entries all lie in its lower half
        have zeros := blockLookup_zeros valued inside
        rw [← holds] at zeros
        have first := prefix_of_lookup_ne zeros
        rw [List.replicate_succ, List.cons_prefix_cons] at first
        obtain rfl := first.1
        have lower : values.length ≤ (2 * a + 1) * 2 ^ e := by
          by_contra upper
          have length : (true :: List.replicate e false).length = e + 1 := by simp
          have index : a * 2 ^ (e + 1) + bitsValue (true :: List.replicate e false) = (2 * a + 1) * 2 ^ e := by
            simp only [bitsValue_cons, List.length_replicate, bitsValue_replicate_false, Bool.toNat_true, Nat.one_mul,
              Nat.add_zero, Nat.add_mul, double_mul_two_pow]
          have entry := blockLookup_of_inside valued (a := a) length (by rw [index]; omega)
          have held : (node (false :: p) v h l r s).lookup calcSha256 (true :: List.replicate e false) ≠
              zeroValueHash calcSha256 := by
            rw [holds, entry.1]
            exact entry.2
          exact absurd (List.cons_prefix_cons.mp (prefix_of_lookup_ne held)).1 Bool.false_ne_true
        have tail : (node p v h l r s).lookup calcSha256 = blockLookup calcSha256 values e (2 * a) := by
          funext key
          rw [← Nat.add_zero (2 * a), ← Bool.toNat_false, ← blockLookup_cons, ← holds, lookup_cons_path]
        rw [blockFold_succ_of_le lower]
        -- the node's path is read neither by `Compressed` nor by `treeHash`
        exact @ih (2 * a) (node p v h l r s) compressed hashed tail (by rw [double_mul_two_pow]; exact inside)

/-- From a node that holds block `a` of level `d` and is not a leaf, `GetProof` along a key held
in the block collects at most `d` sibling hashes, which rebuild the node's hash from the value. -/
theorem getProofLoop_of_blockLookup {d a : Nat} {n : Node} (compressed : Compressed calcSha256 n)
    (hashed : HashedBy (treeHash calcSha256) n) (holds : n.lookup calcSha256 = blockLookup calcSha256 values d a)
    (branch : n.isLeaf = false) {key rest : List Bool} {j keySize : Nat} (suffix : key.drop j = rest)
    (length : rest.length = d) (ends : j + d = keySize) (inside : a * 2 ^ d + bitsValue rest < values.length)
    (proof : OrderedTreeProof) :
    ∃ siblings, getProofLoop key keySize n proof j = some (proof ++ siblings) ∧ siblings.length ≤ d ∧
      siblings.foldr (fun sibling current => hashTwo calcSha256 current sibling)
        (values.getD (a * 2 ^ d + bitsValue rest) []) = n.hash := by
  induction d generalizing a n j rest proof with
  | zero =>
    cases n with
    | nil => exact compressed.elim
    | node p v h l r s =>
      obtain rfl := child_nil_of_blockLookup compressed holds (Nat.zero_le _) false
      obtain rfl := child_nil_of_blockLookup compressed holds (Nat.zero_le _) true
      exact absurd branch (by simp [isLeaf])
  | succ e ih =>
    cases n with
    | nil => exact compressed.elim
    | node p v h l r s =>
      have entry := blockLookup_of_inside valued length inside
      have held : (node p v h l r s).lookup calcSha256 rest ≠ zeroValueHash calcSha256 := by
        rw [holds, entry.1]
        exact entry.2
      obtain ⟨tail, rfl⟩ := prefix_of_lookup_ne held
      rcases p with _ | ⟨bit, p⟩
      · -- a branch: the first key bit chooses the child
        cases tail with
        | nil => simp at length
        | cons bit below =>
          simp only [List.nil_append, List.length_cons, Nat.add_right_cancel_iff] at length suffix inside ⊢
          have valueless : v = zeroValueHash calcSha256 := by
            have := congrFun holds []
            rwa [lookup_self, blockLookup, if_neg (by simp)] at this
          have both : l ≠ nil ∧ r ≠ nil := compressed.2.2.resolve_left (by simp [hasValue_iff, valueless])
          have children : ∀ arc, ((node [] v h l r s).getChild arc).lookup calcSha256 =
              blockLookup calcSha256 values e (2 * a + arc.toNat) := by
            intro arc
            funext key
            rw [← blockLookup_cons, ← holds]
            exact (lookup_child arc key).symm
          have read : key[j]? = some bit := by
            rw [← Nat.add_zero j, ← List.getElem?_drop, suffix]
            rfl
          have index : a * 2 ^ (e + 1) + bitsValue (bit :: below) = (2 * a + bit.toNat) * 2 ^ e + bitsValue below := by
            rw [← length]
            exact blockIndex_cons a bit below
          have rebuilt : hashTwo calcSha256 ((node [] v h l r s).getChild bit).hash
              ((node [] v h l r s).getChild (!bit)).hash = h := by
            rw [hashTwo_getChild, hashed.1, treeHash_branch both.1]
          rw [getProofLoop_branch proof (by omega) read both.1 both.2, index]
          have childEntry := blockLookup_of_inside valued length (by rw [← index]; exact inside)
          have child : Compressed calcSha256 ((node [] v h l r s).getChild bit) := by
            refine ((compressed.child bit).resolve_left fun absent => childEntry.2 ?_)
            rw [← childEntry.1, ← children, absent, lookup_nil]
          have childHashed : HashedBy (treeHash calcSha256) ((node [] v h l r s).getChild bit) := by
            cases bit
            · exact hashed.2.1
            · exact hashed.2.2
          split_ifs with leaf
          · -- the child is the leaf that holds the key
            refine ⟨[((node [] v h l r s).getChild (!bit)).hash], rfl, by simp, ?_⟩
            rw [List.foldr_cons, List.foldr_nil, hash_node,
              ← hash_of_leaf childHashed leaf (by rw [children, childEntry.1]) childEntry.2]
            exact rebuilt
          · obtain ⟨siblings, walk, bound, rebuiltBelow⟩ := ih child childHashed (children bit) (Bool.not_eq_true _ ▸ leaf)
              (by rw [← List.tail_drop, suffix]; rfl) length (by omega) (by rw [← index]; exact inside)
              (proof ++ [((node [] v h l r s).getChild (!bit)).hash])
            refine ⟨((node [] v h l r s).getChild (!bit)).hash :: siblings, ?_, by simp; omega, ?_⟩
            · rw [walk, List.append_assoc, List.singleton_append]
            · rw [List.foldr_cons, rebuiltBelow, hash_node]
              exact rebuilt
      · -- a path bit: the walk passes it and goes on in the same node
        simp only [List.cons_append, List.length_cons, Nat.add_right_cancel_iff] at length
        have tailHolds : (node p v h l r s).lookup calcSha256 = blockLookup calcSha256 values e (2 * a + bit.toNat) := by
          funext key
          rw [← blockLookup_cons, ← holds, lookup_cons_path]
        have deeper : p.length + 1 < e + 1 := by
          by_contra short
          have leftNil := child_nil_of_blockLookup compressed holds (by simp; omega) false
          have rightNil := child_nil_of_blockLookup compressed holds (by simp; omega) true
          simp only [getChild_false, getChild_true, left_node, right_node] at leftNil rightNil
          simp [isLeaf, leftNil, rightNil] at branch
        have index : a * 2 ^ (e + 1) + bitsValue (bit :: (p ++ tail)) =
            (2 * a + bit.toNat) * 2 ^ e + bitsValue (p ++ tail) := by
          rw [← length]
          exact blockIndex_cons a bit (p ++ tail)
        rw [getProofLoop_cons_path proof (by omega), List.cons_append, index]
        obtain ⟨siblings, walk, bound, rebuilt⟩ := @ih (2 * a + bit.toNat) (node p v h l r s) compressed hashed
          tailHolds branch (p ++ tail) (j + 1) (by rw [← List.tail_drop, suffix]; rfl) length (by omega)
          (by rw [← index]; simpa using inside) proof
        exact ⟨siblings, walk, by omega, rebuilt⟩

end Valued

end Blocks

section Root

theorem getProofLoop_value_congr {key : List Bool} {keySize j : Nat} {p : List Bool} {v w h : Bytes}
    {l r : Node} {s : Option DirtyNode} (proof : OrderedTreeProof) :
    getProofLoop key keySize (node p v h l r s) proof j = getProofLoop key keySize (node p w h l r s) proof j := by
  rw [getProofLoop, getProofLoop]

theorem child_ne_nil_of_held {p : List Bool} {v h : Bytes} {l r : Node} {s : Option DirtyNode} {bit : Bool}
    {key : List Bool} (held : (node p v h l r s).lookup calcSha256 (p ++ bit :: key) ≠ zeroValueHash calcSha256) :
    (node p v h l r s).getChild bit ≠ nil := by
  intro absent
  rw [lookup_child, absent, lookup_nil] at held
  exact held rfl

/-- The root `NewOrderedTree` builds for a nonempty list holds block 0 of level `keySize`, once
`&node{}`'s empty value at the empty key is taken out of it; that value is read neither by
`treeHash` of a node with children nor by `GetProof`. -/
theorem orderedRoot_spec (sized : ∀ x, (calcSha256 x).length = 32) {values : List Bytes} (nonempty : values ≠ [])
    (valued : ∀ value ∈ values, value ≠ zeroValueHash calcSha256) :
    ∃ root, Compressed calcSha256 root ∧ HashedBy (treeHash calcSha256) root ∧
      root.lookup calcSha256 = blockLookup calcSha256 values (ceilLog2 values.length) 0 ∧
      root.hash = (create calcSha256 values (ceilLog2 values.length)).hash ∧
      (0 < ceilLog2 values.length → root.isLeaf = false) ∧
      ∀ key proof j, getProofLoop key (ceilLog2 values.length) (create calcSha256 values (ceilLog2 values.length)) proof j =
        getProofLoop key (ceilLog2 values.length) root proof j := by
  have positive : 0 < values.length := List.length_pos_iff.mpr nonempty
  have fits : values.length ≤ 2 ^ ceilLog2 values.length := Nat.le_pow_clog Nat.one_lt_two _
  obtain ⟨shape, hashed, keys⟩ := create_spec sized values nonempty _ fits
  have many : 0 < ceilLog2 values.length → 1 < values.length := by
    intro deep
    by_contra single
    rw [ceilLog2, Nat.clog_of_right_le_one (by omega)] at deep
    exact Nat.lt_irrefl 0 deep
  have upper : 0 < ceilLog2 values.length → 2 ^ (ceilLog2 values.length - 1) < values.length :=
    fun deep => Nat.pow_pred_clog_lt_self Nat.one_lt_two (many deep)
  generalize ceilLog2 values.length = k at *
  cases k with
  | zero =>
    have holds : (create calcSha256 values 0).lookup calcSha256 = blockLookup calcSha256 values 0 0 := by
      funext key
      rw [keys]
      cases key with
      | nil => simp [blockLookup, positive]
      | cons bit key => simp [blockLookup]
    have compressed : Compressed calcSha256 (create calcSha256 values 0) := by
      refine shape.resolve_left fun empty => blockLookup_zeros valued (d := 0) (a := 0) (by simpa using positive) ?_
      rw [← holds, empty, lookup_nil]
    exact ⟨_, compressed, hashed, holds, rfl, fun deep => absurd deep (Nat.lt_irrefl 0), fun _ _ _ => rfl⟩
  | succ e =>
    have upper : 2 ^ e < values.length := upper (Nat.succ_pos e)
    have emptyKey : (create calcSha256 values (e + 1)).lookup calcSha256 [] = [] := by
      rw [keys]
      simp
    cases root : create calcSha256 values (e + 1) with
    | nil =>
      rw [root, lookup_nil] at emptyKey
      exact absurd emptyKey (zeroValueHash_ne_nil sized)
    | node p v h l r s =>
      rw [root] at shape hashed keys emptyKey
      have emptyHeld : (node p v h l r s).lookup calcSha256 [] ≠ zeroValueHash calcSha256 := by
        rw [emptyKey]
        exact (zeroValueHash_ne_nil sized).symm
      obtain rfl : p = [] := List.prefix_nil.mp (prefix_of_lookup_ne emptyHeld)
      have holds : (node [] (zeroValueHash calcSha256) h l r s).lookup calcSha256 =
          blockLookup calcSha256 values (e + 1) 0 := by
        funext key
        cases key with
        | nil => rw [lookup_self, blockLookup, if_neg (by simp)]
        | cons bit key =>
          have sameChild : (node [] (zeroValueHash calcSha256) h l r s).lookup calcSha256 (bit :: key) =
              (node [] v h l r s).lookup calcSha256 (bit :: key) :=
            (lookup_child bit key).trans (lookup_child bit key).symm
          rw [sameChild, keys]
          simp [blockLookup]
      have zeros := blockLookup_zeros valued (d := e + 1) (a := 0) (by simpa using positive)
      rw [← holds, List.replicate_succ] at zeros
      have index : 0 * 2 ^ (e + 1) + bitsValue (true :: List.replicate e false) < values.length := by
        simpa using upper
      have ones := (blockLookup_of_inside valued (by simp) index).2
      rw [← (blockLookup_of_inside valued (by simp) index).1, ← holds] at ones
      have leftNotNil : l ≠ nil := child_ne_nil_of_held (p := []) zeros
      have rightNotNil : r ≠ nil := child_ne_nil_of_held (p := []) ones
      refine ⟨node [] (zeroValueHash calcSha256) h l r s, ⟨shape.resolve_left (by simp) |>.1,
          shape.resolve_left (by simp) |>.2.1, Or.inr ⟨leftNotNil, rightNotNil⟩⟩,
        ⟨by rw [hashed.1, treeHash_branch leftNotNil, treeHash_branch leftNotNil], hashed.2⟩, holds, rfl,
        fun _ => by simp [isLeaf, isNil_eq_false_iff.mpr leftNotNil], fun _ proof _ => getProofLoop_value_congr proof⟩

end Root

section Claims

theorem calculateOrderedTreeRoot_eq_getRoot (sized : ∀ x, (calcSha256 x).length = 32) (values : List Bytes)
    (valued : ∀ value ∈ values, value ≠ zeroValueHash calcSha256) :
    calculateOrderedTreeRoot calcSha256 values = (newOrderedTree calcSha256 values).getRoot ∧
      (values = [] → (newOrderedTree calcSha256 values).getRoot = getEmptyHash) := by
  by_cases empty : values = []
  · subst empty
    exact ⟨rfl, fun _ => rfl⟩
  refine ⟨?_, fun isEmpty => absurd isEmpty empty⟩
  obtain ⟨root, compressed, hashed, holds, sameHash, -, -⟩ := orderedRoot_spec sized empty valued
  have inside : 0 * 2 ^ ceilLog2 values.length < values.length := by
    simpa using List.length_pos_iff.mpr empty
  rw [calculateOrderedTreeRoot_eq_blockFold values empty, newOrderedTree, OrderedTree.getRoot, ← sameHash,
    hash_of_blockLookup valued compressed hashed holds inside]

theorem calculateOrderedTreeRoot_eq_getRoot_three :
    (∀ x : Bytes, ((fun _ => List.replicate 32 0 : Bytes → Bytes) x).length = 32) ∧
      (∀ value ∈ ([[1], [2], [3]] : List Bytes), value ≠ zeroValueHash fun _ => List.replicate 32 0) ∧
      (calculateOrderedTreeRoot (fun _ => List.replicate 32 0) [[1], [2], [3]] =
          (newOrderedTree (fun _ => List.replicate 32 0) [[1], [2], [3]]).getRoot ∧
        ([[1], [2], [3]] = ([] : List Bytes) →
          (newOrderedTree (fun _ => List.replicate 32 0) [[1], [2], [3]]).getRoot = getEmptyHash)) :=
  ⟨fun _ => List.length_replicate .., by decide,
    calculateOrderedTreeRoot_eq_getRoot (fun _ => List.length_replicate ..) [[1], [2], [3]] (by decide)⟩

/-- The walk of `GetProof` from the root of `NewOrderedTree` along the key of an index in range. -/
theorem orderedTree_walk (sized : ∀ x, (calcSha256 x).length = 32) {values : List Bytes} (nonempty : values ≠ [])
    (valued : ∀ value ∈ values, value ≠ zeroValueHash calcSha256) {index : Nat} (below : index < values.length) :
    ∃ proof, getProofLoop (toKey index (ceilLog2 values.length)) (ceilLog2 values.length)
        (create calcSha256 values (ceilLog2 values.length)) [] 0 = some proof ∧
      proof.length ≤ ceilLog2 values.length ∧
      proof.foldr (fun sibling current => hashTwo calcSha256 current sibling) (values.getD index []) =
        (create calcSha256 values (ceilLog2 values.length)).hash := by
  obtain ⟨root, compressed, hashed, holds, sameHash, branch, walk⟩ := orderedRoot_spec sized nonempty valued
  have fits : values.length ≤ 2 ^ ceilLog2 values.length := Nat.le_pow_clog Nat.one_lt_two _
  rw [walk, ← sameHash]
  rcases Nat.eq_zero_or_pos (ceilLog2 values.length) with single | deep
  · -- one value: the loop does not run, and the root is the leaf
    rw [single] at holds fits ⊢
    have first : index = 0 := by simp at fits; omega
    subst first
    cases root with
    | nil => exact compressed.elim
    | node p v h l r s =>
      refine ⟨[], by rw [getProofLoop, if_neg (Nat.lt_irrefl 0)], Nat.zero_le _, ?_⟩
      rw [List.foldr_nil, hash_of_blockLookup valued compressed hashed holds (by simpa using below)]
      rfl
  · have inside : 0 * 2 ^ ceilLog2 values.length + bitsValue (toKey index (ceilLog2 values.length)) < values.length := by
      rw [bitsValue_toKey, Nat.mod_eq_of_lt (by omega), Nat.zero_mul, Nat.zero_add]
      exact below
    obtain ⟨siblings, walked, short, rebuilt⟩ := getProofLoop_of_blockLookup valued compressed hashed holds
      (branch deep) (List.drop_zero) (length_toKey _ _) (Nat.zero_add _) inside []
    rw [bitsValue_toKey, Nat.mod_eq_of_lt (by omega), Nat.zero_mul, Nat.zero_add] at rebuilt
    exact ⟨siblings, by rw [walked, List.nil_append], short, rebuilt⟩

theorem orderedTree_getProof_verify (sized : ∀ x, (calcSha256 x).length = 32) (values : List Bytes)
    (nonempty : values ≠ []) (valued : ∀ value ∈ values, value ≠ zeroValueHash calcSha256) :
    (∀ index : Int, 0 ≤ index → index < values.length →
      ∃ proof, (newOrderedTree calcSha256 values).getProof index = some (.ok proof) ∧
        proof.length ≤ (newOrderedTree calcSha256 values).keySize ∧
        OrderedTree.verify calcSha256 (values.getD index.toNat []) proof (newOrderedTree calcSha256 values).getRoot =
          .ok ()) ∧
    ∀ index : Int, (∃ err, (newOrderedTree calcSha256 values).getProof index = some (.error err)) ↔
      index < 0 ∨ index > (values.length : Int) - 1 := by
  have inRange : ∀ index : Int, 0 ≤ index → index < values.length →
      ∃ proof, (newOrderedTree calcSha256 values).getProof index = some (.ok proof) ∧
        proof.length ≤ (newOrderedTree calcSha256 values).keySize ∧
        OrderedTree.verify calcSha256 (values.getD index.toNat []) proof (newOrderedTree calcSha256 values).getRoot =
          .ok () := by
    intro index nonnegative below
    have inside : index.toNat < values.length := by omega
    obtain ⟨proof, walked, short, rebuilt⟩ := orderedTree_walk sized nonempty valued inside
    refine ⟨proof, ?_, short, ?_⟩
    · have inBounds : ¬(index < 0 ∨ index > (newOrderedTree calcSha256 values).maxKey) := by
        simp only [newOrderedTree]
        omega
      rw [OrderedTree.getProof, if_neg inBounds]
      simp only [newOrderedTree]
      rw [walked]
      rfl
    · simp only [OrderedTree.verify, OrderedTree.getRoot, newOrderedTree, rebuilt, ne_eq, not_true_eq_false, if_false]
  refine ⟨inRange, fun index => ⟨fun ⟨err, failed⟩ => ?_, fun outside => ⟨"index for proof is out of bounds", ?_⟩⟩⟩
  · by_contra inside
    obtain ⟨proof, ok, -⟩ := inRange index (by omega) (by omega)
    rw [ok] at failed
    cases failed
  · have outOfBounds : index < 0 ∨ index > (newOrderedTree calcSha256 values).maxKey := outside
    rw [OrderedTree.getProof, if_pos outOfBounds]

theorem orderedTree_getProof_verify_three :
    (∀ x : Bytes, ((fun _ => List.replicate 32 0 : Bytes → Bytes) x).length = 32) ∧
      ([[1], [2], [3]] : List Bytes) ≠ [] ∧
      (∀ value ∈ ([[1], [2], [3]] : List Bytes), value ≠ zeroValueHash fun _ => List.replicate 32 0) ∧
      ((∀ index : Int, 0 ≤ index → index < ([[1], [2], [3]] : List Bytes).length →
        ∃ proof, (newOrderedTree (fun _ => List.replicate 32 0) [[1], [2], [3]]).getProof index = some (.ok proof) ∧
          proof.length ≤ (newOrderedTree (fun _ => List.replicate 32 0) [[1], [2], [3]]).keySize ∧
          OrderedTree.verify (fun _ => List.replicate 32 0) (([[1], [2], [3]] : List Bytes).getD index.toNat []) proof
            (newOrderedTree (fun _ => List.replicate 32 0) [[1], [2], [3]]).getRoot = .ok ()) ∧
      ∀ index : Int, (∃ err, (newOrderedTree (fun _ => List.replicate 32 0) [[1], [2], [3]]).getProof index =
          some (.error err)) ↔ index < 0 ∨ index > (([[1], [2], [3]] : List Bytes).length : Int) - 1) :=
  ⟨fun _ => List.length_replicate .., by decide, by decide,
    orderedTree_getProof_verify (fun _ => List.length_replicate ..) [[1], [2], [3]] (by decide) (by decide)⟩

end Claims

end OrderedTreeSpec

end OrbsNetwork.Merkle
