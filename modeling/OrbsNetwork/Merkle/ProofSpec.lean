import OrbsNetwork.Merkle.UpdateSpec
import OrbsNetwork.Merkle.Proof

namespace OrbsNetwork.Merkle

section ProofSpec

variable (calcSha256 : Bytes → Bytes)

/-- The hashes stored in a subtree. -/
def Node.hashes : Node → List Bytes
  | .nil => []
  | .node _ _ hash left right _ => hash :: (left.hashes ++ right.hashes)

/-- Every key a subtree holds has `k` bits. -/
def HoldsKeysOfLength (n : Node) (k : Nat) : Prop :=
  ∀ key, n.lookup calcSha256 key ≠ zeroValueHash calcSha256 → key.length = k

variable {calcSha256}

open Node

theorem HoldsKeysOfLength.child {p : List Bool} {v h : Bytes} {l r : Node} {s : Option DirtyNode} {k : Nat}
    (holds : HoldsKeysOfLength calcSha256 (node p v h l r s) k) (arc : Bool) :
    HoldsKeysOfLength calcSha256 ((node p v h l r s).getChild arc) (k - p.length - 1) := by
  intro key held
  have whole := holds (p ++ arc :: key) (by rwa [lookup_child])
  simp only [List.length_append, List.length_cons] at whole
  omega

theorem hash_mem_hashes {n : Node} (notNil : n ≠ nil) : n.hash ∈ n.hashes := by
  cases n with
  | nil => exact absurd rfl notNil
  | node => exact List.mem_cons_self

end ProofSpec

end OrbsNetwork.Merkle
