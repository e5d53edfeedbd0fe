import OrbsNetwork.Merkle.Forest

namespace OrbsNetwork.Merkle

/-- `TrieProofNode`: the hash of the other child of a node on the path, and the node's own
prefix size. -/
structure TrieProofNode where
  otherChildHash : Bytes
  prefixSize : Nat
  deriving DecidableEq, Repr

/-- `TrieProof`. The path holds bits as Go holds them in bytes 0 and 1; `extraHashRight` is
`none` where Go leaves the slice nil. -/
structure TrieProof where
  nodes : List TrieProofNode
  path : List Bool
  extraHashLeft : Bytes
  extraHashRight : Option Bytes
  deriving DecidableEq, Repr

/-- Go's `copy(dst[start:start+len(src)], src)` on a slice whose capacity is its length:
`none` where the slice expression is out of range and Go panics. -/
def copyAt (dst : List Bool) (start : Nat) (src : List Bool) : Option (List Bool) :=
  if start + src.length ≤ dst.length then some (dst.take start ++ src ++ dst.drop (start + src.length))
  else none

/-- Go's `s[low:high]` on a slice whose capacity is its length: `none` where Go panics. -/
def sliceBits (s : List Bool) (low high : Int) : Option (List Bool) :=
  if 0 ≤ low ∧ low ≤ high ∧ high ≤ s.length then some ((s.drop low.toNat).take (high - low).toNat)
  else none

/-- The loop of `GetProof`, from `current` with the bits `p` still to walk and `currentPathLen`
bits walked: the node where the walk stops (nil when the next child is missing), the proof
nodes appended on the way, and the final `currentPathLen`. `none` where `appendToProof` reads
the hash of a nil sibling and Go panics. -/
def proofWalk : Node → List Bool → Nat → Option (Node × List TrieProofNode × Nat)
  | .nil, _, currentPathLen => some (.nil, [], currentPathLen)
  | current@(.node path _ _ left right _), p, currentPathLen =>
    if hasPrefix p path && path.length < p.length then
      match p.drop path.length with
      | [] => some (current, [], currentPathLen + path.length)
      | bit :: rest =>
        let currentPathLen := currentPathLen + path.length
        let sibling := if bit then left else right
        let next := if bit then right else left
        if next.isNil then some (.nil, [], currentPathLen)
        else if sibling.isNil then none
        else
          let below := if bit then proofWalk right rest (currentPathLen + 1)
            else proofWalk left rest (currentPathLen + 1)
          below.map fun (last, nodes, currentPathLen) =>
            (last, ⟨sibling.hash, path.length⟩ :: nodes, currentPathLen)
    else some (current, [], currentPathLen)

/-- `GetProof`, after the root is found: the proof nodes of the walk, then the node where it
stopped with the hashes that explain its own hash, and its path copied over the key's bits. -/
def proofFrom (root : Node) (path : List Bool) : Option TrieProof :=
  (proofWalk root path 0).bind fun (current, nodes, currentPathLen) =>
    if current.isNil then some ⟨nodes, path, [], none⟩
    else
      let nodes := nodes ++ [⟨current.hash, current.path.length⟩]
      let extra : Option (Bytes × Option Bytes) :=
        if !current.isLeaf then
          if current.left.isNil || current.right.isNil then none
          else some (current.left.hash, some current.right.hash)
        else some (current.value, none)
      extra.bind fun (extraHashLeft, extraHashRight) =>
        (copyAt path currentPathLen current.path).map fun path =>
          ⟨nodes, path, extraHashLeft, extraHashRight⟩

/-- `GetProof(rootHash, path)`; the outer `none` is a Go panic. -/
def Forest.getProof (f : Forest) (rootHash : Bytes) (path : Bytes) : Option (Except String TrieProof) :=
  match f.findRoot rootHash with
  | none => some (.error "unknown root")
  | some root => (proofFrom root (toBin path (toBinSize path))).map .ok

def calculateLastNodePathIndex (proof : TrieProof) : Nat :=
  proof.nodes.dropLast.foldl (fun lastNodePathIndex node => lastNodePathIndex + node.prefixSize + 1) 0

section Verify

variable (calcSha256 : Bytes → Bytes)

/-- One turn of the loop of `verifyProofIsSelfConsistent`, over `keyStartInd` and
`currentHash`, for the proof node `i`. -/
def selfConsistentStep (pathFromVerify : List Bool) (state : Option (Int × Bytes)) (node : TrieProofNode) :
    Option (Int × Bytes) :=
  state.bind fun (keyStartInd, currentHash) =>
    let keyEndInd := keyStartInd - 1
    let keyStartInd := keyEndInd - node.prefixSize
    if 0 ≤ keyEndInd then
      (pathFromVerify[keyEndInd.toNat]?).bind fun bit =>
        (sliceBits pathFromVerify keyStartInd keyEndInd).map fun segment =>
          if !bit then (keyStartInd, hashBytes calcSha256 [currentHash, node.otherChildHash, bitBytes segment])
          else (keyStartInd, hashBytes calcSha256 [node.otherChildHash, currentHash, bitBytes segment])
    else none

/-- `verifyProofIsSelfConsistent`: the hashes of the proof, rebuilt from the last node up
through the bits of the key, end at the root hash. The loop runs over the nodes before the
last one, from the last of them down to the first. -/
def verifyProofIsSelfConsistent (rootHash : Bytes) (proof : TrieProof) (pathFromVerify : List Bool)
    (lastNodePathIndex : Nat) : Option Bool :=
  match proof.nodes.getLast? with
  | none => none
  | some last =>
    (proof.nodes.dropLast.reverse.foldl (selfConsistentStep calcSha256 pathFromVerify)
      (some ((lastNodePathIndex : Int), last.otherChildHash))).map fun (_, currentHash) => currentHash == rootHash

def verifyProofInclusion (proof : TrieProof) (verifyPath : List Bool) (verifyValueHash : Bytes)
    (lastNodePathIndex : Nat) : Option Bool :=
  if lastNodePathIndex ≤ verifyPath.length then
    (proof.nodes.getLast?).map fun last =>
      last.otherChildHash == hashBytes calcSha256 [verifyValueHash, bitBytes (verifyPath.drop lastNodePathIndex)]
  else none

def verifyProofExclusion (proof : TrieProof) (pathFromVerify : List Bool) (lastNodePathIndex : Nat) :
    Option (Except String Bool) :=
  let pathLen := proof.path.length
  if pathLen ≠ pathFromVerify.length then some (.error "proof length is not consistent with given key length")
  else
    (proof.nodes.getLast?).bind fun last =>
      (sliceBits proof.path lastNodePathIndex (lastNodePathIndex + last.prefixSize)).map fun lastNodePrefix =>
        let calculatedHash := match proof.extraHashRight with
          | some extraHashRight => hashBytes calcSha256 [proof.extraHashLeft, extraHashRight, bitBytes lastNodePrefix]
          | none => hashBytes calcSha256 [proof.extraHashLeft, bitBytes lastNodePrefix]
        let isHashEqual := last.otherChildHash == calculatedHash
        let isBeginOfPathEqual := proof.path.take lastNodePathIndex == pathFromVerify.take lastNodePathIndex
        let isEndOfPathEqual :=
          if lastNodePathIndex < pathLen then lastNodePrefix == pathFromVerify.drop lastNodePathIndex else true
        .ok (isHashEqual && isBeginOfPathEqual && !isEndOfPathEqual)

/-- `Forest.Verify`, which reads nothing of the forest; the outer `none` is a Go panic. -/
def verify (rootHash : Bytes) (proof : TrieProof) (path : Bytes) (valueHash : Bytes) :
    Option (Except String Bool) :=
  if proof.nodes = [] then some (.ok (valueHash == zeroValueHash calcSha256))
  else
    let lastNodePathIndex := calculateLastNodePathIndex proof
    let pathFromVerify := toBin path (toBinSize path)
    (verifyProofIsSelfConsistent calcSha256 rootHash proof pathFromVerify lastNodePathIndex).bind fun consistent =>
      if !consistent then some (.error "proof is not self consistent with given key")
      else if valueHash != zeroValueHash calcSha256 then
        (verifyProofInclusion calcSha256 proof pathFromVerify valueHash lastNodePathIndex).map .ok
      else verifyProofExclusion calcSha256 proof pathFromVerify lastNodePathIndex

end Verify

end OrbsNetwork.Merkle
