import OrbsNetwork.StateStorage.Persistence

namespace OrbsNetwork.StateStorage

open Merkle

/-- `revisionDiff`: a committed block kept in memory. -/
structure RevisionDiff where
  diff : ChainState
  merkleRoot : Bytes
  height : Nat
  ts : Nat
  proposer : Bytes

/-- `rollingRevisions`, without its logger; the forest is its `merkleRevisions`. -/
structure RollingRevisions where
  persist : InMemoryStatePersistence
  transientRevisions : Nat
  revisions : List RevisionDiff
  merkle : Forest
  currentHeight : Nat
  currentTs : Nat
  currentMerkleRoot : Bytes
  currentProposer : Bytes
  persistedHeight : Nat
  persistedRoot : Bytes
  persistedTs : Nat
  persistedProposer : Bytes

def newRollingRevisions (persist : InMemoryStatePersistence) (transientRevisions : Nat) (merkle : Forest) :
    RollingRevisions :=
  let (h, ts, pa, r) := persist.readMetadata
  { persist, transientRevisions, merkle
    revisions := []
    currentHeight := h, currentTs := ts, currentProposer := pa, currentMerkleRoot := r
    persistedHeight := h, persistedTs := ts, persistedProposer := pa, persistedRoot := r }

section Revisions

variable (calcSha256 : Bytes → Bytes)

/-- `toMerkleInput`: a trie key for every (contract, key), the hash of the contract followed by
the key, holding the hash of the value. -/
def toMerkleInput (diff : ChainState) : TrieDiffs :=
  diff.records.map fun r => ⟨hashBytes calcSha256 [r.1.1, r.1.2], hashBytes calcSha256 [r.2]⟩

/-- The assignments of one turn of the loop of `evictRevisions`, once the oldest revision `d`
was written and the persistence became `persist`. -/
def RollingRevisions.evictOldest (ls : RollingRevisions) (persist : InMemoryStatePersistence) (d : RevisionDiff)
    (rest : List RevisionDiff) : RollingRevisions :=
  { ls with
    persist, merkle := ls.merkle.forget ls.persistedRoot
    persistedHeight := d.height, persistedTs := d.ts, persistedProposer := d.proposer
    persistedRoot := d.merkleRoot, revisions := rest }

/-- The loop of `evictRevisions`, called with `pending = ls.revisions`: while more revisions
are held than `transientRevisions`, the oldest is written to the persistence and its parent
root forgotten. -/
def evictLoop : RollingRevisions → List RevisionDiff → RollingRevisions × Except String Unit
  | ls, [] => (ls, .ok ())
  | ls, d :: rest =>
    if ls.transientRevisions < ls.revisions.length then
      match ls.persist.write d.height d.ts d.proposer d.merkleRoot d.diff with
      | .error err => (ls, .error err)
      | .ok persist => evictLoop (ls.evictOldest persist d rest) rest
    else (ls, .ok ())

def RollingRevisions.evictRevisions (ls : RollingRevisions) : RollingRevisions × Except String Unit :=
  evictLoop ls ls.revisions

/-- The assignments of `addRevision` once the trie update returned `newRoot` and the forest
became `merkle`. -/
def RollingRevisions.appendRevision (ls : RollingRevisions) (merkle : Forest) (newRoot : Bytes) (height ts : Nat)
    (proposer : Bytes) (diff : ChainState) : RollingRevisions :=
  { ls with
    merkle, revisions := ls.revisions ++ [⟨diff, newRoot, height, ts, proposer⟩]
    currentHeight := height, currentTs := ts, currentMerkleRoot := newRoot }

/-- `addRevision`. The proposer is not recorded as `currentProposer`, as in the source. -/
def RollingRevisions.addRevision (ls : RollingRevisions) (height ts : Nat) (proposer : Bytes) (diff : ChainState) :
    RollingRevisions × Except String Unit :=
  match ls.merkle.update calcSha256 ls.currentMerkleRoot (toMerkleInput calcSha256 diff) with
  | .error err => (ls, .error s!"failed to updated merkle tree: {err}")
  | .ok (newRoot, merkle) => (ls.appendRevision merkle newRoot height ts proposer diff).evictRevisions

end Revisions

/-- `getRevisionRecord`: the newest revision not above the height that holds the key, else the
persisted state, if the height is not below it. -/
def RollingRevisions.getRevisionRecord (ls : RollingRevisions) (height : Nat) (contract key : Bytes) :
    Except String (Bytes × Bool) :=
  let currentHeight := ls.currentHeight
  let persistedHeight := ls.persistedHeight
  if currentHeight < height then
    .error s!"requested height {height} is too new. most recent available block height is {currentHeight}"
  else
    match ls.revisions.reverse.findSome? (fun r => if height < r.height then none else r.diff.get? contract key) with
    | some record => .ok (record, !isZeroValue record)
    | none =>
      if height < persistedHeight then
        .error s!"requested height {height} is too old. oldest available block height is {persistedHeight}"
      else ls.persist.read contract key

def RollingRevisions.getRevisionHash (ls : RollingRevisions) (height : Nat) : Except String Bytes :=
  match ls.revisions.reverse.find? (fun r => r.height == height) with
  | some r => .ok r.merkleRoot
  | none =>
    let persistedHeight := ls.persistedHeight
    if height ≠ persistedHeight then
      .error s!"could not locate merkle hash for height {height}. oldest available block height is {persistedHeight}"
    else .ok ls.persistedRoot

end OrbsNetwork.StateStorage
