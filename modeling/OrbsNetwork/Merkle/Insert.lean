import OrbsNetwork.Merkle.Node

namespace OrbsNetwork.Merkle

section Insert

variable (calcSha256 : Bytes → Bytes)

/-- A node already in the sandbox is changed in place; any other node is cloned into the
sandbox first, and then the parent's arc is marked dirty, which the flag reports. -/
def getOrClone (current : Node) : Node × Bool :=
  match current.sandbox with
  | some _ => (current, false)
  | none => (current.clone.init, true)

def shouldUpdateCurrent (current : Node) (path : List Bool) : Bool :=
  current.path == path

def shouldUpdateOrCreateChild (current : Node) (path : List Bool) : Bool :=
  hasPrefix path current.path

def shouldCreateParent (current : Node) (path : List Bool) : Bool :=
  hasPrefix current.path path

/-- `insertChild arc childPath` stands for the recursive `insert` into the child at `arc`,
returning the new child and whether the child's parent arc was marked dirty. -/
def updateOrCreateChild (current : Node) (path : List Bool) (valueHash : Bytes)
    (insertChild : Bool → List Bool → Node × Bool) : Node :=
  if !current.hasValue calcSha256 && current.isLeaf then
    (current.setPath path).setValue valueHash
  else
    match path.drop current.path.length with
    | [] => current
    | childArc :: childPath =>
      if !(current.getChild childArc).isNil then
        let (child, marked) := insertChild childArc childPath
        let current := current.setChild childArc child
        if marked then current.set childArc else current
      else if valueHash == zeroValueHash calcSha256 then
        current
      else
        (current.setChild childArc (createNode childPath valueHash)).set childArc

def createParent (current : Node) (path : List Bool) (valueHash : Bytes) : Node :=
  match current.path.drop path.length with
  | [] => current
  | childArc :: rest => ((createNode path valueHash).setChild childArc (current.setPath rest)).set childArc

def lastCommonPathIndex : List Bool → List Bool → Nat
  | a :: as, b :: bs => if a = b then lastCommonPathIndex as bs + 1 else 0
  | _, _ => 0

def createParentAndSibling (current : Node) (path : List Bool) (valueHash : Bytes) : Node :=
  let prefixLastIndex := lastCommonPathIndex current.path path
  match current.path.drop prefixLastIndex, path.drop prefixLastIndex with
  | newCurrentArc :: currentRest, newChildArc :: childRest =>
    let newParent := createNode (path.take prefixLastIndex) (zeroValueHash calcSha256)
    let newParent := (newParent.setChild newCurrentArc (current.setPath currentRest)).set newCurrentArc
    (newParent.setChild newChildArc (createNode childRest valueHash)).set newChildArc
  | _, _ => current

/-- `insert(valueHash, parent, arc, current, path, sandbox)`. The parent and arc only serve
`getOrClone` to mark the parent's arc dirty, so the flag is returned to the caller instead. -/
def insert (valueHash : Bytes) : Node → List Bool → Node × Bool
  | .nil, _ => (.nil, false)
  | original@(.node _ _ _ left right _), path =>
    let (current, marked) := getOrClone original
    let result :=
      if shouldUpdateCurrent current path then current.setValue valueHash
      else if shouldUpdateOrCreateChild current path then
        updateOrCreateChild calcSha256 current path valueHash
          fun arc childPath =>
            if arc then insert valueHash right childPath else insert valueHash left childPath
      else if shouldCreateParent current path then createParent current path valueHash
      else createParentAndSibling calcSha256 current path valueHash
    (result, marked)

end Insert

end OrbsNetwork.Merkle
