/-
The nodes of a design as a graph. In a file every node is written once, so its nodes form a tree; in
memory a node may stand in several lists of children, or in one of its own descendants. A scene
numbers the nodes and keeps for each one its data and the numbers of its children.
-/
import Maquette.Datum.Access

namespace Maquette

/-- What a node has in the place of its list of children. -/
inductive Branches where
  /-- A list; an item that is a node is given by its number. -/
  | items (targets : List (Option Nat))
  /-- A record of so many fields. -/
  | keyed (size : Nat)
  /-- A value that has no items. -/
  | scalar
  deriving Inhabited

/-- A node's own data and its children. -/
structure SceneNode where
  data : Datum
  branches : Branches
  deriving Inhabited

/-- Where a scene begins: at a node, or at a value that is none. -/
inductive SceneRoot where
  | node (i : Nat)
  | other (d : Datum)

structure Scene where
  nodes : Array SceneNode
  root : SceneRoot

namespace Scene

/-! ## Trees as scenes -/

mutual

/-- Adds the nodes of a value, the root last; a value that is no record has none. -/
def plant (nodes : Array SceneNode) : Datum → Array SceneNode × Option Nat
  | .record fields =>
    let (nodes, branches) := plantFields nodes fields
    (nodes.push ⟨.record fields, branches⟩, some nodes.size)
  | _ => (nodes, none)

def plantFields (nodes : Array SceneNode) : List (String × Datum) → Array SceneNode × Branches
  | [] => (nodes, .items [])
  | (k, v) :: rest => if k == "children" then plantChildren nodes v else plantFields nodes rest

def plantChildren (nodes : Array SceneNode) : Datum → Array SceneNode × Branches
  | .list items =>
    let (nodes, targets) := plantItems nodes items
    (nodes, .items targets)
  | .text s => (nodes, .items (s.toList.map fun _ => none))
  | .record fields => (nodes, if fields.isEmpty then .items [] else .keyed fields.length)
  | d => (nodes, if d.isTruthy then .scalar else .items [])

def plantItems (nodes : Array SceneNode) : List Datum → Array SceneNode × List (Option Nat)
  | [] => (nodes, [])
  | d :: rest =>
    let (nodes, target) := plant nodes d
    let (nodes, targets) := plantItems nodes rest
    (nodes, target :: targets)

end

/-- The scene of a value read from a file. -/
def ofDatum (d : Datum) : Scene :=
  match plant #[] d with
  | (nodes, some i) => ⟨nodes, .node i⟩
  | (nodes, none) => ⟨nodes, .other d⟩

/-! ## Shared nodes -/

/-- Adds the children of a node among `count` numbered ones: an integer stands for the node of that
number. -/
def plantShared (count : Nat) (nodes : Array SceneNode) :
    List Datum → Array SceneNode × List (Option Nat)
  | [] => (nodes, [])
  | d :: rest =>
    let (nodes, target) := match d with
      | .int n => (nodes, if 0 ≤ n ∧ n < count then some n.toNat else none)
      | d => plant nodes d
    let (nodes, targets) := plantShared count nodes rest
    (nodes, target :: targets)

/-- Puts a numbered node in its place. -/
def placeShared (count : Nat) (nodes : Array SceneNode) (i : Nat) (d : Datum) :
    Array SceneNode :=
  let (nodes, branches) := match (d.at? "children").getD .null with
    | .list items =>
      let (nodes, targets) := plantShared count nodes items
      (nodes, Branches.items targets)
    | children => plantChildren nodes children
  nodes.setIfInBounds i ⟨d, branches⟩

/-- The scene of numbered nodes that refer to each other by their numbers. -/
def ofShared (ds : List Datum) (root : Nat) : Scene :=
  let blank : Array SceneNode := Array.replicate ds.length default
  let nodes := ds.zipIdx.foldl (fun nodes (d, i) => placeShared ds.length nodes i d) blank
  ⟨nodes, if root < ds.length then .node root else .other .null⟩

/-! ## Access -/

/-- The data of a node. -/
def dataAt (s : Scene) (i : Nat) : Datum := ((s.nodes[i]?).map SceneNode.data).getD .null

/-- The children of a node. -/
def branchesAt (s : Scene) (i : Nat) : Branches :=
  ((s.nodes[i]?).map SceneNode.branches).getD (.items [])

/-- The root's data. -/
def rootData (s : Scene) : Datum :=
  match s.root with
  | .node i => s.dataAt i
  | .other d => d

/-- The children of the root that are nodes. -/
def rootChildren (s : Scene) : Outcome (List Datum) :=
  match s.root with
  | .node i =>
    match s.branchesAt i with
    | .items targets => .ok (targets.filterMap (·.map s.dataAt))
    | .keyed _ => .ok []
    | .scalar => .error .wrongKind
  | .other _ => .error .noMember

end Scene

end Maquette
