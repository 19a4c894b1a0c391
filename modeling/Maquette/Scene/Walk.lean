/-
The walk through a scene: from the root, each node before its children and the children in order,
every node once however often it can be reached. The walk keeps the nodes not yet met; each step
either takes one of them or drops a pending entry, so it ends.
-/
import Maquette.Scene.Basic

namespace Maquette

/-- A node on the walk, how deep it was met, and its place among its parent's children. -/
structure Visit where
  node : Nat
  depth : Nat
  place : Nat
  deriving DecidableEq, Repr

/-- The nodes met by a walk, and what stopped it before its end. -/
structure Trail where
  visits : List Visit
  fault : Option Fault

namespace Scene

/-- The children to be walked next. Whoever takes them by position cannot do so in a record. -/
def targets (byPosition : Bool) : Branches → Outcome (List (Option Nat))
  | .items targets => .ok targets
  | .keyed size => if byPosition then .error (.missing (toString (size - 1))) else .ok []
  | .scalar => .error .wrongKind

/-- The visits of children, with their places; items that are no nodes only take up a place. -/
def childVisits (depth : Nat) (targets : List (Option Nat)) : List Visit :=
  targets.zipIdx.filterMap fun (target, place) => target.map fun i => ⟨i, depth + 1, place⟩

/-- The walk from pending entries through the nodes not yet met. -/
def walkFrom (s : Scene) (byPosition : Bool) (fresh : List Nat) (pending : List Visit) : Trail :=
  match pending with
  | [] => ⟨[], none⟩
  | v :: rest =>
    if _h : v.node ∈ fresh then
      match targets byPosition (s.branchesAt v.node) with
      | .error f => ⟨[v], some f⟩
      | .ok ts =>
        let trail := walkFrom s byPosition (fresh.erase v.node) (childVisits v.depth ts ++ rest)
        ⟨v :: trail.visits, trail.fault⟩
    else walkFrom s byPosition fresh rest
termination_by (fresh.length, pending.length)
decreasing_by
  · apply Prod.Lex.left
    have := List.length_pos_of_mem _h
    rw [List.length_erase_of_mem _h]
    omega
  · apply Prod.Lex.right
    simp

/-- The walk from the root node of a scene. -/
def trailFrom (s : Scene) (byPosition : Bool) (root : Nat) : Trail :=
  s.walkFrom byPosition (List.range s.nodes.size) [⟨root, 0, 0⟩]

/-- The walk through a scene; nothing is met when the root counts as absent. -/
def trail (s : Scene) : Trail :=
  if !s.rootData.isTruthy then ⟨[], none⟩
  else match s.root with
    | .node i => s.trailFrom false i
    | .other _ => ⟨[], some .noMember⟩

end Scene

/-! ## Nodes in walking order -/

/-- The nodes of a walk with their depths, and what stopped it. -/
structure Walked where
  nodes : List (Datum × Nat)
  fault : Option Fault

namespace Walked

def ofScene (s : Scene) : Walked :=
  ⟨s.trail.visits.map fun v => (s.dataAt v.node, v.depth), s.trail.fault⟩

/-- The nodes of a document in walking order. -/
def ofDatum (d : Datum) : Walked := ofScene (Scene.ofDatum d)

/-- The result unless the walk was stopped. -/
def finish (w : Walked) (a : α) : Outcome α :=
  match w.fault with
  | some f => .error f
  | none => .ok a

/-- Takes the nodes in order; a walk that was stopped faults after the last one. -/
def foldM (w : Walked) (f : α → Datum → Nat → Outcome α) (a : α) : Outcome α := do
  w.finish (← w.nodes.foldlM (fun a (d, depth) => f a d depth) a)

def count (w : Walked) : Outcome Nat := w.finish w.nodes.length

/-- The depth of the deepest node. -/
def maxDepth (w : Walked) : Outcome Nat :=
  w.finish (w.nodes.foldl (fun deepest (_, depth) => max deepest depth) 0)

/-- The nodes by their ids; of several with one id the first. -/
def index (w : Walked) : Outcome (List (Datum × Datum)) :=
  w.foldM (fun table d _ => do
    let id ← d.get "id"
    if id.isNull then return table
    let id ← id.asKey
    return if table.any (·.1.same id) then table else table ++ [(id, d)]) []

/-- The first node with an id. -/
def find (w : Walked) (id : Datum) : Outcome (Option Datum) := do
  let table ← w.index
  let id ← id.asKey
  return (table.find? (·.1.same id)).map (·.2)

end Walked

end Maquette
