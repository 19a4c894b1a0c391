/-
The outline of a design: its nodes as a tree in walking order, the slots and variants found in it,
how it wants to be sized, and what its paints ask of a style sheet. A node that can be reached more
than once stands under the parent that reaches it first.
-/
import Maquette.Outline.Node

namespace Maquette.Outline

/-! ## The tree -/

/-- A node on top of the subtrees that follow it: those that are deeper are its children. -/
def graft (visit : Visit × List (String × Datum)) (following : List (Nat × Datum)) :
    List (Nat × Datum) :=
  let (children, rest) := following.span fun (depth, _) => visit.1.depth < depth
  (visit.1.depth, .record (visit.2 ++ [("children", .list (children.map (·.2)))])) :: rest

/-- The trees of nodes in walking order. -/
def assemble (visits : List (Visit × List (String × Datum))) : List Datum :=
  (visits.foldr graft []).map (·.2)

/-- The nodes of a walk one after the other, the slots found so far carried along. -/
def nodes (s : Scene) :
    List Slot → List Visit → Outcome (List (Visit × List (String × Datum)) × List Slot)
  | slots, [] => .ok ([], slots)
  | slots, v :: rest => do
    let (fields, slots) ← node (s.dataAt v.node) v.place slots
    let (others, slots) ← nodes s slots rest
    return ((v, fields) :: others, slots)

/-- The tree below a scene's root, if there is one, and its slots. An absent root makes an empty
node; a root that is no record makes none. -/
def tree (s : Scene) : Outcome (Option Datum × List Slot) := do
  match s.root with
  | .node i =>
    let trail := s.trailFrom true i
    let (visits, slots) ← nodes s [] trail.visits
    match trail.fault with
    | some f => throw f
    | none => return ((assemble visits).head?, slots)
  | .other d =>
    if d.isTruthy then return (none, [])
    let (fields, slots) ← node .empty 0 []
    return ((assemble [(⟨0, 0, 0⟩, fields)]).head?, slots)

/-! ## Hints -/

def sizings : List (String × String) := [("FIXED", "fixed"), ("FILL", "fluid")]

/-- Whether a root wants a fixed, a fluid or its own size, in each direction. -/
def layoutIntent (root : Datum) : Outcome Datum := do
  let own ← root.get "layoutSizingHorizontal"
  let ownVertical ← root.get "layoutSizingVertical"
  let primary ← root.get "primaryAxisSizingMode"
  let counter ← root.get "counterAxisSizingMode"
  let upright := (← root.get "layoutMode").isThe "VERTICAL"
  let (horizontal, vertical) :=
    if own.isTruthy || ownVertical.isTruthy then (own, ownVertical)
    else if upright then (counter, primary) else (primary, counter)
  return .record
    [("horizontal", .text ((← named sizings horizontal).getD "intrinsic")),
     ("vertical", .text ((← named sizings vertical).getD "intrinsic"))]

/-- What the paints of a tree need: an extra box, a mask, a filter. -/
structure Needs where
  pseudo : Bool
  mask : Bool
  filter : Bool

def Needs.ofNode (needs : Needs) (node : Datum) : Outcome Needs := do
  let strokes ← (← node.fieldOr "strokes" (.list [])).items
  let inner ← strokes.anyM fun s => return (← s.get "position").isOneOf ["inside", "center"]
  let written := (← node.get "type").isThe "TEXT"
  let fills ← if written then (← node.fieldOr "fills" (.list [])).items else pure []
  let blended ← fills.anyM fun f => return (← f.get "type").isThe "gradient"
  let blend ← node.get "blendMode"
  let unusual ← if blend.isTruthy then
      pure !(← blend.asKey).isOneOf ["NORMAL", "PASS_THROUGH"]
    else pure false
  return ⟨needs.pseudo || inner, needs.mask || blended, needs.filter || unusual⟩

def Needs.toDatum (needs : Needs) : Datum :=
  .record
    [("requiresPseudo", .bool needs.pseudo), ("requiresMask", .bool needs.mask),
     ("requiresFilterWorkaround", .bool needs.filter),
     ("strokeMappingStrategy", .text (if needs.pseudo then "pseudo" else "outline"))]

def visualHints (tree : Datum) : Outcome Datum := do
  let needs ← (Walked.ofDatum tree).foldM (fun (needs : Needs) node _ => needs.ofNode node)
    ⟨false, false, false⟩
  return needs.toDatum

/-! ## The document -/

def version : String := "1.0.0"

/-- When an outline counts as made if nothing else is said. -/
def epoch : String := "2024-01-01T00:00:00+00:00"

def componentType (root : Datum) : Outcome String := do
  let kind ← root.get "type"
  return if kind.isThe "COMPONENT_SET" then "component-set"
    else if kind.isThe "COMPONENT" then "component" else "frame"

/-- Where a design comes from and when it was read. -/
structure Origin where
  url : Datum
  fileKey : Datum
  extractedAt : Datum

/-- The outline of a scene out of its tree, if it has one, and its slots. -/
def document (s : Scene) (origin : Origin) (tree : Option Datum) (slots : List Slot) :
    Outcome Datum := do
  let tree := tree.getD .null
  let root := s.rootData.orElse .empty
  let variants ← Variant.ofScene s
  let name := (← root.get "name").orElse (.text "Unnamed")
  let id ← root.fieldOr "id" (.text "")
  let kind ← root.fieldOr "type" (.text "FRAME")
  let intent ← layoutIntent root
  let hints ← visualHints tree
  let states ← variants.mapM Variant.stateEntry
  return .record
    [("version", .text version),
     ("meta", .record
       [("name", name), ("figmaUrl", origin.url), ("nodeId", id), ("type", kind),
        ("componentType", .text (← componentType root)),
        ("extractedAt", origin.extractedAt.orElse (.text epoch)),
        ("sourceFileKey", origin.fileKey)]),
     ("tree", tree),
     ("variants", .list (variants.map Variant.toDatum)),
     ("slots", .list (slots.map Slot.toDatum)),
     ("layoutIntent", intent),
     ("visualHints", hints),
     ("stateMapping", .list states),
     ("stats", .record [("nodeCount", .int (← (Walked.ofDatum tree).count))])]

/-- The outline of a scene. -/
def ofScene (s : Scene) (origin : Origin) : Outcome Datum := do
  let (tree, slots) ← tree s
  document s origin tree slots

/-- The outline of a design read from a file. -/
def ofDatum (d : Datum) (origin : Origin) : Outcome Datum := ofScene (Scene.ofDatum d) origin

/-! ## Preview -/

/-- One line about a node. -/
def previewLine (indent : Int) (node : Datum) (depth : Nat) : Outcome String := do
  let name := (← node.get "name").orElse (.text "???")
  let kind ← node.fieldOr "type" (.text "?")
  let role ← node.get "roleHint"
  let slot ← node.get "slotName"
  return Text.times (indent + depth).toNat "  " ++ "├─ " ++ name.shown ++ "  [" ++ kind.shown ++ "]" ++
    (if role.isTruthy then "  (" ++ role.shown ++ ")" else "") ++
    (if slot.isTruthy then "  \x7bslot: " ++ slot.shown ++ "\x7d" else "")

/-- A walk as indented lines. -/
def previewOf (w : Walked) (indent : Int) : Outcome String := do
  let lines ← w.foldM (fun lines node depth => return lines ++ [← previewLine indent node depth]) []
  return Text.lines lines

end Maquette.Outline
