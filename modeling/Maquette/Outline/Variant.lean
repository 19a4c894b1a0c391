/-
The variants of a component set, and the state that each of them stands for.
-/
import Maquette.Outline.Role
import Maquette.Scene.Walk

namespace Maquette.Outline

/-- One variant: its layer's name and id, and its properties in order. -/
structure Variant where
  name : Datum
  properties : Table String String
  nodeId : Datum

namespace Variant

def texts (t : Table String String) : Datum := .record (t.map fun (k, v) => (k, .text v))

def toDatum (v : Variant) : Datum :=
  .record [("name", v.name), ("properties", texts v.properties), ("nodeId", v.nodeId)]

/-- The properties that a node carries itself. -/
def ownProperties (node : Datum) : Outcome (Table String String) := do
  match ← node.get "variantProperties" with
  | .record fields => return fields.map fun (k, v) => (k, v.shown)
  | _ => return []

def ofNode (node : Datum) (properties : Table String String) : Outcome Variant := do
  return ⟨← node.fieldOr "name" (.text ""), properties, ← node.fieldOr "id" (.text "")⟩

/-- The variant of a child of a component set. A child without properties of its own may spell them
out in its name; one with none at all is no variant. -/
def ofChild (child : Datum) : Outcome (Option Variant) := do
  let own ← ownProperties child
  let properties ← if own.isEmpty then
      pure (nameProperties (← (← child.fieldOr "name" (.text "")).textOrEmpty))
    else pure own
  if properties.isEmpty then return none else return some (← ofNode child properties)

/-- The variants of a root: of each child of a component set, else of the root itself. -/
def extract (root : Datum) (children : Outcome (List Datum)) : Outcome (List Variant) := do
  if (← root.get "type").isThe "COMPONENT_SET" then
    return (← (← children).mapM ofChild).filterMap id
  let own ← ownProperties root
  if own.isEmpty then return [] else return [← ofNode root own]

/-- The variants of a scene; an absent root has none. -/
def ofScene (s : Scene) : Outcome (List Variant) :=
  extract (s.rootData.orElse .empty) s.rootChildren

/-! ## States -/

/-- The words of a variant: its name, then its values. -/
def words (v : Variant) : Outcome String :=
  Datum.joinItems " " (v.name :: v.properties.map fun (_, value) => .text value)

/-- The variant's name and the state it stands for. -/
def stateEntry (v : Variant) : Outcome Datum := do
  return .record [("figmaVariant", v.name), ("semanticState", .text (semanticState (← v.words)))]

/-- A variant out of its record. -/
def ofDatum (d : Datum) : Outcome Variant := do
  let name ← d.need "name"
  let fields ← (← d.need "properties").fields
  return ⟨name, ← fields.mapM fun (k, v) => match v with
    | .text s => .ok (k, s)
    | _ => .error .wrongKind, .null⟩

end Variant

end Maquette.Outline
