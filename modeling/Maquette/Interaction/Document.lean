/-
The interaction of a component as a document: states, keys and rules, and the accessibility
attributes of its archetype tied to its own slots.
-/
import Maquette.Interaction.Basic

namespace Maquette.Interaction

/-! ## Accessibility -/

/-- The name of the first slot whose name begins with one of the given words. -/
def firstSlot? (words : List String) : List Datum → Outcome (Option String)
  | [] => .ok none
  | slot :: rest => do
    let name ← (← slot.need "name").textMember
    if words.any (Text.startsWith name) then return some name
    firstSlot? words rest

/-- How an element refers to the element of a slot. -/
def slotId (slot : String) : String := slot ++ "-id"

/-- A reference to slots, if there are any. -/
def refer (key : String) (slots : List String) (aria : Table String Datum) : Table String Datum :=
  if slots.isEmpty then aria else aria.set key (.text (" ".intercalate (slots.map slotId)))

def isListBox (a : Archetype) : Bool := a = .combobox || a = .select

/-- The attributes of an archetype with references to the slots that label and describe it. -/
def refineAria (suggested : Table String Datum) (slots : Datum) (a : Archetype) :
    Outcome (Table String Datum) := do
  let slots ← slots.items
  let label ← firstSlot? ["label"] slots
  let help ← firstSlot? ["helperText", "description"] slots
  let error ← firstSlot? ["errorText"] slots
  let options ← if isListBox a then firstSlot? ["list", "options"] slots else pure none
  return refer "ariaControls" options.toList <|
    refer "ariaDescribedBy" (help.toList ++ error.toList) <|
    refer "ariaLabelledBy" label.toList suggested

/-- The attributes that a document suggests, as a record or as a list of pairs; an absent one
suggests none. -/
def suggestedOf (d : Datum) : Outcome (Table String Datum) := do
  match d.orElse .empty with
  | .record fields => return fields
  | d =>
    let rows ← (← d.items).zipIdx.mapM fun (item, position) => do
      match ← item.items with
      | [key, value] => return ((← key.asKey).shown, value)
      | others => throw (.badPair position others.length)
    return Table.ofRows rows

/-! ## The document -/

def version : String := "1.0.0"

/-- The interaction of an outline's component, given what is known about it. -/
def build (outline intelligence : Datum) : Outcome Datum := do
  let category ← intelligence.fieldOr "category" (.text "unknown")
  let a := Archetype.ofDatum category
  let states ← states outline a
  let suggested ← suggestedOf (← intelligence.fieldOr "suggestedARIA" .empty)
  let aria ← refineAria suggested (← outline.fieldOr "slots" (.list [])) a
  let _ ← category.asKey
  let rules ← rules a states
  let primitives ← (← intelligence.fieldOr "requiredPrimitives" (.list [])).items
  return .record
    [("version", .text version), ("componentCategory", category), ("states", .list states),
     ("aria", .record aria), ("keyboard", .list ((keys a).map KeyBinding.toDatum)),
     ("interactions", .list (rules.map Rule.toDatum)), ("requiredPrimitives", .list primitives)]

end Maquette.Interaction
