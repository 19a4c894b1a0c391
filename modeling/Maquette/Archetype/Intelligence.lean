/-
What is known about a component from its outline: its archetype and how sure that is, the features
it was told by, and what the archetype brings along. A name that tells the archetype outweighs
the structure.
-/
import Maquette.Archetype.Basic
import Maquette.Scene.Walk

namespace Maquette.Archetype

/-! ## Features -/

/-- What one layer adds: its name in small letters, its type, and whether it carries properties of a
variant. -/
def Features.see (f : Features) (lower : String) (kind : Datum) (variant : Bool) : Features :=
  let has := Text.hasAny lower
  ⟨f.hasText || kind.isThe "TEXT" || has ["text", "label"],
   f.hasIcon || has ["icon"] || kind.isOneOf ["VECTOR", "BOOLEAN_OPERATION"],
   f.hasInput || has ["input", "field"],
   f.hasList || has ["list", "item", "option"],
   f.hasOverlay || has ["overlay", "backdrop", "modal"],
   f.hasCheckbox || has ["checkbox", "check"],
   f.hasRadio || has ["radio"],
   f.hasSlider || has ["slider", "track", "thumb"],
   f.depth,
   f.interactionCount + if variant then 1 else 0⟩

def Features.seeNode (f : Features) (node : Datum) : Outcome Features := do
  let name ← (← node.get "name").textOrEmpty
  let kind ← node.fieldOr "type" (.text "")
  let properties ← node.get "variantProperties"
  return f.see (Text.lower name) kind properties.isTruthy

/-- The features of an outline. -/
def Features.ofOutline (outline : Datum) : Outcome Features := do
  let walked := Walked.ofDatum (← outline.get "tree")
  let depth ← walked.maxDepth
  walked.foldM (fun (f : Features) node _ => f.seeNode node) { Features.none with depth := depth }

def Features.toDatum (f : Features) : Datum :=
  .record
    [("hasText", .bool f.hasText), ("hasIcon", .bool f.hasIcon), ("hasInput", .bool f.hasInput),
     ("hasList", .bool f.hasList), ("hasOverlay", .bool f.hasOverlay),
     ("hasCheckbox", .bool f.hasCheckbox), ("hasRadio", .bool f.hasRadio),
     ("hasSlider", .bool f.hasSlider), ("depth", .int f.depth),
     ("interactionCount", .int f.interactionCount)]

/-! ## The verdict -/

/-- What an archetype was told by. -/
inductive Evidence where
  | name
  | features
  deriving DecidableEq, Repr

def Evidence.label : Evidence → String
  | .name => "name"
  | .features => "structure"

structure Verdict where
  archetype : Archetype
  evidence : Evidence
  deriving DecidableEq, Repr

/-- How sure a verdict is. -/
def Verdict.confidence (v : Verdict) : Float :=
  match v.evidence, v.archetype with
  | .name, _ => 0.9
  | .features, unknown => 0.0
  | .features, _ => 0.7

/-- The verdict on a component's name, its features and the number of its slots. -/
def judge (name : String) (f : Features) (slotCount : Int) : Verdict :=
  match byName name with
  | unknown => ⟨byStructure f slotCount, .features⟩
  | a => ⟨a, .name⟩

/-- The verdict as a document, with the features and the names of the slots. -/
def Verdict.toDatum (v : Verdict) (f : Features) (slotNames : List Datum) : Datum :=
  .record
    [("category", .text v.archetype.name), ("confidence", .float v.confidence),
     ("detectedFrom", .text v.evidence.label),
     ("requiredPrimitives", .list (v.archetype.primitives.map .text)),
     ("suggestedARIA", .record (v.archetype.aria f.hasText)),
     ("slotPatterns", .list slotNames), ("features", f.toDatum)]

/-- What is known about the component of an outline. -/
def classify (outline : Datum) : Outcome Datum := do
  let f ← Features.ofOutline outline
  let info ← outline.fieldOr "meta" .empty
  let name ← (← info.fieldOr "name" (.text "")).textOrEmpty
  let slots ← (← outline.fieldOr "slots" (.list [])).items
  let slotNames ← slots.mapM fun s => s.need "name"
  return (judge name f slots.length).toDatum f slotNames

end Maquette.Archetype
