/-
What a component is generated from: an outline and an interaction, and the parts of them that its
parameters are made of. Parts are read in the order in which they are needed, so that of several
faults in the documents the first one is met.
-/
import Maquette.Archetype.Basic
import Maquette.Naming

namespace Maquette.Component

/-! ## Parts -/

/-- A variant of the design with its properties in order. -/
structure VariantSpec where
  data : Datum
  name : Datum
  properties : List (String × Datum)

/-- A slot, and the name that a parameter for it wishes to have. -/
structure SlotSpec where
  name : Datum
  wish : String

/-- A state, and the selector behind which its style stands. -/
structure StateSpec where
  name : Datum
  trigger : Datum

/-- What an event does, and when. -/
structure RuleSpec where
  trigger : Datum
  action : Datum
  target : Datum
  condition : Datum

namespace VariantSpec

def read (d : Datum) : Outcome VariantSpec := do
  let properties ← ((← d.get "properties").orElse .empty).fields
  return ⟨d, ← d.fieldOr "name" (.text ""), properties⟩

/-- The names of the properties. -/
def keys (v : VariantSpec) : List String := v.properties.map (·.1)

/-- The values one after the other. -/
def label (v : VariantSpec) : Outcome String := Datum.joinItems " " (v.properties.map (·.2))

end VariantSpec

def SlotSpec.read (d : Datum) : Outcome SlotSpec := do
  let name ← d.need "name"
  return ⟨name, Naming.camel "value" (← Pieces.ofDatum name)⟩

def StateSpec.read (d : Datum) : Outcome StateSpec := do
  return ⟨← d.need "name", ← d.get "trigger"⟩

def RuleSpec.read (d : Datum) : Outcome RuleSpec := do
  let trigger ← (← d.get "trigger").asKey
  return ⟨trigger, ← d.get "action", ← d.fieldOr "target" (.text "default"), ← d.get "condition"⟩

/-! ## Documents -/

/-- The outermost node of an outline, empty when there is none. -/
def treeOf (outline : Datum) : Outcome Datum := return (← outline.get "tree").orElse .empty

/-- What kind of component an interaction is about. -/
def categoryOf (interaction : Datum) : Outcome Datum :=
  interaction.fieldOr "componentCategory" (.text "unknown")

/-- The documents of a component and the parts that its parameters are made of. -/
structure Blueprint where
  outline : Datum
  interaction : Datum
  variants : List VariantSpec
  slots : List SlotSpec
  states : List StateSpec
  aria : List (String × Datum)
  rules : List RuleSpec
  category : Datum

namespace Blueprint

/-- Reads the documents of a component. -/
def read (outline interaction : Datum) : Outcome Blueprint := do
  let variants ← (← outline.itemsOf "variants").mapM VariantSpec.read
  let slots ← (← outline.itemsOf "slots").mapM SlotSpec.read
  let states ← (← interaction.itemsOf "states").mapM StateSpec.read
  let aria ← ((← interaction.get "aria").orElse .empty).fields
  let rules ← (← interaction.itemsOf "interactions").mapM RuleSpec.read
  let category ← categoryOf interaction
  return { outline, interaction, variants, slots, states, aria, rules, category }

def archetype (b : Blueprint) : Archetype := Archetype.ofDatum b.category

/-- The names of the states, the default state alone when there are none. -/
def stateNames (b : Blueprint) : List Datum :=
  if b.states.isEmpty then [.text "default"] else b.states.map (·.name)

def isMultiState (b : Blueprint) : Bool := 1 < b.stateNames.length

/-- An accessibility attribute that counts as given. -/
def ariaOf (b : Blueprint) (key : String) : Option Datum :=
  (b.aria.lookup key).filter Datum.isTruthy

/-- The entries about keys. -/
def keyboard (b : Blueprint) : Outcome (List Datum) := b.interaction.itemsOf "keyboard"

end Blueprint

end Maquette.Component
