/-
All files of a component, generated from the documents of its design.
-/
import Maquette.Component.File
import Maquette.Notice
import Maquette.Stylesheet
import Maquette.Story

namespace Maquette.Component

/-- The texts of a component's files, and where its content comes from. -/
structure Artifacts where
  component : String
  types : String
  styles : String
  story : String
  source : ContentSource

/-- The name of the component of a design. -/
def componentName (title : Datum) : Outcome String :=
  return Naming.pascal "Component" (← Pieces.ofDatum title)

/-- The plan of a component. -/
def plan (name : String) (outline tokens interaction matched : Datum) : Run Plan := do
  let category ← (do (← categoryOf interaction).asKey : Outcome Datum)
  if !Archetype.isNamedBy category then Run.note (.unknownArchetype category)
  let template := Template.of (.ofDatum category)
  let primitive ← template.primitive? interaction
  let handlesKeys ← template.handlesKeys interaction primitive
  let blueprint ← Blueprint.read outline interaction
  let tokens ← tokenTable tokens matched
  return {
    name
    base := Naming.kebab (.ofString name)
    blueprint
    parameters := parameters blueprint handlesKeys
    tokens := .ok tokens
    template
    primitive
    handlesKeys }

/-- A component from the documents of its design; `matched` holds the tokens of the project that
variables are matched with. -/
def compose (title outline tokens interaction matched : Datum) : Run Source := do
  let plan ← plan (← componentName title) outline tokens interaction matched
  let body ← plan.body
  let answered ← if plan.handlesKeys then plan.blueprint.keys else pure []
  return ⟨plan, body, answered⟩

/-- The files of a component. -/
def generate (title outline tokens interaction matched : Datum) : Run Artifacts := do
  let source ← compose title outline tokens interaction matched
  let plan := source.plan
  let styles ← Stylesheet.text plan.name plan.base outline interaction plan.tokens matched
  let story ← Story.text plan.name plan.blueprint plan.parameters
  return {
    component := source.text
    types := typesText plan.name plan.blueprint.stateNames plan.parameters
    styles
    story
    source := source.body.source }

end Maquette.Component
