/-
The shape of an outline: its nodes, paints and layouts, and the lists of variants, slots and states
beside the tree. Paints and nodes hold further ones of their kind, as deep as the value goes.
-/
import Maquette.Schema.Check

namespace Maquette.Schema

open Check

/-! ## Paints -/

def color : Check :=
  model "Color" [need "r" share, need "g" share, need "b" share, may "a" share]

def gradientStop : Check := model "GradientStop" [need "position" number, need "color" color]

/-- The fields of a paint, with the check on the gradient that it is nested in. -/
def paintFields (parent : Check) : List Field :=
  [need "type" (oneOf ["solid", "gradient", "image", "none"]), maybe "color" color,
   maybe "opacity" share,
   maybe "gradientType" (oneOf ["linear", "radial", "angular", "diamond"]),
   maybe "gradientStops" (listOf gradientStop),
   maybe "gradientTransform" (listOf (listOf number)),
   maybe "gradientHandlePositions" (listOf anyRecord),
   maybe "parentGradient" parent, maybe "imageUrl" text, maybe "scaleMode" text]

/-- A paint whose gradients are nested at most `depth` deep. -/
def paint : Nat → Check
  | 0 => anything
  | depth + 1 => model "Paint" (paintFields (paint depth))

def stroke : Check :=
  model "Stroke"
    [need "type" (oneOf ["solid", "none"]), maybe "color" color, maybe "width" size,
     maybe "position" (oneOf ["inside", "outside", "center"])]

def offset : Check := model "Offset" [may "x" number, may "y" number]

def effect : Check :=
  model "Effect"
    [need "type" (oneOf ["drop-shadow", "inner-shadow", "layer-blur", "background-blur"]),
     need "radius" size, may "visible" truth, maybe "color" color, maybe "offset" offset,
     maybe "spread" number]

/-! ## Nodes -/

def padding : Check :=
  model "Padding" [may "top" number, may "right" number, may "bottom" number, may "left" number]

def layout : Check :=
  model "Layout"
    [need "display" (oneOf ["flex"]), need "flexDirection" (oneOf ["row", "column"]),
     need "justifyContent" text, need "alignItems" text, may "gap" number,
     may "padding" padding, maybe "flexWrap" text]

def typography : Check :=
  model "Typography"
    [need "fontFamily" text, need "fontSize" positive, need "fontWeight" number,
     need "lineHeight" text, need "letterSpacing" text, need "textAlign" text,
     need "textDecoration" text, need "textTransform" text]

def boundingBox : Check :=
  model "BoundingBox" [need "x" number, need "y" number, need "width" size, need "height" size]

def vectorPath : Check := model "VectorPath" [need "data" text, may "windingRule" text]

def textPath : Check := model "TextPath" [need "data" text]

def roles : List String :=
  ["button-root", "icon", "icon-left", "icon-right", "label", "dialog-overlay", "input-root"]

/-- The fields of a node, with the checks on its fills and its children. -/
def nodeFields (fill child : Check) : List Field :=
  [need "id" text, need "name" text, need "type" text, may "zIndex" integer,
   maybe "roleHint" (oneOf roles), maybe "boundingBox" boundingBox, maybe "layout" layout,
   may "fills" (listOf fill), may "strokes" (listOf stroke),
   may "effects" (listOf effect), maybe "typography" typography,
   maybe "constraints" (tableOf text), maybe "blendMode" text, maybe "opacity" share,
   maybe "cornerRadius" size, maybe "rectangleCornerRadii" (listOf number),
   maybe "characters" text, may "vectorPaths" (listOf vectorPath), maybe "textPath" textPath,
   may "boundVariables" (tableOf text), may "variantProperties" (tableOf text),
   maybe "slotName" text, may "children" (listOf child)]

/-- A node with at most `depth` levels below it and in its paints. -/
def node : Nat → Check
  | 0 => anything
  | depth + 1 => model "IRSNode" (nodeFields (paint depth) (node depth))

/-! ## Beside the tree -/

def origin : Check :=
  model "IRSMeta"
    [need "name" nonEmptyText, may "figmaUrl" text, need "nodeId" text, need "type" text,
     need "componentType" (oneOf ["component-set", "component", "frame"]),
     need "extractedAt" text, may "sourceFileKey" text]

def variants : Check :=
  listOf <| model "Variant" [need "name" text, need "properties" (tableOf text), may "nodeId" text]

def slot : Check :=
  model "Slot"
    [need "name" nonEmptyText,
     need "type" (oneOf ["text", "icon", "content", "action", "prefix", "suffix"]),
     may "required" truth, maybe "nodeId" text]

/-- The first text that repeats an earlier one. -/
def repeated? : List String → List String → Option String
  | _, [] => none
  | seen, s :: rest => if seen.contains s then some s else repeated? (s :: seen) rest

/-- No two slots have the same name. -/
def distinctSlots : Check
  | .list slots =>
    match repeated? [] (slots.filterMap fun s => (s.at? "name").bind Datum.text?) with
    | some name => offence (.repeatedSlot name)
    | none => []
  | _ => []

def slots : Check := followedBy (listOf slot) distinctSlots

def layoutIntent : Check :=
  let sizing := oneOf ["fixed", "fluid", "intrinsic"]
  model "LayoutIntent" [need "horizontal" sizing, need "vertical" sizing]

def visualHints : Check :=
  model "VisualHints"
    [may "requiresPseudo" truth, may "requiresMask" truth, may "requiresFilterWorkaround" truth,
     may "strokeMappingStrategy" (oneOf ["pseudo", "outline"])]

def stateNames : List String := ["default", "hover", "pressed", "focus", "disabled", "custom"]

def stateMapping : Check :=
  listOf <| model "StateMappingEntry"
    [need "figmaVariant" text, need "semanticState" (oneOf stateNames)]

/-- The shape of an outline. -/
def outline : Check := fun d =>
  model "IRSDocument"
    [need "version" text, need "meta" origin, need "tree" (node (d.depth + 1)),
     may "variants" variants, may "slots" slots, need "layoutIntent" layoutIntent,
     may "visualHints" visualHints, may "stateMapping" stateMapping] d

end Maquette.Schema
