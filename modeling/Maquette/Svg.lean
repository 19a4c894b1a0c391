/-
Vector graphics: shapes and texts that run along a curve, as a tree of elements. Attribute values
and texts are escaped when the tree is written, so no content can end an attribute or an element.
-/
import Maquette.Naming
import Maquette.Paint.Fill

namespace Maquette

/-! ## Elements -/

/-- A piece of vector markup. -/
inductive Svg where
  | text (s : String)
  /-- An element that is closed in its own tag. -/
  | leaf (name : String) (attributes : List (String × String))
  | element (name : String) (attributes : List (String × String)) (children : List Svg)

namespace Svg

def attributeText (a : String × String) : String :=
  " " ++ a.1 ++ "=\"" ++ Script.escaped a.2 ++ "\""

/-- The opening of a tag with its attributes. -/
def opening (name : String) (attributes : List (String × String)) : String :=
  "<" ++ name ++ String.join (attributes.map attributeText)

mutual

/-- The markup of a tree. -/
def render : Svg → String
  | text s => Script.escaped s
  | leaf name attributes => opening name attributes ++ "/>"
  | element name attributes children =>
    opening name attributes ++ ">" ++ renderAll children ++ "</" ++ name ++ ">"

def renderAll : List Svg → String
  | [] => ""
  | s :: rest => render s ++ renderAll rest

end

/-! ## Parts -/

/-- The id of a part of a node's graphic. -/
def partId (node : Datum) (part : String) : Outcome String := do
  let id := ((← node.get "id").orElse (← node.get "name")).orElse (.text "node")
  return Naming.kebab (.ofString id.shown) ++ "-" ++ part

/-- Width and height of a node, 24 where they are absent. -/
def size (node : Datum) : Outcome (String × String) := do
  let box := (← node.get "boundingBox").orElse .empty
  let side (key : String) : Outcome String := do
    ((← box.fieldOr key (.int 24)).orElse (.int 24)).plain
  let width ← side "width"
  return (width, ← side "height")

def frame (width height : String) (attributes : List (String × String)) (children : List Svg) :
    Svg :=
  element "svg"
    ([("width", width), ("height", height), ("viewBox", s!"0 0 {width} {height}")] ++ attributes ++
      [("xmlns", "http://www.w3.org/2000/svg")]) children

/-- A paint's own color, black where it is absent. -/
def colorOf (paint : Datum) : Outcome String := do
  let color := (← paint.get "color").orElse .empty
  Color.rgba color (← paint.fieldOr "opacity" (.int 1))

/-! ## Shapes -/

def gradientStop (paint stop : Datum) : Outcome Svg := do
  let offset ← Paint.percent (← stop.fieldOr "position" (.int 0))
  let color := (← stop.get "color").orElse .empty
  let color ← Color.rgba color (← paint.fieldOr "opacity" (.int 1))
  return leaf "stop" [("offset", offset ++ "%"), ("stop-color", color)]

/-- The definition of a gradient under an id. -/
def gradientDefinition (paint : Datum) (id : String) : Outcome Svg := do
  let stops ← (← paint.itemsOf "gradientStops").mapM (gradientStop paint)
  if (← paint.get "gradientType").isOneOf ["radial", "diamond"] then
    return element "radialGradient" [("id", id)] stops
  let turn ← (Number.float ((← Paint.angle paint) - 90)).plain
  return element "linearGradient"
    [("id", id), ("gradientTransform", s!"rotate({turn} .5 .5)")] stops

/-- How a shape is filled, with the definition that this refers to. -/
structure Filling where
  value : String
  definitions : List Svg

/-- The filling by the first paint that is a color or a gradient; `index` counts all paints. -/
def filling (node : Datum) (index : Nat) : List Datum → Outcome Filling
  | [] => .ok ⟨"none", []⟩
  | paint :: rest => do
    let kind ← paint.get "type"
    if kind.isThe "solid" then return ⟨← colorOf paint, []⟩
    if kind.isThe "gradient" then
      let id ← partId node s!"gradient-{index}"
      return ⟨"url(#" ++ id ++ ")", [← gradientDefinition paint id]⟩
    filling node (index + 1) rest

/-- The attributes of the first stroke with a color. -/
def strokeAttributes : List Datum → Outcome (List (String × String))
  | [] => .ok []
  | stroke :: rest => do
    if !(← stroke.get "type").isThe "solid" then return ← strokeAttributes rest
    let color ← Color.rgba ((← stroke.get "color").orElse .empty) (.int 1)
    let width ← (← stroke.fieldOr "width" (.int 1)).plain
    return [("stroke", color), ("stroke-width", width)]

def outlinePath (fill : String) (stroke : List (String × String)) (path : Datum) : Outcome Svg := do
  let rule ← path.fieldOr "windingRule" (.text "")
  let data ← path.fieldOr "data" (.text "")
  return leaf "path" <|
    [("d", data.shown), ("fill", fill)] ++
    (if Text.upper rule.shown == "EVENODD" then [("fill-rule", "evenodd")] else []) ++ stroke

/-- The layers that are drawn as shapes. -/
def shapeKinds : List String := ["VECTOR", "BOOLEAN_OPERATION", "STAR", "POLYGON"]

def isShape (node : Datum) : Outcome Bool := return (← node.get "type").isOneOf shapeKinds

/-- The graphic of a shape. -/
def shape (node : Datum) : Outcome Svg := do
  let (width, height) ← size node
  let filling ← filling node 0 (← node.itemsOf "fills")
  let stroke ← strokeAttributes (← node.itemsOf "strokes")
  let paths ← (← node.itemsOf "vectorPaths").mapM (outlinePath filling.value stroke)
  let definitions :=
    if filling.definitions.isEmpty then [] else [element "defs" [] filling.definitions]
  return frame width height [("fill", "none")] (definitions ++ paths)

/-! ## Text on a curve -/

def hasCurve (node : Datum) : Outcome Bool := do
  if !(← node.get "type").isThe "TEXT" then return false
  return (← ((← node.get "textPath").orElse .empty).get "data").isTruthy

/-- The color of the first paint that is one. -/
def textColor : List Datum → Outcome String
  | [] => .ok "currentColor"
  | paint :: rest => do
    if (← paint.get "type").isThe "solid" then colorOf paint else textColor rest

/-- The graphic of a text on a curve, if the node has one. -/
def curvedText? (node : Datum) : Outcome (Option Svg) := do
  if !(← hasCurve node) then return none
  let (width, height) ← size node
  let id ← partId node "text-path"
  let style := (← node.get "typography").orElse .empty
  let color ← textColor (← node.itemsOf "fills")
  let family ← style.fieldOr "fontFamily" (.text "Inter")
  let fontSize ← (← style.fieldOr "fontSize" (.int 16)).plain
  let weight ← (← style.fieldOr "fontWeight" (.int 400)).plain
  let data ← (← node.need "textPath").need "data"
  let characters ← node.fieldOr "characters" (.text "")
  return some <| frame width height []
    [element "defs" [] [leaf "path" [("id", id), ("d", data.shown)]],
     element "text"
       [("font-family", family.shown), ("font-size", fontSize), ("font-weight", weight),
        ("fill", color)]
       [element "textPath" [("href", "#" ++ id)] [text characters.shown]]]

end Svg

end Maquette
