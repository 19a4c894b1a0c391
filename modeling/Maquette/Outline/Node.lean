/-
One layer as a node of the outline: layout, paints, text style, geometry, bindings and slot.
-/
import Maquette.Outline.Paint
import Maquette.Outline.Slot
import Maquette.Outline.Variant

namespace Maquette.Outline

/-! ## Layout -/

def justifications : List (String × String) :=
  [("MIN", "flex-start"), ("CENTER", "center"), ("MAX", "flex-end"),
   ("SPACE_BETWEEN", "space-between"), ("SPACE_AROUND", "space-around")]

def alignments : List (String × String) :=
  [("MIN", "flex-start"), ("CENTER", "center"), ("MAX", "flex-end"), ("STRETCH", "stretch"),
   ("BASELINE", "baseline")]

/-- A measure, zero where it is absent. -/
def measure (d : Datum) (key : String) : Outcome Datum := return (← d.get key).orElse (.int 0)

/-- The layout of a layer that arranges its children in a row or a column. -/
def layout (d : Datum) : Outcome (Option Datum) := do
  let mode ← d.get "layoutMode"
  if !mode.isOneOf ["HORIZONTAL", "VERTICAL"] then return none
  let justify ← named justifications (← d.fieldOr "primaryAxisAlignItems" (.text "MIN"))
  let align ← named alignments (← d.fieldOr "counterAxisAlignItems" (.text "MIN"))
  let padding : Datum := .record
    [("top", ← measure d "paddingTop"), ("right", ← measure d "paddingRight"),
     ("bottom", ← measure d "paddingBottom"), ("left", ← measure d "paddingLeft")]
  return some <| .record <|
    [("display", .text "flex"),
     ("flexDirection", .text (if mode.isThe "HORIZONTAL" then "row" else "column")),
     ("justifyContent", .text (justify.getD "flex-start")),
     ("alignItems", .text (align.getD "flex-start")),
     ("gap", ← measure d "itemSpacing"), ("padding", padding)] ++
    (if (← d.get "layoutWrap").isThe "WRAP" then [("flexWrap", .text "wrap")] else [])

/-! ## Text -/

/-- The line height of a text style in pixels or percent, or `normal`. -/
def lineHeight (style : Datum) : Outcome String := do
  let height ← style.get "lineHeight"
  if height.isRecord then
    let unit ← height.get "unit"
    if unit.isThe "PIXELS" then return (← height.get "value").shown ++ "px"
    if unit.isThe "PERCENT" then return (← height.get "value").shown ++ "%"
    return "normal"
  let unit ← style.get "lineHeightUnit"
  if unit.isThe "INTRINSIC_%" then return "normal"
  let percent ← style.get "lineHeightPercentFontSize"
  if unit.isThe "FONT_SIZE_%" && !percent.isNull then return percent.shown ++ "%"
  let pixels ← style.get "lineHeightPx"
  return if pixels.isNull then "normal" else pixels.shown ++ "px"

def textAlign (d : Datum) : Outcome String := do
  if d.isThe "JUSTIFIED" then return "justify"
  return Text.lower (← (d.orElse (.text "LEFT")).textMember)

/-- A text style with the defaults of a browser's plain text. -/
def typography (style : Datum) : Outcome Datum := do
  let family := (← style.get "fontFamily").orElse (.text "Inter")
  let size := (← style.get "fontSize").orElse (.int 16)
  let weight := (← style.get "fontWeight").orElse (.int 400)
  let height ← lineHeight style
  let spacing := (← style.get "letterSpacing").orElse (.int 0)
  let align ← textAlign (← style.get "textAlignHorizontal")
  let decoration ← named [("UNDERLINE", "underline"), ("STRIKETHROUGH", "line-through")]
    (← style.get "textDecoration")
  let case ← named [("UPPER", "uppercase"), ("LOWER", "lowercase"), ("TITLE", "capitalize")]
    (← style.get "textCase")
  return .record
    [("fontFamily", family), ("fontSize", size), ("fontWeight", weight),
     ("lineHeight", .text height), ("letterSpacing", .text (spacing.shown ++ "px")),
     ("textAlign", .text align), ("textDecoration", .text (decoration.getD "none")),
     ("textTransform", .text (case.getD "none"))]

/-- What only a text layer has: style, characters, and the curve it runs along. -/
def textFields (d : Datum) : Outcome (List (String × Datum)) := do
  let style ← typography ((← d.get "style").orElse .empty)
  let characters ← d.get "characters"
  let path ← d.get "textPath"
  let data := (path.at? "data").getD .null
  return [("typography", style)] ++
    (if characters.isNull then [] else [("characters", .text characters.shown)]) ++
    (if data.isTruthy then [("textPath", .record [("data", data)])] else [])

/-! ## Geometry -/

def boundingBox (d : Datum) : Outcome (List (String × Datum)) := do
  let box ← d.get "absoluteBoundingBox"
  if !box.isRecord then return []
  let side (key : String) : Outcome (String × Datum) := return (key, ← box.fieldOr key (.int 0))
  return [("boundingBox", .record [← side "x", ← side "y", ← side "width", ← side "height"])]

def vectorKinds : List String :=
  ["VECTOR", "BOOLEAN_OPERATION", "STAR", "POLYGON", "LINE", "ELLIPSE"]

def vectorPath? (entry : Datum) : Option Datum :=
  let data := ((entry.at? "data").getD .null).orElse ((entry.at? "path").getD .null)
  if data.isTruthy then
    some (.record [("data", data),
      ("windingRule", (entry.at? "windingRule").getD (.text "NONZERO"))])
  else none

/-- The outlines of a shape. -/
def vectorPaths (d : Datum) : Outcome (List Datum) := do
  if !(← d.get "type").isOneOf vectorKinds then return []
  let entries := ((← d.get "vectorPaths").orElse (← d.get "fillGeometry")).orElse (.list [])
  return (← entries.items).filterMap vectorPath?

/-! ## Bindings -/

/-- The id of a reference, if it has one. -/
def refId? (ref : Datum) : Option Datum :=
  match ref.at? "id" with
  | some id => if id.isTruthy then some id else none
  | none => none

/-- Which variable each property is bound to; of a list, the first reference counts. -/
def boundVariables (d : Datum) : Outcome (List (String × Datum)) := do
  match ← d.get "boundVariables" with
  | .record fields =>
    return fields.filterMap fun (property, ref) =>
      (match ref with
        | .list refs => refs.findSome? refId?
        | ref => refId? ref).map (property, ·)
  | _ => return []

/-! ## Nodes -/

/-- A field that is present when a value is. -/
def optional (key : String) (d : Option Datum) : List (String × Datum) :=
  (d.map fun d => (key, d)).toList

/-- A field that is present when its list is not empty. -/
def listField (key : String) (items : List Datum) : List (String × Datum) :=
  if items.isEmpty then [] else [(key, .list items)]

def recordField (key : String) (fields : List (String × Datum)) : List (String × Datum) :=
  if fields.isEmpty then [] else [(key, .record fields)]

def constraintsField (d : Datum) : Outcome (List (String × Datum)) := do
  let c ← d.get "constraints"
  if !c.isRecord then return []
  let side (key : String) : Outcome (String × Datum) :=
    return (key, .text (Text.lower (← c.fieldOr key (.text "")).shown))
  return [("constraints", .record [← side "horizontal", ← side "vertical"])]

/-- Blend mode, opacity and corner radii. -/
def surfaceFields (d : Datum) : Outcome (List (String × Datum)) := do
  let blend ← d.get "blendMode"
  let opacity ← d.get "opacity"
  let radius ← d.get "cornerRadius"
  let radii ← d.get "rectangleCornerRadii"
  return (if blend.isTruthy then [("blendMode", blend)] else []) ++
    (if opacity.isNull then [] else [("opacity", opacity)]) ++
    (if radius.number?.isSome then [("cornerRadius", radius)] else []) ++
    (match radii with
      | .list items => if items.length = 4 then [("rectangleCornerRadii", radii)] else []
      | _ => [])

/-- Fills, strokes and effects. -/
def paintFields (d : Datum) : Outcome (List (String × Datum)) := do
  let fills ← ((← d.itemsOf "fills").filter isVisible).mapM paint
  let strokes ← ((← d.itemsOf "strokes").filter isVisible).mapM fun p => stroke p d
  let effects ← ((← d.itemsOf "effects").filter Datum.isRecord).mapM effect
  return listField "fills" fills ++ listField "strokes" strokes ++ listField "effects" effects

/-- A layer as a node without children, and the slots with the one it makes. -/
def node (layer : Datum) (place : Nat) (slots : List Slot) :
    Outcome (List (String × Datum) × List Slot) := do
  let name := (← layer.get "name").orElse (.text "")
  let kind := (← layer.get "type").orElse (.text "FRAME")
  let id ← layer.fieldOr "id" (.text "")
  let nameText ← name.textMember
  let box ← boundingBox layer
  let arranged ← layout layer
  let painted ← paintFields layer
  let written ← if kind.isThe "TEXT" then textFields layer else pure []
  let pinned ← constraintsField layer
  let surface ← surfaceFields layer
  let paths ← vectorPaths layer
  let bound ← boundVariables layer
  let properties ← Variant.ownProperties layer
  let slot := Slot.ofLayer? nameText id slots
  let fields : List (String × Datum) :=
    [("id", id), ("name", name), ("type", kind), ("zIndex", .int place)] ++
    optional "roleHint" ((roleHint nameText).map .text) ++
    box ++ optional "layout" arranged ++ painted ++ written ++ pinned ++ surface ++
    listField "vectorPaths" paths ++ recordField "boundVariables" bound ++
    (if properties.isEmpty then [] else [("variantProperties", Variant.texts properties)]) ++
    optional "slotName" (slot.map fun s => .text s.name)
  return (fields, slots ++ slot.toList)

end Maquette.Outline
