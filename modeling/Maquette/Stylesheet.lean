/-
The style sheet of a component: the rule of its outermost node, empty rules for its variants and
states to be filled by hand, and the rule of the disabled state.
-/
import Maquette.Component.Layer
import Maquette.Component.Blueprint
import Maquette.Paint.Blend
import Maquette.Paint.Surface

namespace Maquette.Stylesheet

/-- A property of the outermost node, and its value as the design or a token gives it. -/
abbrev Property := String × Datum

/-! ## The outermost node -/

/-- Declarations whose values are texts. -/
def written (ds : List Css.Declaration) : List Property := ds.map fun (k, v) => (k, .text v)

def paddingSides : List String := ["top", "right", "bottom", "left"]

/-- The declarations of a layout that may be absent. -/
def layout (d : Datum) : Outcome (List Property) := do
  if !d.isTruthy then return []
  let direct (property key default : String) : Outcome Property := do
    return (property, ← d.fieldOr key (.text default))
  let arranged : List Property :=
    [← direct "display" "display" "flex", ← direct "flex-direction" "flexDirection" "row",
     ← direct "justify-content" "justifyContent" "flex-start",
     ← direct "align-items" "alignItems" "flex-start"]
  let gap ← d.get "gap"
  let spaced ← if gap.isTruthy then pure (written [("gap", ← gap.pixels)]) else pure []
  let padding := (← d.get "padding").orElse .empty
  let sides ← paddingSides.mapM fun side => padding.fieldOr side (.int 0)
  let padded ← if sides.any Datum.isTruthy then
      pure (written [("padding", " ".intercalate (← sides.mapM Datum.pixels))])
    else pure []
  let wrap ← d.get "flexWrap"
  let wrapped : List Property := if wrap.isTruthy then [("flex-wrap", wrap)] else []
  return arranged ++ spaced ++ padded ++ wrapped

/-- All shadows in the place of the first one. -/
def mergeShadows (ds : List Property) : List Property :=
  let shadows := (ds.filter (·.1 == "box-shadow")).map (·.2.shown)
  match ds.span (·.1 != "box-shadow") with
  | (before, []) => before
  | (before, _ :: after) =>
    before ++ [("box-shadow", .text (", ".intercalate shadows))] ++
      after.filter (·.1 != "box-shadow")

/-- The background of a node: the token it is bound to, else its fills. -/
def background (tokens : Component.TokenTable) (root : Datum) : Outcome (List Property) := do
  match ← Component.tokenOf tokens root "fills" with
  | some token => return [("background", token)]
  | none => return written (← Paint.fills (← root.get "fills") (← root.get "boundingBox"))

/-- The corners of a node: the token they are bound to, else their radii. -/
def corners (tokens : Component.TokenTable) (root : Datum) : Outcome (List Property) := do
  let all ← Component.tokenOf tokens root "cornerRadius"
  let token ← match all with
    | some token => pure (some token)
    | none => Component.tokenOf tokens root "topLeftRadius"
  match token with
  | some token => return [("border-radius", token)]
  | none => return written (← Paint.corners root)

/-- The declarations of the outermost node. -/
def rootProperties (root : Datum) (tokens : Component.TokenTable) (style : Paint.StrokeStyle) :
    Outcome (List Property) := do
  let mode ← root.get "blendMode"
  let isolation := if ← Paint.isIsolated mode then written [("isolation", "isolate")] else []
  let background ← background tokens root
  let blend ← Paint.blend mode
  let corners ← corners tokens root
  let layout ← layout (← root.get "layout")
  let strokes ← Paint.strokes (← root.get "strokes") style
  let effects ← Paint.effects (← root.get "effects")
  return mergeShadows (isolation ++ background ++ written blend ++ corners ++ layout ++
    written (strokes ++ effects))

/-! ## Matched tokens -/

/-- A variable that is matched with a token of the project. -/
structure Matched where
  var : String
  cssVar : String
  /-- How sure the match is, with two places. -/
  confidence : String

def Matched.line (m : Matched) : String :=
  Script.harmless (s!" *   {m.var} → {m.cssVar} ({m.confidence})")

/-- How sure a match is, with two places; a text cannot be written so. -/
def confidenceText (d : Datum) : Outcome String := do
  if d.isText then throw .unplaced
  (← d.number).twoPlaces

def Matched.read (m : Datum) : Outcome Matched := do
  let token ← m.need "matchedToken"
  let var ← m.need "figmaVarName"
  let cssVar ← token.need "cssVar"
  return ⟨var.shown, cssVar.shown, ← confidenceText (← m.need "confidence")⟩

/-- The matches that have a token. -/
def matchesOf (d : Datum) : Outcome (List Matched) := do
  let found ← (← (d.orElse (.list [])).items).filterM fun m => do
    return (← m.get "matchedToken").isTruthy
  found.mapM Matched.read

/-- The comment that lists matches. -/
def matchComment (ms : List Matched) : List String :=
  if ms.isEmpty then []
  else
    [Text.lines (["/* Design tokens matched to project tokens:"] ++ ms.map Matched.line ++ [" */"])]

/-! ## Variants and states -/

/-- The selector of an element with all the classes of a variant. -/
def variantSelector (base : String) (properties : List (String × Datum)) : String :=
  "." ++ base ++ String.join (properties.map fun (key, value) =>
    s!".{base}--{Css.segment key}-{Css.segment value.shown}")

/-- The rules of variants, one for each selector. -/
def variantBlocks (base : String) : List String → List Component.VariantSpec → List String
  | _, [] => []
  | seen, v :: rest =>
    let selector := variantSelector base v.properties
    if v.properties.isEmpty || seen.contains selector then variantBlocks base seen rest
    else
      Css.block selector [] (some ("Variant: " ++ v.name.shown)) 0 ::
        variantBlocks base (selector :: seen) rest

def stateSelectors : List (String × String) :=
  [("hover", ":hover"), ("pressed", ":active"), ("focus", ":focus-visible")]

def stateBlock (base state : String) : String :=
  let own := s!".{base}--{Css.segment state}"
  let selector := match stateSelectors.lookup state with
    | some pseudo => s!".{base}{pseudo}, {own}"
    | none => own
  Css.block selector [] (some ("State: " ++ state)) 0

/-- The rule of a state; the default state needs none, and the disabled one has a rule of its own. -/
def ownStateBlock (base : String) (state : Datum) : Outcome (List String) := do
  let name ← state.need "name"
  if name.isOneOf ["default", "disabled"] then return []
  return [stateBlock base (← name.asKey).shown]

/-- The rules of states. -/
def stateBlocks (base : String) (states : List Datum) : Outcome (List String) := do
  return (← states.mapM (ownStateBlock base)).flatten

def disabledBlock (base : String) : String :=
  Css.block s!".{base}:disabled,\n.{base}[aria-disabled='true'],\n.{base}--disabled"
    [("opacity", "0.5"), ("cursor", "not-allowed")] none 0

/-! ## The whole -/

/-- The rule of the outermost node. -/
def rootBlock (base : String) (properties : List Property) : String :=
  Css.block ("." ++ base) (properties.map fun (k, v) => (k, v.shown)) none 0

/-- How strokes are drawn in an outline. -/
def strokeStyle (outline : Datum) : Outcome Paint.StrokeStyle := do
  let hints := (← outline.get "visualHints").orElse .empty
  return .ofDatum (← hints.fieldOr "strokeMappingStrategy" (.text "outline"))

/-- The style sheet of a component. -/
def text (name base : String) (outline interaction : Datum) (tokens : Component.TokenTable)
    (matched : Datum) : Outcome String := do
  let tree ← Component.treeOf outline
  let style ← strokeStyle outline
  let ms ← matchesOf matched
  let root ← rootProperties tree tokens style
  let variants ← (← outline.itemsOf "variants").mapM Component.VariantSpec.read
  let states ← stateBlocks base (← interaction.itemsOf "states")
  let blocks := [Css.comment (name ++ " styles, generated from Figma")] ++ matchComment ms ++
    [rootBlock base root] ++ variantBlocks base [] variants ++ states ++ [disabledBlock base]
  return "\n\n".intercalate blocks ++ "\n"

end Maquette.Stylesheet
