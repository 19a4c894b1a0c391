/-
Effects, strokes and corners of a layer as declarations.
-/
import Maquette.Color
import Maquette.Css

namespace Maquette.Paint

/-! ## Effects -/

/-- Shadows and blurs, each kind in order. -/
structure Effects where
  shadows : List String
  filters : List String
  backdrops : List String

def shadow (effect : Datum) (inner : Bool) : Outcome String := do
  let offset := (← effect.get "offset").orElse .empty
  let x ← (← offset.fieldOr "x" (.int 0)).pixels
  let y ← (← offset.fieldOr "y" (.int 0)).pixels
  let radius ← (← effect.fieldOr "radius" (.int 0)).pixels
  let spread ← ((← effect.fieldOr "spread" (.int 0)).orElse (.int 0)).pixels
  let color ← Color.rgba ((← effect.get "color").orElse .empty) (.int 1)
  return (if inner then "inset " else "") ++ s!"{x} {y} {radius} {spread} {color}"

def blur (effect : Datum) : Outcome String := do
  return "blur(" ++ (← (← effect.fieldOr "radius" (.int 0)).pixels) ++ ")"

/-- Takes one more effect, unless it is switched off. -/
def Effects.add (es : Effects) (effect : Datum) : Outcome Effects := do
  if !(← effect.fieldOr "visible" (.bool true)).isTruthy then return es
  let kind ← effect.get "type"
  if kind.isOneOf ["drop-shadow", "inner-shadow"] then
    return { es with shadows := es.shadows ++ [← shadow effect (kind.isThe "inner-shadow")] }
  if kind.isThe "layer-blur" then
    return { es with filters := es.filters ++ [← blur effect] }
  if kind.isThe "background-blur" then
    return { es with backdrops := es.backdrops ++ [← blur effect] }
  return es

/-- A declaration of several values, unless there are none. -/
def joined (property sep : String) (values : List String) : List Css.Declaration :=
  if values.isEmpty then [] else [(property, sep.intercalate values)]

def effects (d : Datum) : Outcome (List Css.Declaration) := do
  let es ← (← (d.orElse (.list [])).items).foldlM Effects.add ⟨[], [], []⟩
  return joined "box-shadow" ", " es.shadows ++ joined "filter" " " es.filters ++
    joined "backdrop-filter" " " es.backdrops

/-! ## Strokes -/

/-- How a stroke is drawn that does not lie outside of its layer. -/
inductive StrokeStyle where
  | outline
  | shadow
  deriving DecidableEq, Repr

def StrokeStyle.ofDatum (d : Datum) : StrokeStyle :=
  if d.isThe "outline" then .outline else .shadow

/-- The first stroke with a color; the others cannot be shown. -/
def strokes (d : Datum) (style : StrokeStyle) : Outcome (List Css.Declaration) := do
  let solid ← (← (d.orElse (.list [])).items).filterM fun s => do
    return (← s.get "type").isThe "solid"
  match solid with
  | [] => return []
  | stroke :: _ =>
    let color ← Color.rgba ((← stroke.get "color").orElse .empty) (.int 1)
    let width ← (← stroke.fieldOr "width" (.int 1)).pixels
    if (← stroke.get "position").isThe "outside" || style = .outline then
      return [("outline", s!"{width} solid {color}"), ("outline-offset", "0")]
    return [("box-shadow", s!"inset 0 0 0 {width} {color}")]

/-! ## Corners -/

/-- Whether values that can serve as keys are not all the same. -/
def differ : List Datum → Bool
  | [] => false
  | first :: rest => rest.any (!·.same first)

/-- The corner radii of a node: one for each corner when they differ, else one for all. -/
def corners (node : Datum) : Outcome (List Css.Declaration) := do
  let radii ← node.get "rectangleCornerRadii"
  if radii.isTruthy then
    let each ← (← radii.items).mapM Datum.asKey
    if differ each then
      return [("border-radius", " ".intercalate (← each.mapM Datum.pixels))]
  let own ← node.get "cornerRadius"
  let radius ← if own.isNull && radii.isTruthy then radii.nth 0 else pure own
  if radius.isTruthy then return [("border-radius", ← radius.pixels)]
  return []

end Maquette.Paint
