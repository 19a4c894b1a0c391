/-
The fills of a layer as a background. A design lists its paints from the bottom to the top, a
background its layers from the top to the bottom; only the lowest layer of a background may be a
bare color, so any other color is written as a gradient from itself to itself.
-/
import Maquette.Css
import Maquette.Paint.Gradient

namespace Maquette.Paint

/-! ## Layers -/

/-- One layer of a background. -/
inductive Layer where
  | bare (color : String)
  | flat (color : String)
  | gradient (css : String)
  | image (url size tiling : String)
  deriving DecidableEq, Repr

def Layer.text : Layer → String
  | bare color => color
  | flat color => s!"linear-gradient({color}, {color})"
  | gradient css => css
  | image url size tiling => "url(\"" ++ url ++ "\") center / " ++ size ++ " " ++ tiling

/-- How an image is fitted into its layer. -/
def imageSize (mode : Datum) : Outcome String := do
  match ← mode.asKey with
  | .text "FIT" => return "contain"
  | .text "TILE" => return "auto"
  | _ => return "cover"

/-- The color of a paint under its opacity. -/
def solidColor (paint : Datum) : Outcome String := do
  let color ← paint.fieldOr "color" .empty
  Color.rgba color (← paint.fieldOr "opacity" (.int 1))

/-- The layer of a paint, if it makes one. -/
def layer? (paint box : Datum) (lowest : Bool) : Outcome (Option Layer) := do
  let kind ← paint.get "type"
  if kind.isThe "solid" then
    let color ← solidColor paint
    return some (if lowest then .bare color else .flat color)
  if kind.isThe "gradient" then return some (.gradient (← nestedGradient paint box))
  if !kind.isThe "image" then return none
  let url ← paint.get "imageUrl"
  if !url.isTruthy then return none
  let size ← imageSize (← paint.fieldOr "scaleMode" (.text "FILL"))
  let tiling := if (← paint.get "scaleMode").isThe "TILE" then "repeat" else "no-repeat"
  return some (.image url.shown size tiling)

/-- The layers of paints from the top to the bottom, given from the top to the bottom. -/
def layers (box : Datum) : List Datum → Outcome (List Layer)
  | [] => .ok []
  | paint :: lower => do
    let top ← layer? paint box lower.isEmpty
    return top.toList ++ (← layers box lower)

/-! ## Backgrounds -/

/-- Whether a paint is of a kind that shows. -/
def shows (paint : Datum) : Outcome Bool :=
  return (← paint.get "type").isOneOf ["solid", "gradient", "image"]

/-- The background of several layers. -/
def background (layers : List Layer) : List Css.Declaration :=
  if layers.isEmpty then [] else [("background", ", ".intercalate (layers.map Layer.text))]

/-- The one declaration of the fills of a layer, if they show. -/
def fills (paints box : Datum) : Outcome (List Css.Declaration) := do
  let paints ← (← (paints.orElse (.list [])).items).filterM shows
  match paints with
  | [paint] =>
    if (← paint.get "type").isThe "solid" then
      return [("background-color", ← solidColor paint)]
    return background (← layers box [paint])
  | _ => return background (← layers box paints.reverse)

/-- The background of fills as one value. -/
def backgroundValue (paints box : Datum) : Outcome (Option String) :=
  return (← fills paints box).head?.map (·.2)

end Maquette.Paint
