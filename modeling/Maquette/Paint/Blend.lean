/-
Blend modes of a layer as declarations. Two modes that style sheets do not have are approximated by
the closest one and a filter.
-/
import Maquette.Css

namespace Maquette.Paint

/-- The blend modes that leave a layer on its own. -/
def plainModes : List String := ["NORMAL", "PASS_THROUGH"]

def blendModes : List (String × String) :=
  [("NORMAL", "normal"), ("PASS_THROUGH", "normal"), ("MULTIPLY", "multiply"),
   ("SCREEN", "screen"), ("OVERLAY", "overlay"), ("DARKEN", "darken"), ("LIGHTEN", "lighten"),
   ("COLOR_DODGE", "color-dodge"), ("COLOR_BURN", "color-burn"), ("HARD_LIGHT", "hard-light"),
   ("SOFT_LIGHT", "soft-light"), ("DIFFERENCE", "difference"), ("EXCLUSION", "exclusion"),
   ("HUE", "hue"), ("SATURATION", "saturation"), ("COLOR", "color"),
   ("LUMINOSITY", "luminosity")]

/-- Modes without a counterpart: the closest mode and the filter on top of it. -/
def filteredModes : List (String × String × String) :=
  [("LINEAR_BURN", "multiply", "brightness(0.8) contrast(1.2)"),
   ("LINEAR_DODGE", "screen", "brightness(1.2) contrast(0.8)")]

/-- The declarations of a mode by its name. -/
def blendNamed (mode : String) : List Css.Declaration :=
  if plainModes.contains mode then []
  else match blendModes.lookup mode with
    | some name => [("mix-blend-mode", name)]
    | none =>
      match filteredModes.lookup mode with
      | some (name, filter) => [("mix-blend-mode", name), ("filter", filter)]
      | none => []

/-- The declarations of a blend mode that may be absent. -/
def blend (mode : Datum) : Outcome (List Css.Declaration) := do
  if !mode.isTruthy then return []
  match ← mode.asKey with
  | .text s => return blendNamed s
  | _ => return []

/-- Whether a blend mode must not reach beyond its layer. -/
def isIsolated (mode : Datum) : Outcome Bool := return !(← blend mode).isEmpty

end Maquette.Paint
