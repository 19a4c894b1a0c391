/-
Paints, strokes and effects of a layer in the outline's terms.
-/
import Maquette.Datum.Access

namespace Maquette.Outline

/-! ## Colors -/

/-- The four channels of a color, black and opaque where they are absent. -/
def color (d : Datum) : Outcome Datum := do
  let d := d.orElse .empty
  return .record [("r", ← d.fieldOr "r" (.int 0)), ("g", ← d.fieldOr "g" (.int 0)),
    ("b", ← d.fieldOr "b" (.int 0)), ("a", ← d.fieldOr "a" (.int 1))]

/-- A text out of a list of pairs, by a key that has to be able to be one. -/
def named (pairs : List (String × String)) (key : Datum) : Outcome (Option String) := do
  match ← key.asKey with
  | .text s => return pairs.lookup s
  | _ => return none

/-! ## Paints -/

def gradientKinds : List (String × String) :=
  [("GRADIENT_LINEAR", "linear"), ("GRADIENT_RADIAL", "radial"), ("GRADIENT_ANGULAR", "angular"),
   ("GRADIENT_DIAMOND", "diamond")]

/-- A paint counts unless it is switched off. -/
def isVisible (d : Datum) : Bool :=
  match d with
  | .record fields =>
    match fields.lookup "visible" with
    | some (.bool b) => b
    | _ => true
  | _ => false

/-- A field that is kept when it is given. -/
def kept (d : Datum) (key : String) : Outcome (List (String × Datum)) := do
  let v ← d.get key
  return if v.isTruthy then [(key, v)] else []

def stop (d : Datum) : Outcome Datum := do
  return .record [("position", ← d.fieldOr "position" (.int 0)), ("color", ← color (← d.get "color"))]

def imagePaint (d opacity : Datum) : Outcome Datum := do
  let url := ((← d.get "imageRef").orElse (← d.get "imageHash")).orElse (.text "")
  return .record <|
    [("type", .text "image"), ("imageUrl", url),
     ("scaleMode", ← d.fieldOr "scaleMode" (.text "FILL")), ("opacity", opacity)] ++
    (← kept d "imageTransform") ++ (← kept d "imageCrop")

/-- A gradient; `parent` is the gradient it is nested in, if it has one. -/
def gradientPaint (d opacity : Datum) (kind : String) (parent : Outcome (Option Datum)) :
    Outcome Datum := do
  let stops ← (← d.itemsOf "gradientStops").mapM stop
  return .record <|
    [("type", .text "gradient"), ("gradientType", .text kind), ("gradientStops", .list stops),
     ("opacity", opacity)] ++
    (← kept d "gradientTransform") ++ (← kept d "gradientHandlePositions") ++
    ((← parent).map fun p => ("parentGradient", p)).toList

mutual

/-- A paint; what is neither a color nor a gradient nor an image paints nothing. -/
def paint (d : Datum) : Outcome Datum :=
  match d with
  | .record fields => do
    let kind ← d.get "type"
    let opacity ← d.fieldOr "opacity" (.int 1)
    if kind.isThe "SOLID" then
      return .record [("type", .text "solid"), ("color", ← color (← d.get "color")),
        ("opacity", opacity)]
    match ← named gradientKinds kind with
    | some gradient => gradientPaint d opacity gradient (parentPaint fields)
    | none =>
      if kind.isThe "IMAGE" then imagePaint d opacity
      else return .record [("type", .text "none")]
  | _ => .error .noMember

/-- The gradient among a paint's fields that it is nested in. -/
def parentPaint (fields : List (String × Datum)) : Outcome (Option Datum) :=
  match fields with
  | [] => .ok none
  | (k, v) :: rest =>
    if k == "parentGradient" then
      (if v.isRecord then some <$> paint v else .ok none)
    else parentPaint rest

end

/-! ## Strokes -/

/-- A stroke in the layer's weight and alignment; only colors make one. -/
def stroke (d layer : Datum) : Outcome Datum := do
  if !(← d.get "type").isThe "SOLID" then return .record [("type", .text "none")]
  return .record [("type", .text "solid"), ("color", ← color (← d.get "color")),
    ("width", (← layer.get "strokeWeight").orElse (.int 1)),
    ("position", .text (Text.lower (← layer.fieldOr "strokeAlign" (.text "INSIDE")).shown))]

/-! ## Effects -/

def effectKinds : List (String × String) :=
  [("DROP_SHADOW", "drop-shadow"), ("INNER_SHADOW", "inner-shadow"), ("LAYER_BLUR", "layer-blur"),
   ("BACKGROUND_BLUR", "background-blur")]

/-- An effect; one of an unknown kind is kept as a shadow that does not show. -/
def effect (d : Datum) : Outcome Datum := do
  match ← named effectKinds (← d.get "type") with
  | none =>
    return .record [("type", .text "drop-shadow"), ("radius", .int 0), ("visible", .bool false)]
  | some kind =>
    let base : List (String × Datum) :=
      [("type", .text kind), ("radius", ← d.fieldOr "radius" (.int 0)),
       ("visible", .bool (isVisible d))]
    if kind == "drop-shadow" || kind == "inner-shadow" then
      let offset := (← d.get "offset").orElse .empty
      return .record <| base ++
        [("color", ← color (← d.get "color")),
         ("offset", .record [("x", ← offset.fieldOr "x" (.int 0)), ("y", ← offset.fieldOr "y" (.int 0))]),
         ("spread", ← d.fieldOr "spread" (.int 0))]
    else return .record base

end Maquette.Outline
