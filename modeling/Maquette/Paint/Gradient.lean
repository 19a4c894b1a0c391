/-
Gradients. The color of a gradient between two stops is interpolated; a gradient that is nested in
another one is flattened into eleven stops that go over from the outer to the inner one.
Interpolation is written for any kind of number, so that it can be reasoned about exactly.
-/
import Maquette.Color
import Maquette.Script

namespace Maquette.Paint

/-! ## Interpolation -/

/-- Numbers to compute with; a computation may have no result. -/
structure Arithmetic (m : Type → Type) (α : Type) where
  zero : α
  one : α
  add : α → α → m α
  sub : α → α → m α
  mul : α → α → m α
  div : α → α → m α
  le : α → α → Bool

/-- A position on a gradient and what is there. -/
structure Stop (α γ : Type) where
  position : α
  color : γ

/-- Where a position lies among stops: on one, or between two by a share of their distance. -/
inductive Spot (α γ : Type) where
  | exactly (color : γ)
  | between (left right : γ) (share : α)

variable {m : Type → Type} [Monad m] {α γ : Type}

/-- A value between two others, by the share of the second one; the second one is not looked at
before the first has been weighed. -/
def mix (ar : Arithmetic m α) (a b : m α) (share : α) : m α := do
  let left ← a
  let left ← ar.mul left (← ar.sub ar.one share)
  let right ← b
  let right ← ar.mul right share
  ar.add left right

/-- Where a position lies from a stop on that is not beyond it. -/
def spotFrom (ar : Arithmetic m α) (t : α) : Stop α γ → List (Stop α γ) → m (Spot α γ)
  | left, [] => pure (.exactly left.color)
  | left, right :: rest =>
    if ar.le left.position t && ar.le t right.position then
      if ar.le right.position left.position then
        pure (.between left.color right.color ar.zero)
      else do
        let covered ← ar.sub t left.position
        let whole ← ar.sub right.position left.position
        return .between left.color right.color (← ar.div covered whole)
    else spotFrom ar t right rest

/-- Stops in the order of their positions; stops at one position keep their order. -/
def inOrder (ar : Arithmetic m α) (stops : List (Stop α γ)) : List (Stop α γ) :=
  stops.mergeSort fun a b => ar.le a.position b.position

/-- Where a position lies among stops, if there are any. -/
def spot? (ar : Arithmetic m α) (stops : List (Stop α γ)) (t : α) : m (Option (Spot α γ)) :=
  match inOrder ar stops with
  | [] => pure none
  | first :: rest =>
    if ar.le t first.position then pure (some (.exactly first.color))
    else some <$> spotFrom ar t first rest

/-! ## Colors of stops -/

/-- Loosely typed values. -/
def looseArithmetic : Arithmetic Outcome Datum :=
  ⟨.int 0, .int 1, Datum.plus, Datum.minus, Datum.times, Datum.quotient, Datum.atMost⟩

/-- The channels of a color with what they are where they are absent. -/
def channels : List (String × Datum) :=
  [("r", .int 0), ("g", .int 0), ("b", .int 0), ("a", .int 1)]

/-- A color between two others. -/
def mixColors (left right : Outcome Datum) (share : Datum) : Outcome Datum := do
  return .record (← channels.mapM fun (key, absent) => do
    let side (color : Outcome Datum) : Outcome Datum := do (← color).fieldOr key absent
    return (key, ← mix looseArithmetic (side left) (side right) share))

/-- A gradient's stops with their positions; each stop stands for its color. -/
def stopsOf (stops : List Datum) : Outcome (List (Stop Datum Datum)) := do
  let positions ← stops.mapM fun s => s.fieldOr "position" (.int 0)
  let positions ← positions.mapM fun p => return (← p.number).toDatum
  return positions.zipWith Stop.mk stops

/-- The color of a gradient at a position; without stops it is transparent. -/
def colorAt (stops t : Datum) : Outcome Datum := do
  match ← spot? looseArithmetic (← stopsOf (← (stops.orElse (.list [])).items)) t with
  | none => return .record (channels.map fun (key, _) => (key, .int 0))
  | some (.exactly stop) => stop.need "color"
  | some (.between left right share) =>
    mixColors (left.need "color") (right.need "color") share

/-! ## Geometry -/

/-- A share as a percentage. -/
def percent (d : Datum) : Outcome String := do (← d.times (.int 100)).plain

/-- An angle in degrees by the sides of a right triangle. -/
def degrees (opposite adjacent : Float) : Float :=
  Float.atan2 opposite adjacent * (180 / 3.141592653589793)

/-- An angle between -90 and 270 degrees as one from 0 on, with two places. -/
def turned (angle : Float) : Float :=
  Decimal.roundTo 2 (if angle < 0 then angle + 360 else angle)

/-- The direction of a linear gradient, by its transform or else by its handles. -/
def angle (paint : Datum) : Outcome Float := do
  let transform ← paint.get "gradientTransform"
  if transform.isTruthy then
    let _ ← transform.size
    let row ← transform.nth 0
    if 2 ≤ (← row.size) then
      let across ← row.nth 0
      let down ← (← (← row.nth 1).number).toFloat
      return turned (degrees down (← (← across.number).toFloat) + 90)
  let handles ← paint.get "gradientHandlePositions"
  if !handles.isTruthy then return 180
  if (← handles.size) < 2 then return 180
  let start ← handles.nth 0
  let stop ← handles.nth 1
  let side (key : String) : Outcome Number := do
    let far ← stop.fieldOr key (.int 0)
    (← far.minus (← start.fieldOr key (.int 0))).number
  let y ← side "y"
  let x ← side "x"
  let y ← y.toFloat
  return turned (degrees y (← x.toFloat) + 90)

/-- Where a radial or conic gradient has its middle: at its first handle. -/
def center (paint : Datum) : Outcome String := do
  let handles ← paint.get "gradientHandlePositions"
  if !handles.isTruthy then return "50% 50%"
  let start ← handles.nth 0
  let x ← percent (← start.fieldOr "x" (.float 0.5))
  let y ← percent (← start.fieldOr "y" (.float 0.5))
  return x ++ "% " ++ y ++ "%"

/-! ## Writing -/

/-- The stops of a gradient under its opacity. -/
def stopList (stops : List Datum) (opacity : Datum) : Outcome String := do
  let parts ← stops.mapM fun s => do
    let position ← percent (← s.fieldOr "position" (.int 0))
    return (← Color.rgba (← s.fieldOr "color" .empty) opacity) ++ " " ++ position ++ "%"
  return ", ".intercalate parts

/-- Whether a box that may be absent is as high as it is wide. -/
def isSquare (box : Datum) : Outcome Bool := do
  if !box.isTruthy then return false
  return (← box.get "width").equals (← box.get "height")

/-- A gradient with the given stops; a diamond is approximated by a diagonal. -/
def gradientOf (paint : Datum) (stops : List Datum) (box : Datum) : Outcome String := do
  let stops ← stopList stops (← paint.fieldOr "opacity" (.int 1))
  let kind ← paint.fieldOr "gradientType" (.text "linear")
  if kind.isThe "radial" then
    let shape := if ← isSquare box then "circle" else "ellipse"
    return s!"radial-gradient({shape} at {← center paint}, {stops})"
  if kind.isThe "angular" then
    let turn ← (Number.float (← angle paint)).plain
    return s!"conic-gradient(from {turn}deg at {← center paint}, {stops})"
  if kind.isThe "diamond" then return s!"linear-gradient(45deg, {stops})"
  return s!"linear-gradient({← (Number.float (← angle paint)).plain}deg, {stops})"

/-- A gradient by itself. -/
def gradient (paint box : Datum) : Outcome String := do
  gradientOf paint (← paint.itemsOf "gradientStops") box

/-- How many steps a nested gradient is flattened into. -/
def nestedSteps : Nat := 10

/-- The stop of a flattened gradient after so many steps. -/
def blendedStop (outer inner : Datum) (step : Nat) : Outcome Datum := do
  let t ← (Datum.int step).quotient (.int nestedSteps)
  let around ← colorAt outer t
  let within ← colorAt inner t
  return .record [("position", t), ("color", ← mixColors (.ok around) (.ok within) t)]

/-- A gradient, flattened when it is nested in another one. -/
def nestedGradient (paint box : Datum) : Outcome String := do
  let parent ← paint.get "parentGradient"
  if !parent.isTruthy then return ← gradient paint box
  if !(← parent.get "type").isThe "gradient" then return ← gradient paint box
  let outer ← parent.get "gradientStops"
  let inner ← paint.get "gradientStops"
  gradientOf paint (← (List.range (nestedSteps + 1)).mapM (blendedStop outer inner)) box

end Maquette.Paint
