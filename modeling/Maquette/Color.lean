/-
Colors: records of channels between 0 and 1, and the hexadecimal and functional spellings of style
sheets, read onto a common scale from 0 to 255.
-/
import Maquette.Datum.Access

namespace Maquette.Color

/-! ## Writing -/

/-- A channel between 0 and 1 as an integer from 0 to 255. -/
def channel (d : Datum) : Outcome Int := do
  let n ← (← (← d.number).mul 255).round
  return max 0 (min 255 n)

/-- An alpha value, rounded to three places, in at most six digits. -/
def alphaText (a : Number) : Outcome String := (a.roundTo 3).brief

/-- Whether a value is a record of color channels. -/
def isRecord (d : Datum) : Bool :=
  match d with
  | .record fields => ["r", "g", "b"].all fun k => (fields.lookup k).isSome
  | _ => false

/-- An alpha value with an opacity multiplied in. The product of a text or a list is no number,
which is met when the alpha value is written. -/
def alphaUnder (alpha opacity : Datum) : Outcome Datum :=
  match alpha.number?, opacity.number? with
  | some x, some y => return (← x.mul y).toDatum
  | none, some (.int n) => ofRepeated alpha n
  | some (.int n), none => ofRepeated opacity n
  | _, _ => .error .wrongKind
where
  ofRepeated (d : Datum) (n : Int) : Outcome Datum :=
    if !d.isRepeatable then .error .wrongKind
    else if Datum.isCount n then .ok d
    else .error .tooLarge

/-- The functional spelling with alpha; an opacity is multiplied in. -/
def rgba (color opacity : Datum) : Outcome String := do
  let factor := if opacity.isNull then .int 1 else opacity
  let alpha ← alphaUnder (← color.fieldOr "a" (.int 1)) factor
  let r ← channel (← color.fieldOr "r" (.int 0))
  let g ← channel (← color.fieldOr "g" (.int 0))
  let b ← channel (← color.fieldOr "b" (.int 0))
  return s!"rgba({r}, {g}, {b}, {← alphaText (← alpha.number)})"

/-- Two hexadecimal digits. -/
def hexPair (n : Int) : String := Text.upper (hex 2 n.toNat)

/-- The hexadecimal spelling of an opaque color, the functional one of any other. -/
def hexOrRgba (color : Datum) : Outcome String := do
  let alpha ← (← color.fieldOr "a" (.int 1)).number
  if alpha.lt 1 then rgba color (.int 1)
  else
    let parts ← ["r", "g", "b"].mapM fun k => do
      return hexPair (← channel (← color.fieldOr k (.int 0)))
    return "#" ++ String.join parts

/-! ## Reading -/

/-- A color on the scale from 0 to 255, with its alpha as it was given. -/
structure Rgb where
  r : Number
  g : Number
  b : Number
  a : Datum

def Rgb.channels (c : Rgb) : List Datum := [c.r.toDatum, c.g.toDatum, c.b.toDatum]

def Rgb.toDatum (c : Rgb) : Datum :=
  .list [c.r.toDatum, c.g.toDatum, c.b.toDatum, c.a]

/-- The digits after the mark of a hexadecimal spelling, with short forms doubled. -/
def hexDigits? : List Char → Option (List Nat)
  | '#' :: rest => do
    let ds ← rest.mapM Text.hexDigit?
    if ds.length = 3 ∨ ds.length = 4 then some (ds.flatMap fun d => [d, d])
    else if ds.length = 6 ∨ ds.length = 8 then some ds
    else none
  | _ => none

/-- One of the letters, in either case. -/
def isLetterOf (small : Char) (c : Char) : Bool :=
  c.toLower == small || (small == 's' && c == 'ſ')

/-- What follows a word in any letter case. -/
def afterWord? : List Char → List Char → Option (List Char)
  | [], cs => some cs
  | w :: ws, c :: cs => if isLetterOf w c then afterWord? ws cs else none
  | _ :: _, [] => none

/-- What follows the name of a color function, with or without alpha, and its bracket. -/
def afterName? (name : String) (cs : List Char) : Option (List Char) :=
  match afterWord? name.toList cs with
  | some (c :: rest) =>
    if c == '(' then some rest
    else if isLetterOf 'a' c then (match rest with | '(' :: r => some r | _ => none)
    else none
  | _ => none

/-- The arguments between the bracket of `rgb(` and the closing bracket at the end. -/
def rgbBody? (cs : List Char) : Option (List Char) := do
  let rest ← afterName? "rgb" cs
  let (body, tail) ← Text.cut? ')' rest
  if tail.isEmpty then some body else none

/-- Whether a value is spelled like a color. -/
def looksLike (d : Datum) : Bool :=
  isRecord d ||
    match d with
    | .text s =>
      let cs := Text.trim Text.isBlank s.toList
      (hexDigits? cs).isSome || (rgbBody? cs).isSome || (afterName? "hsl" cs).isSome
    | _ => false

/-- A number with percent signs behind it, and whether there are any. -/
def percented? (cs : List Char) : Option (Float × Bool) :=
  let digits := Text.dropEnd (· == '%') cs
  (Decimal.looseDouble? (String.ofList digits)).map (·, digits.length != cs.length)

/-- A channel of the functional spelling; a percentage is scaled to 255. -/
def channelOf? (cs : List Char) : Option Number :=
  (percented? cs).map fun (x, percent) => .float (x * (if percent then 2.55 else 1))

/-- The color of the arguments of the functional spelling. -/
def ofArguments? (body : List Char) : Option Rgb := do
  let parts := Text.words (fun c => c == ',' || c == '/' || Text.isBlank c) body
  match parts with
  | r :: g :: b :: rest =>
    let r ← channelOf? r
    let g ← channelOf? g
    let b ← channelOf? b
    match rest with
    | [] => return ⟨r, g, b, .int 1⟩
    | a :: _ =>
      let (x, percent) ← percented? a
      return ⟨r, g, b, .float (x / (if percent then 100 else 1))⟩
  | _ => none

/-- The color of doubled hexadecimal digits. -/
def ofHex (ds : List Nat) : Rgb :=
  let byte (i : Nat) : Int := ds.getD i 0 * 16 + ds.getD (i + 1) 0
  ⟨.int (byte 0), .int (byte 2), .int (byte 4),
    if ds.length = 8 then .float (Decimal.ofRatio false (byte 6).toNat 255) else .int 1⟩

/-- The color of a record or a spelling; nothing for everything else. -/
def read (d : Datum) : Outcome (Option Rgb) := do
  if isRecord d then
    let r ← channel (← d.need "r")
    let g ← channel (← d.need "g")
    let b ← channel (← d.need "b")
    return some ⟨.int r, .int g, .int b, ← d.fieldOr "a" (.int 1)⟩
  match d with
  | .text s =>
    let cs := Text.trim Text.isBlank s.toList
    match hexDigits? cs with
    | some ds => return some (ofHex ds)
    | none => return (rgbBody? cs).bind ofArguments?
  | _ => return none

/-! ## Distance -/

/-- The greatest distance of two colors. -/
def maxDistance : Float := Float.sqrt 195075

/-- The distance of two lists of channels; only the first three count. -/
def distance (a b : List Datum) : Outcome Float := do
  let sum ← ((a.take 3).zip (b.take 3)).foldlM (fun sum (x, y) => do
    sum.add (← (← (← x.minus y).number).square)) (0 : Number)
  return (← sum.toFloat).sqrt

end Maquette.Color
