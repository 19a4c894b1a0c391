/-
What a token is for: its kind, by the variable's scopes, type, name and value in this order, and
the dotted name under that kind.
-/
import Maquette.Token.Alias

namespace Maquette.Token

/-- The kinds of tokens, in the order in which they are listed. -/
def kinds : List String :=
  ["color", "spacing", "typography", "sizing", "radius", "shadow", "opacity", "other"]

def scopeKinds : List (String × String) :=
  [("ALL_FILLS", "color"), ("FRAME_FILL", "color"), ("SHAPE_FILL", "color"),
   ("TEXT_FILL", "color"), ("STROKE_COLOR", "color"), ("EFFECT_COLOR", "color"),
   ("GAP", "spacing"), ("CORNER_RADIUS", "radius"), ("WIDTH_HEIGHT", "sizing"),
   ("STROKE_FLOAT", "sizing"), ("OPACITY", "opacity"), ("FONT_FAMILY", "typography"),
   ("FONT_STYLE", "typography"), ("FONT_WEIGHT", "typography"), ("FONT_SIZE", "typography"),
   ("LINE_HEIGHT", "typography"), ("LETTER_SPACING", "typography"),
   ("PARAGRAPH_SPACING", "typography"), ("PARAGRAPH_INDENT", "typography"),
   ("TEXT_CONTENT", "typography"), ("EFFECT_FLOAT", "shadow")]

/-- Words of a name and the kind they stand for. A border radius is a radius before a border is a
color. -/
def nameKinds : List (List String × String) :=
  [(["font", "typography", "line-height", "letter-spacing", "text-style"], "typography"),
   (["opacity", "alpha"], "opacity"),
   (["radius", "corner", "rounded"], "radius"),
   (["shadow", "elevation", "blur"], "shadow"),
   (["spacing", "space", "gap", "padding", "margin"], "spacing"),
   (["size", "width", "height"], "sizing"),
   (["color", "colour", "background", "bg", "text", "border", "fill", "icon", "surface",
     "foreground"], "color")]

/-- The same for numbers, which are never colors: a border alone is a border radius. -/
def numberNameKinds : List (List String × String) :=
  [(["opacity", "alpha"], "opacity"),
   (["radius", "corner", "rounded"], "radius"),
   (["spacing", "space", "gap", "padding", "margin"], "spacing"),
   (["size", "width", "height"], "sizing"),
   (["border"], "radius")]

/-- The kind of the first rule with a word in the name. -/
def byName (rules : List (List String × String)) (lower : String) : Option String :=
  (rules.find? fun (words, _) => Text.hasAny lower words).map (·.2)

/-- Whether a text is a number with a unit of length. -/
def isDimension (cs : List Char) : Bool :=
  let isDigit (c : Char) : Bool := (Text.decimalDigit? c).isSome
  let body := match cs with
    | '-' :: rest => rest
    | _ => cs
  let rest := body.dropWhile isDigit
  let units := [['p', 'x'], ['r', 'e', 'm'], ['e', 'm'], ['p', 't']]
  (body.takeWhile isDigit) != [] &&
    match rest with
    | '.' :: r => r.takeWhile isDigit != [] && units.contains (r.dropWhile isDigit)
    | r => units.contains r

/-- The kind that the scopes of a variable name. -/
def byScopes : List Datum → Outcome (Option String)
  | [] => .ok none
  | scope :: rest => do
    match ← scope.asKey with
    | .text s =>
      match scopeKinds.lookup s with
      | some kind => return some kind
      | none => byScopes rest
    | _ => byScopes rest

/-- The kind that a value shows. -/
def byValue (value : Datum) : String :=
  if Color.looksLike value then "color"
  else match value with
    | .int _ => "spacing"
    | .float _ => "spacing"
    | .text s => if isDimension (Text.trim Text.isBlank s.toList) then "spacing" else "other"
    | _ => "other"

/-- The kind of a token. -/
def kindOf (name scopes value type : Datum) : Outcome String := do
  match ← byScopes (← (scopes.orElse (.list [])).items) with
  | some kind => return kind
  | none =>
    let lower := Text.lower (← name.textOrEmpty)
    if type.isThe "COLOR" then return "color"
    if type.isThe "FLOAT" then return (byName numberNameKinds lower).getD "sizing"
    return (byName nameKinds lower).getD (byValue value)

/-! ## Dotted names -/

/-- A name with dots for slashes and blanks, in small letters, without dots at its ends. -/
def dotted (name : String) : List Char :=
  let cs := Text.fuse (fun c => c == '/' || Text.isBlank c) '.' false
    (Text.trim Text.isBlank name.toList)
  Text.trim (· == '.') (Text.smallFrom [] cs)

/-- A token's name under its kind; a name that begins with the kind does not repeat it. -/
def pathName (name kind : String) : String :=
  let path := dotted name
  if kind == "other" then String.ofList path
  else
    let tail := match Text.dropPrefix? kind.toList path with
      | some [] => []
      | some ('.' :: rest) => rest.dropWhile (· == '.')
      | _ => path
    if tail.isEmpty then kind else kind ++ "." ++ String.ofList tail

/-! ## Values -/

/-- A value as a token holds it: colors in functional spelling, integral doubles as integers, other
values as their text; an alias stays. -/
def tokenValue (value : Datum) : Outcome Datum := do
  if isAlias value then return value
  if Color.isRecord value then return .text (← Color.rgba value (.int 1))
  match value with
  | .bool b => return .bool b
  | .int n =>
    let _ ← (Number.int n).toFloat
    return .int n
  | .float x =>
    return if Decimal.isIntegral x then ((Decimal.truncate? x).map .int).getD value else value
  | .null => return .text ""
  | d => return .text d.shown

end Maquette.Token
