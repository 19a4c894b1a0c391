/-
Design variables matched with a project's own tokens. Tokens are taken in the order of their names;
one with the variable's normalized name wins outright, else the best score, the first of equals.
-/
import Maquette.Token.Kind

namespace Maquette.Token

/-! ## Names -/

def isSeparator (c : Char) : Bool := c == '/' || c == '.' || c == '_' || Text.isBlank c

def isNameMark (c : Char) : Bool :=
  ('a' ≤ c && c ≤ 'z') || ('0' ≤ c && c ≤ '9') || c == '-'

/-- A name in small letters and digits, with single hyphens for separators; other characters are
dropped. -/
def normalized (name : String) : String :=
  let cs := Text.fuse isSeparator '-' false (Text.smallFrom [] name.toList)
  String.ofList (Text.trim (· == '-') (Text.squeeze '-' (cs.filter isNameMark)))

/-- The reference to a token's custom property. -/
def cssVar (name : String) : String := "var(--" ++ normalized name ++ ")"

/-! ## Similarity -/

/-- One row of the table of edit distances: from the distances of all beginnings of `b` to those
with one more character of `a`. -/
def editRow [BEq α] (c : α) (left : Nat) : List α → List Nat → List Nat
  | d :: b, diagonal :: above :: rest =>
    let here := if c == d then diagonal else 1 + min left (min diagonal above)
    here :: editRow c here b (above :: rest)
  | _, _ => []

/-- The rows of the table, one character of `a` after the other. -/
def editRows [BEq α] (b : List α) : List α → Nat → List Nat → List Nat
  | [], _, row => row
  | c :: a, i, row => editRows b a (i + 1) ((i + 1) :: editRow c (i + 1) b row)

/-- The least number of characters to insert, delete or replace that turns `a` into `b`. -/
def editDistance [BEq α] (a b : List α) : Nat :=
  (editRows b a 0 (List.range (b.length + 1))).getLast?.getD 0

/-- The nearest double to a quotient. -/
def quotient (m n : Nat) : Float := Decimal.ofRatio false m n

/-- The parts of a name between hyphens, each once. -/
def parts (name : List Char) : List (List Char) := (Text.splitOn (· == '-') name).eraseDups

/-- The similarity of two normalized names: half of it by edits, three tenths by one holding the
other, two tenths by shared parts. -/
def nameSimilarity (a b : String) : Float :=
  let x := a.toList
  let y := b.toList
  if x.isEmpty || y.isEmpty then 0.0
  else
    let longest := max x.length y.length
    let edit : Float := 1.0 - quotient (editDistance x y) longest
    let containment : Float :=
      if Text.occursIn x y || Text.occursIn y x then quotient (min x.length y.length) longest else 0.0
    let px := parts x
    let py := parts y
    let shared : Float :=
      quotient (px.filter py.contains).length (max px.length py.length)
    0.5 * edit + 0.3 * containment + 0.2 * shared

/-! ## Sequences of any kind -/

/-- An item as it is compared in a sequence: a text of one character is the number of it. -/
def unitOf (d : Datum) : Outcome Datum :=
  match d with
  | .text s => match s.toList with
    | [c] => .ok (.int c.toNat)
    | _ => .ok d
  | d => d.asKey

/-- The items of a sequence that may be absent; a record has none at a position. -/
def unitsOf (d : Datum) : Outcome (List Datum) := do
  if !d.isTruthy then return []
  if d.isRecord then throw (.missing "0")
  (← d.items).mapM unitOf

/-- The edit distance of two sequences, texts or lists. -/
def sequenceDistance (a b : Datum) : Outcome Nat := do
  let x ← unitsOf a
  return editDistance x (← unitsOf b)

/-- The similarity of two values as names; only texts have one, and absent ones none at all. -/
def valueSimilarity (a b : Datum) : Outcome Float := do
  if !a.isTruthy || !b.isTruthy then return 0.0
  match a, b with
  | .text x, .text y => return nameSimilarity x y
  | _, _ =>
    let _ ← a.size
    let _ ← b.size
    let _ ← sequenceDistance a b
    if a.isList && b.isList then throw .noMember
    if a.isText && (← b.holds a) then throw .noMember
    throw .wrongKind

/-- The similarity of two colors: one minus their distance in parts of the greatest distance. -/
def colorSimilarity (a b : Datum) : Outcome (Option Float) := do
  match ← Color.read a, ← Color.read b with
  | some x, some y =>
    return some (1 - (← Color.distance x.channels y.channels) / Color.maxDistance)
  | _, _ => return none

/-! ## Numbers with units -/

def units : List (List Char) := [['p', 'x'], ['r', 'e', 'm'], ['e', 'm'], ['p', 't'], ['%']]

/-- A number and its unit out of a text, blanks allowed around both. -/
def quantityOf? (s : String) : Option (Float × String) :=
  let isDigit (c : Char) : Bool := (Text.decimalDigit? c).isSome
  let cs := Text.trim Text.isBlank s.toList
  let (minus, body) := match cs with
    | '-' :: rest => (['-'], rest)
    | _ => ([], cs)
  let whole := body.takeWhile isDigit
  let (frac, rest) := match body.dropWhile isDigit with
    | '.' :: r =>
      if r.takeWhile isDigit != [] then ('.' :: r.takeWhile isDigit, r.dropWhile isDigit)
      else ([], '.' :: r)
    | r => ([], r)
  let unit := rest.dropWhile Text.isBlank
  if whole.isEmpty || !(unit.isEmpty || units.contains unit) then none
  else (Decimal.looseDouble? (String.ofList (minus ++ whole ++ frac))).map (·, String.ofList unit)

/-- A value as a number with a unit; bare numbers have none. -/
def quantity (d : Datum) : Outcome (Option (Float × String)) := do
  match d with
  | .int n => return some (← (Number.int n).toFloat, "")
  | .float x => return some (x, "")
  | .text s => return quantityOf? s
  | _ => return none

/-- The similarity of two numbers: one minus their difference in parts of the greater one. Numbers
in different units cannot be compared. -/
def numericSimilarity (a b : Datum) : Outcome (Option Float) := do
  match ← quantity a, ← quantity b with
  | some (x, ux), some (y, uy) =>
    if ux != "" && uy != "" && ux != uy then return none
    let largest := if x.abs < y.abs then y.abs else x.abs
    return some (if largest == 0 then 1.0 else 1 - (x - y).abs / largest)
  | _, _ => return none

/-! ## Kinds -/

def numericKinds : List String := ["spacing", "sizing", "radius"]

def knownKinds : List String :=
  ["color", "float", "number", "spacing", "sizing", "radius", "typography", "shadow", "opacity",
   "string", "boolean"]

/-- Whether a variable's and a token's kinds go together; unknown kinds go with everything. -/
def areCompatible (variableKind tokenKind : String) : Bool :=
  let v := Text.lower variableKind
  let t := Text.lower tokenKind
  if !knownKinds.contains v || !knownKinds.contains t then true
  else if v == "color" || t == "color" then v == t
  else if v == "float" || v == "number" then numericKinds.contains t
  else if numericKinds.contains v then numericKinds.contains t || t == "float" || t == "number"
  else v == t

/-! ## Scores -/

/-- The greater of two scores, the first of equals. -/
def better (a b : Float) : Float := if a < b then b else a

/-- How well a token fits a variable of the given normalized name. -/
def score (var : Datum) (variableName : String) (token : Datum) (tokenName : String) :
    Outcome Float := do
  let byName := nameSimilarity variableName tokenName
  let base : Float := if 0.7 < byName then byName else 0.0
  let value ← var.get "value"
  let tokenValue ← token.get "value"
  match ← colorSimilarity value tokenValue with
  | some color =>
    return if 0.95 < color then
      better (better base (0.3 * byName + 0.7 * color)) (0.9 * color)
    else base
  | none =>
    match ← numericSimilarity value tokenValue with
    | some numeric =>
      return if 0.99 < numeric then
        better (better base (0.4 * byName + 0.6 * numeric)) (0.95 * numeric)
      else base
    | none => return base

/-- The best token so far and its score. -/
abbrev Best := Option Datum × Float

/-- Goes through tokens in order; the first one with the variable's name ends the search. -/
def search (var : Datum) (variableName : String) : Best → List Datum → Outcome Best
  | best, [] => .ok best
  | best, token :: rest => do
    let kind ← (← var.fieldOr "type" (.text "")).textOrEmpty
    let tokenKind ← (← token.fieldOr "type" (.text "")).textOrEmpty
    if !areCompatible kind tokenKind then search var variableName best rest
    else
      let tokenName := normalized (← (← token.fieldOr "name" (.text "")).textOrEmpty)
      if tokenName != "" && tokenName == variableName then return (some token, 1.0)
      let s ← score var variableName token tokenName
      search var variableName (if best.2 < s then (some token, s) else best) rest

/-- Tokens in the order of their names, equal names in the order given. -/
def byNames (tokens : List Datum) : Outcome (List Datum) := do
  let named ← tokens.mapM fun t => return ((← t.fieldOr "name" (.text "")).shown, t)
  return (named.mergeSort fun a b => a.1 ≤ b.1).map (·.2)

/-- What a match says about its token. -/
def matchedToken (token : Datum) : Outcome Datum := do
  let name ← token.fieldOr "name" (.text "")
  return .record
    [("name", name), ("value", ← token.fieldOr "value" (.text "")),
     ("type", ← token.fieldOr "type" (.text "")), ("cssVar", .text (cssVar (← name.textOrEmpty)))]

/-- The match of a variable among the tokens of a project. -/
def matchVariable (var : Datum) (tokens : Outcome (List Datum)) : Outcome Datum := do
  let name ← var.fieldOr "name" (.text "")
  let variableName := normalized (← name.textOrEmpty)
  let (best, confidence) ← search var variableName (none, 0.0) (← byNames (← tokens))
  let matched ← best.mapM matchedToken
  return .record
    [("figmaVarName", name), ("figmaVarId", ← var.fieldOr "id" (.text "")),
     ("matchedToken", matched.getD .null),
     ("confidence", .float (Decimal.roundTo 4 confidence))]

/-! ## Variables to be matched -/

/-- A variable's default value as it is compared with tokens. -/
def comparable (value : Datum) (type : String) : Outcome String := do
  if isAlias value then return ""
  if Color.isRecord value then return ← Color.hexOrRgba value
  if value.isNumber && type == "float" then return (← tokenValue value).shown ++ "px"
  return if value.isNull then "" else value.shown

/-- A variable in its default mode, if it has any mode. -/
def matchable? (vars : Variables) (collections : Collections) (maxDepth id var : Datum) :
    Run (Option Datum) := do
  let collection ← collectionOf collections var
  let preferred ← collection.fieldOr "defaultModeId" (.text "")
  let mode ← modeFor var preferred collections
  if mode.isNull then return none
  let result ← resolve vars collections maxDepth id mode
  let type := Text.lower (← var.fieldOr "resolvedType" (.text "")).shown
  let value ← comparable result.value type
  return some (.record
    [("id", id), ("name", (← var.get "name").orElse id), ("value", .text value),
     ("type", .text type)])

/-- The variables of a table in their default modes; a variable without modes is left out. -/
def matchable (vars : Variables) (collections : Collections) (maxDepth : Datum) :
    Run (List Datum) :=
  return (← vars.mapM fun (id, v) => matchable? vars collections maxDepth id v).filterMap id

end Maquette.Token
