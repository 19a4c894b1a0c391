/-
JSON read into data. Reading stops at the first character that cannot continue a document and says
what was expected there and where: line, column and offset. Besides the standard's numbers the names
`NaN`, `Infinity` and `-Infinity` are read; control characters in strings are refused.
-/
import Maquette.Datum.Basic
import Maquette.Decimal.Reading

namespace Maquette

/-! ## What can be wrong -/

/-- What was wrong with a text that should be a document. -/
inductive ReadProblem where
  | valueExpected
  | nameExpected
  | colonExpected
  | commaExpected
  | extraData
  | unterminatedString
  | controlCharacter
  | badEscape
  | badUnicodeEscape
  | byteOrderMark
  /-- An integer is spelled with more digits than are read. -/
  | longInteger (digits : Nat)
  deriving DecidableEq, Repr

def ReadProblem.message : ReadProblem → String
  | valueExpected => "Expecting value"
  | nameExpected => "Expecting property name enclosed in double quotes"
  | colonExpected => "Expecting ':' delimiter"
  | commaExpected => "Expecting ',' delimiter"
  | extraData => "Extra data"
  | unterminatedString => "Unterminated string starting at"
  | controlCharacter => "Invalid control character at"
  | badEscape => "Invalid \\escape"
  | badUnicodeEscape => "Invalid \\uXXXX escape"
  | byteOrderMark => "Unexpected UTF-8 BOM (decode using utf-8-sig)"
  | longInteger digits => Decimal.longText digits

/-- A problem and its place in the text, lines and columns counted from one. -/
structure ReadError where
  problem : ReadProblem
  line : Nat
  column : Nat
  offset : Nat
  deriving DecidableEq, Repr

def ReadError.message (e : ReadError) : String :=
  s!"{e.problem.message}: line {e.line} column {e.column} (char {e.offset})"

/-- The place reached after the given characters. -/
def ReadError.after (problem : ReadProblem) (before : List Char) : ReadError :=
  ⟨problem, before.count '\n' + 1, (before.reverse.takeWhile (· != '\n')).length + 1,
    before.length⟩

namespace Datum

/-- A step of the reader: a result, or a problem and how much was left then. -/
abbrev Step := Except (ReadProblem × Nat)

def skipBlank (cs : List Char) : List Char :=
  cs.dropWhile fun c => c = ' ' || c = '\t' || c = '\n' || c = '\r'

/-! ## Strings -/

def hexUnit? (a b c d : Char) : Option Nat := do
  return (((← Text.hexDigit? a) * 16 + (← Text.hexDigit? b)) * 16 + (← Text.hexDigit? c)) * 16 + (← Text.hexDigit? d)

/-- The character of a short escape. -/
def shortEscape? (c : Char) : Option Char :=
  [('"', '"'), ('\\', '\\'), ('/', '/'), ('b', '\x08'), ('f', '\x0c'), ('n', '\n'), ('r', '\r'),
   ('t', '\t')].lookup c

/-- A code point; half of a surrogate pair on its own is replaced. -/
def charOf (n : Nat) : Char := if 0xd800 ≤ n ∧ n ≤ 0xdfff then '\ufffd' else Char.ofNat n

def isHigh (n : Nat) : Bool := 0xd800 ≤ n && n ≤ 0xdbff

def isLow (n : Nat) : Bool := 0xdc00 ≤ n && n ≤ 0xdfff

/-- The rest of a string after its opening quote; `opened` is how much was left at that quote. -/
def stringRest (opened : Nat) (acc : List Char) : List Char → Step (String × List Char)
  | [] => .error (.unterminatedString, opened)
  | '"' :: rest => .ok (String.ofList acc.reverse, rest)
  | ['\\'] => .error (.unterminatedString, opened)
  | '\\' :: 'u' :: a :: b :: c :: d :: '\\' :: 'u' :: e :: f :: g :: h :: more :: rest =>
    match hexUnit? a b c d with
    | none => .error (.badUnicodeEscape, rest.length + 12)
    | some high =>
      if isHigh high then
        match hexUnit? e f g h with
        | none => .error (.badUnicodeEscape, rest.length + 6)
        | some low =>
          if isLow low then
            stringRest opened
              (Char.ofNat (0x10000 + (high - 0xd800) * 0x400 + (low - 0xdc00)) :: acc)
              (more :: rest)
          else
            stringRest opened (charOf high :: acc) ('\\' :: 'u' :: e :: f :: g :: h :: more :: rest)
      else stringRest opened (charOf high :: acc) ('\\' :: 'u' :: e :: f :: g :: h :: more :: rest)
  | '\\' :: 'u' :: a :: b :: c :: d :: next :: rest =>
    match hexUnit? a b c d with
    | none => .error (.badUnicodeEscape, rest.length + 6)
    | some unit => stringRest opened (charOf unit :: acc) (next :: rest)
  | '\\' :: 'u' :: rest => .error (.badUnicodeEscape, rest.length + 1)
  | '\\' :: c :: rest =>
    match shortEscape? c with
    | some e => stringRest opened (e :: acc) rest
    | none => .error (.badEscape, rest.length + 2)
  | c :: rest =>
    if c.toNat < 32 then .error (.controlCharacter, rest.length + 1)
    else stringRest opened (c :: acc) rest
termination_by cs => cs.length

/-! ## Numbers -/

/-- The digits of a fraction after its point, when there is at least one. -/
def fractionDigits (cs : List Char) : Option (List Char × List Char) :=
  match cs with
  | '.' :: rest =>
    let ds := rest.takeWhile Decimal.isAsciiDigit
    if ds.isEmpty then none else some (ds, rest.dropWhile Decimal.isAsciiDigit)
  | _ => none

/-- An exponent, when there is a mark with at least one digit. -/
def exponentDigits (cs : List Char) : Option (Int × List Char) :=
  match cs with
  | mark :: rest =>
    if mark = 'e' ∨ mark = 'E' then
      let (neg, digits) := Decimal.sign rest
      let ds := digits.takeWhile Decimal.isAsciiDigit
      if ds.isEmpty then none
      else
        let n : Int := Decimal.natOf ds
        some (if neg then -n else n, digits.dropWhile Decimal.isAsciiDigit)
    else none
  | [] => none

/-- An integer of the given digits, unless there are too many of them. -/
def integerOf (neg : Bool) (ds : List Char) : Except ReadProblem Datum :=
  if Decimal.maxDigits < ds.length then .error (.longInteger ds.length)
  else
    let n : Int := Decimal.natOf ds
    .ok (.int (if neg then -n else n))

/-- A number; without fraction and exponent it is an integer. -/
def numeral? (cs : List Char) : Option (Except ReadProblem Datum × List Char) :=
  let (neg, body) := match cs with
    | '-' :: rest => (true, rest)
    | _ => (false, cs)
  let whole := match body with
    | '0' :: rest => some (['0'], rest)
    | _ =>
      let ds := body.takeWhile Decimal.isAsciiDigit
      if ds.isEmpty then none else some (ds, body.dropWhile Decimal.isAsciiDigit)
  whole.map fun (ds, rest) =>
    let fraction := fractionDigits rest
    let rest := (fraction.map (·.2)).getD rest
    let exponent := exponentDigits rest
    let rest := (exponent.map (·.2)).getD rest
    match fraction, exponent with
    | none, none => (integerOf neg ds, rest)
    | _, _ =>
      let frac := (fraction.map (·.1)).getD []
      let e := (exponent.map (·.1)).getD 0
      (.ok (.float (Decimal.Numeral.toFloat ⟨neg, ds ++ frac, e - frac.length⟩)), rest)

/-- The named values and what they stand for. -/
def namedValues : List (String × Datum) :=
  [("null", .null), ("true", .bool true), ("false", .bool false),
   ("NaN", .float (Decimal.ofBits false Decimal.nanBits)),
   ("Infinity", .float (Decimal.ofBits false Decimal.infinityBits)),
   ("-Infinity", .float (Decimal.ofBits true Decimal.infinityBits))]

/-- A named value at the start of the text. -/
def namedValue? (cs : List Char) : Option (Datum × List Char) :=
  namedValues.findSome? fun (name, d) => (Text.dropPrefix? name.toList cs).map (d, ·)

/-! ## Documents -/

mutual

/-- One value. Every call takes at least one character, so the length of the text bounds them. -/
def readValue : Nat → List Char → Step (Datum × List Char)
  | 0, cs => .error (.valueExpected, cs.length)
  | fuel + 1, cs =>
    match cs with
    | '"' :: rest => (stringRest cs.length [] rest).map fun (s, r) => (.text s, r)
    | '[' :: rest =>
      match skipBlank rest with
      | ']' :: r => .ok (.list [], r)
      | r => readItems fuel [] r
    | '\x7b' :: rest =>
      match skipBlank rest with
      | '\x7d' :: r => .ok (.record [], r)
      | r => readFields fuel [] r
    | _ =>
      match namedValue? cs with
      | some hit => .ok hit
      | none =>
        match numeral? cs with
        | some (.ok d, rest) => .ok (d, rest)
        | some (.error problem, _) => .error (problem, cs.length)
        | none => .error (.valueExpected, cs.length)

/-- The items of a list up to its bracket. -/
def readItems : Nat → List Datum → List Char → Step (Datum × List Char)
  | 0, _, cs => .error (.valueExpected, cs.length)
  | fuel + 1, acc, cs => do
    let (d, r) ← readValue fuel cs
    match skipBlank r with
    | ']' :: r => .ok (.list (d :: acc).reverse, r)
    | ',' :: r => readItems fuel (d :: acc) (skipBlank r)
    | r => .error (.commaExpected, r.length)

/-- The fields of a record up to its brace. -/
def readFields : Nat → List (String × Datum) → List Char → Step (Datum × List Char)
  | 0, _, cs => .error (.valueExpected, cs.length)
  | fuel + 1, acc, cs =>
    match cs with
    | '"' :: rest => do
      let (key, r) ← stringRest cs.length [] rest
      match skipBlank r with
      | ':' :: r => do
        let (d, r) ← readValue fuel (skipBlank r)
        match skipBlank r with
        | '\x7d' :: r => .ok (.record (Table.ofRows ((key, d) :: acc).reverse), r)
        | ',' :: r => readFields fuel ((key, d) :: acc) (skipBlank r)
        | r => .error (.commaExpected, r.length)
      | r => .error (.colonExpected, r.length)
    | _ => .error (.nameExpected, cs.length)

end

/-- A whole text as one document. -/
def read (s : String) : Except ReadError Datum :=
  let cs := s.toList
  let wrong (problem : ReadProblem) (left : Nat) : ReadError :=
    .after problem (cs.take (cs.length - left))
  match cs with
  | '\ufeff' :: _ => .error (wrong .byteOrderMark cs.length)
  | _ =>
    match readValue (2 * cs.length + 2) (skipBlank cs) with
    | .error (problem, left) => .error (wrong problem left)
    | .ok (d, rest) =>
      match skipBlank rest with
      | [] => .ok d
      | r => .error (wrong .extraData r.length)

end Datum

end Maquette
