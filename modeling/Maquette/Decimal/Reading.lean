/-
Numbers read from text: decimal digits of any script, single underscores between digits, white
space around, and for doubles a fraction, an exponent and the names of the infinities and of NaN.
-/
import Maquette.Decimal.Binary
import Maquette.Text.Basic

namespace Maquette.Decimal

/-! ## Numerals -/

/-- The number `± digits · 10^power`, `digits` in decimal, leading zeros allowed. -/
structure Numeral where
  neg : Bool
  digits : List Char
  power : Int

/-- The value of ASCII digits. -/
def natOf (ds : List Char) : Nat := ds.foldl (fun n c => 10 * n + (c.toNat - 48)) 0

def isAsciiDigit (c : Char) : Bool := '0' ≤ c && c ≤ '9'

/-- The double nearest to a numeral. Powers far outside the range of doubles are not computed. -/
def Numeral.toFloat (n : Numeral) : Float :=
  let m := natOf n.digits
  let point : Int := (n.digits.dropWhile (· == '0')).length + n.power
  if m = 0 ∨ point < -400 then ofBits n.neg 0
  else if 400 < point then ofBits n.neg infinityBits
  else
    let (num, den) := scaled 10 m 1 n.power
    ofRatio n.neg num den

/-- Splits a sign off. -/
def sign : List Char → Bool × List Char
  | '-' :: rest => (true, rest)
  | '+' :: rest => (false, rest)
  | cs => (false, cs)

/-- An exponent that takes up the whole rest, or no rest at all. -/
def exponent? : List Char → Option Int
  | [] => some 0
  | c :: rest =>
    if c = 'e' ∨ c = 'E' then
      let (neg, ds) := sign rest
      if ds.isEmpty || !ds.all isAsciiDigit then none
      else some (if neg then -(natOf ds : Int) else natOf ds)
    else none

/-- Digits with an optional point and exponent, and nothing else. -/
def unsigned? (neg : Bool) (cs : List Char) : Option Numeral :=
  let whole := cs.takeWhile isAsciiDigit
  let (frac, rest) := match cs.dropWhile isAsciiDigit with
    | '.' :: r => (r.takeWhile isAsciiDigit, r.dropWhile isAsciiDigit)
    | r => ([], r)
  if whole.isEmpty && frac.isEmpty then none
  else (exponent? rest).map fun e => ⟨neg, whole ++ frac, e - frac.length⟩

/-- The words for infinity and NaN, in any case. -/
def named? (neg : Bool) (cs : List Char) : Option Float :=
  let word := String.ofList (cs.map Char.toLower)
  if word == "inf" || word == "infinity" then some (ofBits neg infinityBits)
  else if word == "nan" then some (ofBits neg nanBits)
  else none

/-- A signed decimal or a named value. -/
def double? (cs : List Char) : Option Float :=
  let (neg, rest) := sign cs
  match named? neg rest with
  | some x => some x
  | none => (unsigned? neg rest).map Numeral.toFloat

/-! ## Long integers -/

/-- The most digits that an integer may be spelled with. -/
def maxDigits : Nat := 4300

/-- What is said about an integer with too many digits. -/
def longText (digits : Nat) : String :=
  s!"Exceeds the limit ({maxDigits} digits) for integer string conversion: value has {digits} " ++
    "digits; use sys.set_int_max_str_digits() to increase the limit"

/-! ## Loose spelling -/

/-- Decimal digits of any script as ASCII digits. -/
def plainDigits (cs : List Char) : List Char :=
  cs.map fun c => match Text.decimalDigit? c with
    | some d => Char.ofNat (48 + d)
    | none => c

/-- White space that may surround a number: of ASCII the space and tab to carriage return, beyond it
every blank. -/
def isPadding (c : Char) : Bool :=
  if c.toNat < 128 then c = ' ' || (9 ≤ c.toNat && c.toNat ≤ 13) else Text.isBlank c

/-- The characters of a number without white space around them. -/
def trimmed (s : String) : List Char := Text.trim isPadding s.toList

/-- Drops underscores; each one must stand between two digits. -/
def dropUnderscores? (afterDigit : Bool) : List Char → Option (List Char)
  | [] => some []
  | '_' :: c :: rest =>
    if afterDigit && isAsciiDigit c then (dropUnderscores? true rest).map (c :: ·) else none
  | '_' :: [] => none
  | c :: rest => (dropUnderscores? (isAsciiDigit c) rest).map (c :: ·)

/-- A double in loose spelling. -/
def looseDouble? (s : String) : Option Float :=
  (dropUnderscores? false (plainDigits (trimmed s))).bind double?

/-- How many digits stand at the front of a number in loose spelling. -/
def digitsAhead (s : String) : Nat :=
  ((sign (plainDigits (trimmed s))).2.takeWhile fun c => isAsciiDigit c || c = '_').countP
    isAsciiDigit

/-- An integer in loose spelling. -/
def looseInt? (s : String) : Option Int :=
  (dropUnderscores? false (plainDigits (trimmed s))).bind fun cs =>
    let (neg, ds) := sign cs
    if ds.isEmpty || !ds.all isAsciiDigit then none
    else some (if neg then -(natOf ds : Int) else natOf ds)

end Maquette.Decimal
