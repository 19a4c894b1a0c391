/-
Percent coding: a byte that may not stand in an address is written as a percent sign and two
hexadecimal digits.
-/
import Maquette.Text.Basic
import Maquette.Text.Utf8

namespace Maquette.Percent

def isAscii (c : Char) : Bool := c.toNat < 128

/-- Letters, digits and the four marks that never need to be coded. -/
def isUnreserved (c : Char) : Bool :=
  isAscii c && (c.isAlphanum || c = '-' || c = '.' || c = '_' || c = '~')

/-! ## Writing -/

/-- One byte in code. -/
def escape (b : Nat) : List Char :=
  '%' :: ((Nat.toDigits 16 (b / 16 % 16)) ++ Nat.toDigits 16 (b % 16)).map Char.toUpper

/-- Codes all characters but the allowed ones. -/
def encode (allowed : Char → Bool) (cs : List Char) : List Char :=
  cs.flatMap fun c => if isAscii c && allowed c then [c] else (Utf8.encode [c]).flatMap escape

/-- The value of a form's field: a blank is a plus sign. -/
def encodeForm (s : String) : String :=
  let coded := encode (fun c => isUnreserved c || c = ' ') s.toList
  String.ofList (coded.map fun c => if c = ' ' then '+' else c)

/-! ## Reading -/

/-- The bytes of ASCII characters, codes read. -/
def bytes : List Char → List Nat
  | '%' :: a :: b :: rest =>
    match Text.hexDigit? a, Text.hexDigit? b with
    | some x, some y => (x * 16 + y) :: bytes rest
    | _, _ => '%'.toNat :: bytes (a :: b :: rest)
  | c :: rest => c.toNat :: bytes rest
  | [] => []
termination_by cs => cs.length

/-- Reads the codes within each run of ASCII characters; `run` is the current one, last first. -/
def decodeRuns : List Char → List Char → List Char
  | run, [] => Utf8.decode (bytes run.reverse)
  | run, c :: rest =>
    if isAscii c then decodeRuns (c :: run) rest
    else Utf8.decode (bytes run.reverse) ++ c :: decodeRuns [] rest

/-- The field of a form: a plus sign is a blank. -/
def decodeForm (cs : List Char) : String :=
  String.ofList (decodeRuns [] (cs.map fun c => if c = '+' then ' ' else c))

/-! ## Normal form -/

/-- The codes of a text in capital digits, and whether every percent sign begins one. -/
def normalCodes : List Char → List Char × Bool
  | '%' :: a :: b :: rest =>
    if (Text.hexDigit? a).isSome && (Text.hexDigit? b).isSome then
      let (cs, all) := normalCodes rest
      ('%' :: a.toUpper :: b.toUpper :: cs, all)
    else ('%' :: (normalCodes (a :: b :: rest)).1, false)
  | c :: rest =>
    let (cs, all) := normalCodes rest
    (c :: cs, all && c ≠ '%')
  | [] => ([], true)
termination_by cs => cs.length

/-- Codes what is not allowed; codes that are there are kept if no other percent sign is. -/
def encodeInvalid (allowed : Char → Bool) (cs : List Char) : List Char :=
  let (cs, all) := normalCodes cs
  encode (fun c => allowed c || (all && c = '%')) cs

/-- Reads the codes of characters that never need to be coded. -/
def plain : List Char → List Char
  | '%' :: a :: b :: rest =>
    match Text.hexDigit? a, Text.hexDigit? b with
    | some x, some y =>
      let c := Char.ofNat (x * 16 + y)
      if isUnreserved c then c :: plain rest else '%' :: a :: b :: plain rest
    | _, _ => '%' :: plain (a :: b :: rest)
  | c :: rest => c :: plain rest
  | [] => []
termination_by cs => cs.length

end Maquette.Percent
