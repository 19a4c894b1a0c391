/-
Letter case and character classes over all of Unicode: predicates on single characters, and the
full mappings to small and capital letters. A capital sigma that ends a word becomes the final
sigma; every other character is mapped on its own.
-/
import Maquette.Text.CaseMap
import Maquette.Text.Cased
import Maquette.Text.Letters
import Maquette.Text.WordMark

namespace Maquette.Text

/-! ## Classes -/

/-- A letter of any script. -/
def isLetter (c : Char) : Bool := letterRanges.has c.toNat

/-- A letter, a digit or any other character with a numeric value. -/
def isAlphanumeric (c : Char) : Bool := alphanumericRanges.has c.toNat

/-- A character with a digit value, superscripts included. -/
def isDigit (c : Char) : Bool := digitRanges.has c.toNat

def isCapital (c : Char) : Bool := upperRanges.has c.toNat

def isSmall (c : Char) : Bool := lowerRanges.has c.toNat

/-- A ligature that stands for a capital and a small letter. -/
def isTitle (c : Char) : Bool :=
  let n := c.toNat
  n == 0x1c5 || n == 0x1c8 || n == 0x1cb || n == 0x1f2 || (0x1f88 ≤ n && n ≤ 0x1f8f) ||
    (0x1f98 ≤ n && n ≤ 0x1f9f) || (0x1fa8 ≤ n && n ≤ 0x1faf) || n == 0x1fbc || n == 0x1fcc ||
    n == 0x1ffc

/-- Capitals among characters without case, and at least one of them. -/
def isCapitals (cs : List Char) : Bool :=
  cs.any isCapital && !cs.any fun c => isSmall c || isTitle c

/-- Small letters among characters without case, and at least one of them. -/
def isSmalls (cs : List Char) : Bool :=
  cs.any isSmall && !cs.any fun c => isCapital c || isTitle c

/-- A character that continues a word. -/
def isWordMark (c : Char) : Bool := wordRanges.has c.toNat

/-- The zeros of the decimal digit blocks of Unicode 14; each is followed by the other nine digits. -/
def decimalZeros : List Nat :=
  [48, 1632, 1776, 1984, 2406, 2534, 2662, 2790, 2918, 3046, 3174, 3302, 3430, 3558, 3664, 3792,
   3872, 4160, 4240, 6112, 6160, 6470, 6608, 6784, 6800, 6992, 7088, 7232, 7248, 42528, 43216,
   43264, 43472, 43504, 43600, 44016, 65296, 66720, 68912, 69734, 69872, 69942, 70096, 70384,
   70736, 70864, 71248, 71360, 71472, 71904, 72016, 72784, 73040, 73120, 92768, 92864, 93008,
   120782, 120792, 120802, 120812, 120822, 123200, 123632, 125264, 130032]

/-- The value of a decimal digit of any script. -/
def decimalDigit? (c : Char) : Option Nat :=
  (decimalZeros.find? fun z => z ≤ c.toNat && c.toNat < z + 10).map (c.toNat - ·)

/-- White space: the separators and the control characters that part words or lines. -/
def isBlank (c : Char) : Bool :=
  let n := c.toNat
  (9 ≤ n && n ≤ 13) || (28 ≤ n && n ≤ 32) || n == 0x85 || n == 0xa0 || n == 0x1680 ||
    (0x2000 ≤ n && n ≤ 0x200a) || n == 0x2028 || n == 0x2029 || n == 0x202f || n == 0x205f ||
    n == 0x3000

/-! ## Mappings -/

/-- The image of a code point under the first run that holds it. -/
def CaseRun.apply? : List CaseRun → Nat → Option Nat
  | [], _ => none
  | run :: rest, n =>
    if n < run.first then none
    else if n ≤ run.last && (n - run.first) % run.step == 0 then some ((n : Int) + run.shift).toNat
    else CaseRun.apply? rest n

/-- One character under runs and expansions; it stays when neither holds it. -/
def mapCase (runs : List CaseRun) (expansions : List (Nat × List Nat)) (c : Char) : List Char :=
  match CaseRun.apply? runs c.toNat with
  | some n => [Char.ofNat n]
  | none =>
    match expansions.lookup c.toNat with
    | some ns => ns.map Char.ofNat
    | none => [c]

/-- One character in small letters. -/
def smallChar (c : Char) : List Char := mapCase smallRuns smallExpansions c

/-- One character in capitals. -/
def capitalChar (c : Char) : List Char := mapCase capitalRuns capitalExpansions c

/-- Whether the nearest character that is not passed over is cased. -/
def meetsCased : List Char → Bool
  | [] => false
  | c :: rest =>
    if caseIgnorableRanges.has c.toNat then meetsCased rest else casedRanges.has c.toNat

/-- Small letters of the rest of a text; `before` is what precedes it, nearest first. -/
def smallFrom (before : List Char) : List Char → List Char
  | [] => []
  | c :: rest =>
    (if c == 'Σ' then
      [if meetsCased before && !meetsCased rest then 'ς' else 'σ']
    else smallChar c) ++ smallFrom (c :: before) rest

/-- A text in small letters. -/
def lower (s : String) : String := String.ofList (smallFrom [] s.toList)

/-- A text in capitals. -/
def upper (s : String) : String := String.ofList (s.toList.flatMap capitalChar)

end Maquette.Text
