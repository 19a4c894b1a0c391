/-
The text of a value in running text: a text as it is, everything else as it is quoted inside lists
and records.
-/
import Maquette.Datum.Basic
import Maquette.Decimal.Shortest
import Maquette.Text.Basic
import Maquette.Text.Hidden

namespace Maquette

/-! ## Quoted text -/

/-- The last `width` hexadecimal digits of a number. -/
def hex (width n : Nat) : String :=
  let ds := Nat.toDigits 16 n
  String.ofList (List.replicate (width - ds.length) '0' ++ ds)

/-- A character between the given quotes; what cannot be seen is spelled out by its number. -/
def quotedChar (quote c : Char) : List Char :=
  if c = quote ∨ c = '\\' then ['\\', c]
  else if c = '\n' then ['\\', 'n']
  else if c = '\r' then ['\\', 'r']
  else if c = '\t' then ['\\', 't']
  else if Text.hiddenRanges.has c.toNat then
    let n := c.toNat
    (if n < 256 then "\\x" ++ hex 2 n else if n < 65536 then "\\u" ++ hex 4 n
      else "\\U" ++ hex 8 n).toList
  else [c]

/-- A text in single quotes, or in double quotes when it holds single quotes only. -/
def quoteText (s : String) : String :=
  let cs := s.toList
  let quote := if cs.contains '\'' && !cs.contains '"' then '"' else '\''
  String.ofList ([quote] ++ cs.flatMap (quotedChar quote) ++ [quote])

/-! ## Values -/

namespace Datum

/-- The text of a value that holds no others. -/
def scalarText : Datum → String
  | .null => "None"
  | .bool b => if b then "True" else "False"
  | .int n => toString n
  | .float x => Decimal.shown x
  | .text s => quoteText s
  | _ => ""

mutual

/-- A value as it stands inside a list. -/
def quoted : Datum → String
  | .list items => "[" ++ ", ".intercalate (quotedItems items) ++ "]"
  | .record fields => "\x7b" ++ ", ".intercalate (quotedFields fields) ++ "\x7d"
  | d => d.scalarText

def quotedItems : List Datum → List String
  | [] => []
  | x :: rest => quoted x :: quotedItems rest

def quotedFields : List (String × Datum) → List String
  | [] => []
  | (k, v) :: rest => (quoteText k ++ ": " ++ quoted v) :: quotedFields rest

end

/-- A value in running text. -/
def shown : Datum → String
  | .text s => s
  | d => d.quoted

end Datum

end Maquette
