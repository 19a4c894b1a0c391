/-
Texts inside generated code: literals, entities and comments, each escaped for the place where it
stands, and numbers as code writes them.
-/
import Maquette.Datum.Access
import Maquette.Datum.Writer

namespace Maquette.Script

/-- The blanks in front of a line; a level below zero has none. -/
def indent (level : Int) : String := Text.times level.toNat "  "

/-! ## Literals -/

/-- One character inside single quotes. -/
def literalChar (c : Char) : List Char :=
  if c = '\\' then ['\\', '\\']
  else if c = '\'' then ['\\', '\'']
  else if c = '\n' then ['\\', 'n']
  else if c = '\r' then ['\\', 'r']
  else [c]

/-- A text as a single-quoted literal. -/
def literal (s : String) : String :=
  String.ofList ('\'' :: s.toList.flatMap literalChar ++ ['\''])

/-! ## Entities -/

/-- One character of vector markup. -/
def entity (c : Char) : List Char :=
  if c = '&' then "&amp;".toList
  else if c = '<' then "&lt;".toList
  else if c = '>' then "&gt;".toList
  else if c = '"' then "&quot;".toList
  else if c = '\'' then "&#x27;".toList
  else [c]

/-- A text with the five special characters of markup as entities. -/
def escaped (s : String) : String := Text.substitute entity s

/-! ## Comments -/

/-- A text that cannot end the comment it stands in. -/
def spaced : List Char → List Char
  | '*' :: '/' :: rest => '*' :: ' ' :: '/' :: spaced rest
  | c :: rest => c :: spaced rest
  | [] => []

def harmless (s : String) : String := String.ofList (spaced s.toList)

/-- A documentation comment at an indentation level. -/
def docComment (level : Int) (s : String) : String :=
  indent level ++ "/** " ++ harmless s ++ " */"

end Maquette.Script

namespace Maquette.Datum

/-- A value as a number in code: a number, or a text that reads as one. -/
def plain (d : Datum) : Outcome String :=
  match d with
  | .text s =>
    match Decimal.looseDouble? s with
    | none => .error (.badNumber s)
    | some x =>
      if Decimal.isIntegral x then
        if Decimal.maxDigits < Decimal.digitsAhead s then .error (.longInteger (Decimal.digitsAhead s))
        else match Decimal.looseInt? s with
          | some n => .ok (toString n)
          | none => .error (.badInteger s)
      else .ok (Number.plainFloat x)
  | d => do (← d.number).plain

/-- A length in pixels, zero without a unit. -/
def pixels (d : Datum) : Outcome String :=
  if d.equals (.int 0) then .ok "0" else return (← d.plain) ++ "px"

end Maquette.Datum
