/-
Data written as JSON. Only the quote, the backslash and control characters are escaped; everything
else is written as it is. Written over several lines, each level is indented by two blanks.
-/
import Maquette.Datum.Display

namespace Maquette

/-! ## Texts -/

/-- One character of a JSON string. -/
def jsonChar (c : Char) : List Char :=
  if c = '"' then ['\\', '"']
  else if c = '\\' then ['\\', '\\']
  else if c = '\n' then ['\\', 'n']
  else if c = '\r' then ['\\', 'r']
  else if c = '\t' then ['\\', 't']
  else if c = '\x08' then ['\\', 'b']
  else if c = '\x0c' then ['\\', 'f']
  else if c.toNat < 32 then ("\\u" ++ hex 4 c.toNat).toList
  else [c]

/-- A text as a JSON string. -/
def jsonText (s : String) : String :=
  String.ofList ('"' :: s.toList.flatMap jsonChar ++ ['"'])

/-! ## Values -/

namespace Datum

/-- A double as a JSON number, or the name of one that is not finite. -/
def jsonFloat (x : Float) : String :=
  match Decimal.decode x with
  | .nan => "NaN"
  | .infinite neg => Decimal.signed neg "Infinity"
  | .finite .. => Decimal.shown x

/-- A bracketed block of items, each on its own line; a bare pair of brackets when there is none. -/
def jsonBlock (opening closing : String) (level : Nat) (items : List String) : String :=
  if items.isEmpty then opening ++ closing
  else
    let pad := "\n" ++ Text.times (level + 1) "  "
    opening ++ pad ++ ("," ++ pad).intercalate items ++ "\n" ++ Text.times level "  " ++ closing

mutual

/-- A value over several lines, as it stands at an indentation level. -/
def jsonAt (level : Nat) : Datum → String
  | .null => "null"
  | .bool b => if b then "true" else "false"
  | .int n => toString n
  | .float x => jsonFloat x
  | .text s => jsonText s
  | .list items => jsonBlock "[" "]" level (jsonItems (level + 1) items)
  | .record fields => jsonBlock "\x7b" "\x7d" level (jsonFields (level + 1) fields)

def jsonItems (level : Nat) : List Datum → List String
  | [] => []
  | x :: rest => jsonAt level x :: jsonItems level rest

def jsonFields (level : Nat) : List (String × Datum) → List String
  | [] => []
  | (k, v) :: rest => (jsonText k ++ ": " ++ jsonAt level v) :: jsonFields level rest

end

/-- A document over several lines. -/
def json (d : Datum) : String := d.jsonAt 0

mutual

/-- A value on one line. -/
def jsonLine : Datum → String
  | .null => "null"
  | .bool b => if b then "true" else "false"
  | .int n => toString n
  | .float x => jsonFloat x
  | .text s => jsonText s
  | .list items => "[" ++ ", ".intercalate (jsonLineItems items) ++ "]"
  | .record fields => "\x7b" ++ ", ".intercalate (jsonLineFields fields) ++ "\x7d"

def jsonLineItems : List Datum → List String
  | [] => []
  | x :: rest => jsonLine x :: jsonLineItems rest

def jsonLineFields : List (String × Datum) → List String
  | [] => []
  | (k, v) :: rest => (jsonText k ++ ": " ++ jsonLine v) :: jsonLineFields rest

end

end Datum

end Maquette
