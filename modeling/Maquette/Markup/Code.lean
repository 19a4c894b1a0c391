/-
Generated code as pieces, in which the names that it uses and the names that it binds stand out from
the words around them. A line of code is its pieces at an indentation level.
-/
import Maquette.Script

namespace Maquette.Markup

/-! ## Pieces -/

/-- A piece of code. -/
inductive Piece where
  /-- Words and marks of the language. -/
  | raw (s : String)
  /-- A name that is used. -/
  | ref (name : String)
  /-- A name that is bound. -/
  | bind (name : String)
  /-- A text as a literal in single quotes. -/
  | literal (s : String)
  /-- A text as a literal in double quotes. -/
  | quoted (s : String)
  deriving DecidableEq, Repr

def Piece.text : Piece → String
  | raw s => s
  | ref name => name
  | bind name => name
  | literal s => Script.literal s
  | quoted s => jsonText s

/-- A value as a literal: truth values and numbers bare, everything else as its text in quotes. -/
def Piece.ofDatum (d : Datum) : Outcome Piece :=
  match d with
  | .bool b => .ok (raw (if b then "true" else "false"))
  | .int n => return raw (← (Number.int n).plain)
  | .float x => return raw (← (Number.float x).plain)
  | d => .ok (literal d.shown)

/-! ## Code -/

/-- Pieces one after the other. -/
abbrev Code := List Piece

namespace Code

def text (c : Code) : String := String.join (c.map Piece.text)

/-- The names that code uses. -/
def refs (c : Code) : List String :=
  c.filterMap fun
    | .ref name => some name
    | _ => none

/-- The names that code binds. -/
def binds (c : Code) : List String :=
  c.filterMap fun
    | .bind name => some name
    | _ => none

def braced (c : Code) : Code := [.raw "\x7b"] ++ c ++ [.raw "\x7d"]

/-- Several codes with a mark between each two. -/
def between (mark : String) : List Code → Code
  | [] => []
  | [c] => c
  | c :: rest => c ++ [.raw mark] ++ between mark rest

/-- A style object with its values as literals. -/
def style (fields : List (String × Datum)) : Outcome Code := do
  let items ← fields.mapM fun (k, v) => do return [.raw (k ++ ": "), ← Piece.ofDatum v]
  return if items.isEmpty then [.raw "\x7b\x7d"]
    else [.raw "\x7b "] ++ between ", " items ++ [.raw " \x7d"]

end Code

/-! ## Lines -/

/-- A line of code. -/
structure Line where
  level : Int
  code : Code

namespace Line

/-- A line of plain words. -/
def words (level : Int) (s : String) : Line := ⟨level, [.raw s]⟩

/-- A line with nothing on it. -/
def blank : Line := ⟨0, []⟩

def text (l : Line) : String := Script.indent l.level ++ l.code.text

/-- The names that lines use. -/
def refs (ls : List Line) : List String := ls.flatMap (·.code.refs)

/-- The names that lines bind. -/
def binds (ls : List Line) : List String := ls.flatMap (·.code.binds)

/-- Lines under each other. -/
def block (ls : List Line) : String := Text.lines (ls.map text)

end Line

end Maquette.Markup
