/-
Help texts: how a command line is used, on lines of limited length, and what its operands and flags
mean, in two columns.
-/
import Maquette.CommandLine.Grammar

namespace Maquette.CommandLine

/-- What the help of a command says besides its flags. -/
structure Manual where
  program : String
  description : List String := []
  /-- The operands as the usage shows them. -/
  usage : List String
  /-- The operands and what they mean, how far each is indented. -/
  operands : List (Nat × String × String)
  closing : List String := []

/-- The greatest length of a line. -/
def width : Nat := 78

/-- The greatest column that explanations begin in. -/
def greatestColumn : Nat := 24

/-! ## Usage -/

/-- A flag as the usage shows it. -/
def Flag.usage (f : Flag) : String :=
  "[" ++ f.names.headD "" ++ (f.placeholder.map (" " ++ ·)).getD "" ++ "]"

/-- Fills lines with parts: a part that does not fit begins a new line. `used` is how much of the
current line is taken, `line` its parts, the last one first. -/
def fill (indent : Nat) (used : Nat) (line : List String) : List String → List (List String)
  | [] => if line.isEmpty then [] else [line.reverse]
  | part :: rest =>
    if width < used + 1 + part.length && !line.isEmpty then
      line.reverse :: fill indent (indent + part.length) [part] rest
    else fill indent (used + 1 + part.length) (part :: line) rest

def blanks (n : Nat) : String := Text.times n " "

/-- The usage of a command: on one line if it fits, else flags and operands apart. -/
def usageText (flags operands : List String) (program : String) : String :=
  let lead := "usage: "
  let whole := lead ++ " ".intercalate (program :: flags ++ operands)
  if whole.length ≤ width then whole
  else
    let indent := lead.length + program.length + 1
    let first := fill indent (lead.length - 1) [] (program :: flags)
    let second := fill indent (indent - 1) [] operands
    let lines := (first ++ second).map (" ".intercalate ·)
    lead ++ ("\n" ++ blanks indent).intercalate lines

/-! ## Columns -/

/-- A flag as the list of flags shows it. -/
def Flag.label (f : Flag) : String :=
  ", ".intercalate (f.names.map fun name => name ++ (f.placeholder.map (" " ++ ·)).getD "")

/-- A label and its explanation, which begins in the given column. -/
def entry (column indent : Nat) (label note : String) : List String :=
  let head := blanks indent ++ label
  if note.isEmpty then [head]
  else if head.length + 2 ≤ column then [head ++ blanks (column - head.length) ++ note]
  else [head, blanks column ++ note]

/-- The column that explanations begin in: behind the longest label, but not too far right. -/
def columnOf (labels : List String) : Nat :=
  min (labels.foldl (fun longest l => max longest l.length) 0 + 4) greatestColumn

/-- The help of a command. -/
def help (g : Grammar) (m : Manual) : String :=
  let column := columnOf (m.operands.map (·.2.1) ++ g.flags.map Flag.label)
  let operands := m.operands.flatMap fun (indent, label, note) => entry column indent label note
  let flags := g.flags.flatMap fun f => entry column 2 f.label f.note
  let chapters :=
    [[usageText (g.flags.map Flag.usage) m.usage m.program], m.description,
     "positional arguments:" :: operands, "options:" :: flags, m.closing]
  "\n\n".intercalate ((chapters.filter (!·.isEmpty)).map Text.lines)

end Maquette.CommandLine
