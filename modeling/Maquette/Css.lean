/-
Style sheet text: comments, rule blocks and the parts of class names.
-/
import Maquette.Script

namespace Maquette.Css

/-- A property and its value. -/
abbrev Declaration := String × String

def comment (s : String) : String := "/* " ++ Script.harmless s ++ " */"

/-- A rule: its selector, an optional comment, and a declaration per line. -/
def block (selector : String) (declarations : List Declaration) (note : Option String)
    (level : Int) : String :=
  let pad := Script.indent level
  let inner := pad ++ Script.indent 1
  Text.lines <|
    [pad ++ selector ++ " \x7b"] ++ (note.map fun s => inner ++ comment s).toList ++
    declarations.map (fun (property, value) => inner ++ property ++ ": " ++ value ++ ";") ++
    [pad ++ "\x7d"]

def isSegmentChar (c : Char) : Bool := ('a' ≤ c && c ≤ 'z') || ('0' ≤ c && c ≤ '9')

/-- A part of a class name: small letters and digits with single hyphens for everything else. -/
def segment (s : String) : String :=
  match Text.trim (· == '-') (Text.fuse (!isSegmentChar ·) '-' false (Text.lower s).toList) with
  | [] => "x"
  | out => String.ofList out

end Maquette.Css
