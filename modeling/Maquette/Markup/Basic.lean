/-
Markup as a tree: elements with attributes and children, texts, and expressions between them. The
tree becomes lines of code in one place, and nowhere else is markup put together from texts.
-/
import Maquette.Markup.Code

namespace Maquette

namespace Markup

/-! ## Tags and attributes -/

/-- The name of an element; it may be a part of a name that is imported. -/
structure Tag where
  space : Option String
  name : String

namespace Tag

def plain (name : String) : Tag := ⟨none, name⟩

def code (t : Tag) : Code :=
  match t.space with
  | none => [.raw t.name]
  | some space => [.ref space, .raw ("." ++ t.name)]

end Tag

/-- An attribute of an element. -/
inductive Attribute where
  | text (name value : String)
  /-- An attribute without a value. -/
  | flag (name : String)
  | code (name : String) (value : Code)

namespace Attribute

def name : Attribute → String
  | text name _ => name
  | flag name => name
  | code name _ => name

/-- Whether a text cannot stand between double quotes. -/
def needsLiteral (s : String) : Bool := s.toList.any fun c => c = '"' || c = '\n'

/-- An attribute as code: a text in double quotes, or as a literal when it holds a quote or a line
feed. -/
def toCode : Attribute → Code
  | text name value =>
    if needsLiteral value then [.raw (name ++ "=")] ++ Code.braced [.literal value]
    else [.raw (name ++ "=\"" ++ value ++ "\"")]
  | flag name => [.raw name]
  | code name value => [.raw (name ++ "=")] ++ value.braced

/-- An attribute with a loosely typed value: truth values and numbers as expressions, everything
else as text. -/
def ofDatum (name : String) (d : Datum) : Outcome Attribute :=
  match d with
  | .bool b => .ok (code name [.raw (if b then "true" else "false")])
  | .int n => return code name [.raw (← (Number.int n).plain)]
  | .float x => return code name [.raw (← (Number.float x).plain)]
  | d => .ok (text name d.shown)

end Attribute

/-! ## Element text -/

/-- Whether a text between tags would be read as something else than itself. -/
def needsExpression (s : String) : Bool :=
  let cs := s.toList
  cs.any (fun c => c = '\x7b' || c = '\x7d' || c = '<' || c = '>' || c = '\n' || c = '&') ||
    Text.trim Text.isBlank cs != cs

/-- The text of an element: as it is, or as an expression when it would be misread. -/
def textCode (s : String) : Code :=
  if s.isEmpty then [] else if needsExpression s then Code.braced [.quoted s] else [.raw s]

/-! ## The tree -/

/-- How an element is laid out over lines. `step` says how many levels further in its children
stand. -/
inductive Layout where
  /-- Everything on one line. -/
  | inline
  /-- Opening tag, children and closing tag on lines of their own. -/
  | block (step : Nat)
  /-- As a block, with each attribute on a line of its own. -/
  | spread (step : Nat)
  deriving DecidableEq, Repr

end Markup

/-- A piece of markup. -/
inductive Markup where
  | text (s : String)
  /-- An expression between braces. -/
  | expr (c : Markup.Code)
  | element (layout : Markup.Layout) (tag : Markup.Tag) (attributes : List Markup.Attribute)
      (children : List Markup)
  /-- Markup that is there when a name has a value. -/
  | guarded (name : String) (child : Markup)

namespace Markup

/-- An element on one line. -/
def inlined (tag : String) (attributes : List Attribute) (children : List Markup) : Markup :=
  element .inline (.plain tag) attributes children

/-! ## On one line -/

def attributesCode (attributes : List Attribute) : Code :=
  attributes.flatMap fun a => [.raw " "] ++ a.toCode

/-- The opening of a tag with its attributes. -/
def opening (tag : Tag) (attributes : List Attribute) : Code :=
  [.raw "<"] ++ tag.code ++ attributesCode attributes

def closing (tag : Tag) : Code := [.raw "</"] ++ tag.code ++ [.raw ">"]

mutual

/-- Markup on one line. -/
def toCode : Markup → Code
  | text s => textCode s
  | expr c => c.braced
  | element _ tag attributes children =>
    if children.isEmpty then opening tag attributes ++ [.raw " />"]
    else opening tag attributes ++ [.raw ">"] ++ allCode children ++ closing tag
  | guarded name child => [.raw "\x7b", .ref name, .raw " && "] ++ toCode child ++ [.raw "\x7d"]

def allCode : List Markup → Code
  | [] => []
  | m :: rest => toCode m ++ allCode rest

end

/-! ## Over lines -/

/-- Whether markup takes up more than one line. -/
def isTall : Markup → Bool
  | element (.block _) _ _ children => !children.isEmpty
  | element (.spread _) _ _ _ => true
  | _ => false

mutual

/-- Markup over lines, as it stands at an indentation level. -/
def lines (level : Int) : Markup → List Line
  | text s => [⟨level, textCode s⟩]
  | expr c => [⟨level, c.braced⟩]
  | element .inline tag attributes children =>
    [⟨level, toCode (element .inline tag attributes children)⟩]
  | element (.block step) tag attributes children =>
    if children.isEmpty then [⟨level, opening tag attributes ++ [.raw " />"]⟩]
    else
      [⟨level, opening tag attributes ++ [.raw ">"]⟩] ++ allLines (level + step) children ++
        [⟨level, closing tag⟩]
  | element (.spread step) tag attributes children =>
    [⟨level, [.raw "<"] ++ tag.code⟩] ++ attributes.map (fun a => ⟨level + 1, a.toCode⟩) ++
      if children.isEmpty then [⟨level, [.raw "/>"]⟩]
      else
        [⟨level, [.raw ">"]⟩] ++ allLines (level + step) children ++ [⟨level, closing tag⟩]
  | guarded name child =>
    if child.isTall then
      [⟨level, [.raw "\x7b", .ref name, .raw " && ("]⟩] ++ lines (level + 1) child ++
        [⟨level, [.raw ")\x7d"]⟩]
    else [⟨level, toCode (guarded name child)⟩]

def allLines (level : Int) : List Markup → List Line
  | [] => []
  | m :: rest => lines level m ++ allLines level rest

end

/-- The names that pieces of markup use. -/
def refs (ms : List Markup) : List String := Line.refs (allLines 0 ms)

end Markup

end Maquette
