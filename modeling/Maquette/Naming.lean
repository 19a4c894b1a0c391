/-
Names made from free text: type names, value names, hyphenated names, and numbered variants of a
name that is taken. A name is read piece by piece; the pieces of a text are its characters.
-/
import Maquette.Datum.Access

namespace Maquette

/-- What a name is read from: pieces of text, each of which counts as a whole. -/
abbrev Pieces := List (List Char)

namespace Pieces

/-- The characters of a text. -/
def ofString (s : String) : Pieces := s.toList.map ([·])

/-- The pieces of a name that may be absent: the characters of a text, or the texts of a list. -/
def ofDatum (d : Datum) : Outcome Pieces :=
  if !d.isTruthy then .ok []
  else match d with
    | .text s => .ok (ofString s)
    | .list items => items.mapM fun d => return (← d.textMember).toList
    | .record fields => .ok (fields.map (·.1.toList))
    | _ => .error .wrongKind

end Pieces

namespace Naming

/-! ## Words -/

/-- Whether a piece consists of letters and numerals. -/
def isWord (piece : List Char) : Bool := !piece.isEmpty && piece.all Text.isAlphanumeric

/-- The runs of letters and numerals of a name. -/
def runs (ps : Pieces) : List (List Char) :=
  Text.words (· == ' ') (ps.flatMap fun p => if isWord p then p else [' '])

/-- A word with its first character in capitals. -/
def capitalized : List Char → List Char
  | [] => []
  | c :: rest => Text.capitalChar c ++ rest

/-- The words of a name run together, each with a capital at its front. -/
def joined (ps : Pieces) : List Char := (runs ps).flatMap capitalized

/-- What stands before a name that would begin with a digit: the fallback name if it can begin a
name itself, else an underscore. -/
def digitGuard (fallback : String) : List Char :=
  match fallback.toList with
  | c :: rest => if Text.isLetter c || c == '_' then c :: rest else ['_']
  | [] => ['_']

def startsWithDigit : List Char → Bool
  | c :: _ => Text.isDigit c
  | [] => false

/-! ## Type and value names -/

/-- The name of a type or component. -/
def pascal (fallback : String) (ps : Pieces) : String :=
  match joined ps with
  | [] => fallback
  | out => String.ofList (if startsWithDigit out then digitGuard fallback ++ out else out)

/-- Words that cannot name a value. -/
def reserved : List String :=
  ["break", "case", "catch", "class", "const", "continue", "default", "delete",
   "do", "else", "export", "extends", "finally", "for", "function", "if",
   "import", "in", "instanceof", "let", "new", "return", "super", "switch",
   "this", "throw", "try", "typeof", "var", "void", "while", "with", "yield"]

/-- Joined words with the first character in small letters. -/
def lowered : List Char → List Char
  | [] => []
  | c :: rest => Text.smallFrom [] [c] ++ rest

/-- A name; a reserved word is told apart by its ending. -/
def unreserved (name : String) : String :=
  if reserved.contains name then name ++ "Value" else name

/-- The name of a value. -/
def camel (fallback : String) (ps : Pieces) : String :=
  match joined ps with
  | [] => fallback
  | out =>
    let low := lowered out
    unreserved (String.ofList (if startsWithDigit low then digitGuard fallback ++ out else low))

/-! ## Hyphenated names -/

/-- Words in small letters, with a hyphen before a capital that follows a small letter or digit, and
a hyphen for everything else. -/
def hyphenated (afterSmall : Bool) : Pieces → List Char
  | [] => []
  | p :: rest =>
    if isWord p then
      (if Text.isCapitals p && afterSmall then ['-'] else []) ++ Text.smallFrom [] p ++
        hyphenated (Text.isSmalls p || p.all Text.isDigit) rest
    else '-' :: hyphenated false rest

/-- The name of a style class: words in small letters with single hyphens between them. -/
def kebab (ps : Pieces) : String :=
  match Text.squeeze '-' (Text.trim (· == '-') (hyphenated false ps)) with
  | [] => "unnamed"
  | out => String.ofList out

/-! ## Fallbacks of any kind -/

/-- A name, or its fallback where there is none; only a text can stand before a digit. -/
def under (fallback : Datum) (name : String → String) (ps : Pieces) (first : List Char) :
    Outcome Datum :=
  match fallback with
  | .text s => .ok (.text (name s))
  | d =>
    if (runs ps).isEmpty then .ok d
    else if !startsWithDigit first then .ok (.text (name ""))
    else .error (if d.isList then .noMember else .wrongKind)

/-- The name of a type under a fallback of any kind. -/
def pascalUnder (fallback : Datum) (ps : Pieces) : Outcome Datum :=
  under fallback (pascal · ps) ps (joined ps)

/-- The name of a value under a fallback of any kind. -/
def camelUnder (fallback : Datum) (ps : Pieces) : Outcome Datum :=
  under fallback (camel · ps) ps (lowered (joined ps))

/-! ## Distinct names -/

/-- The name itself, then the name with 2, 3, … behind it; as many as cannot all be taken. -/
def candidates (base : String) (used : List String) : List String :=
  base :: (List.range (used.length + 1)).map fun n => base ++ toString (n + 2)

/-- The first candidate that is not taken. -/
def unique (base : String) (used : List String) : String :=
  ((candidates base used).find? (!used.contains ·)).getD base

/-- Distinct names for a list of wishes, each one taken from then on. -/
def uniques : List String → List String → List String × List String
  | used, [] => ([], used)
  | used, base :: rest =>
    let name := unique base used
    let (names, used) := uniques (used ++ [name]) rest
    (name :: names, used)

/-! ## Distinct names of any kind -/

/-- The first name that is not taken: the value itself, or its text with a number. -/
def uniqueDatum (base : Datum) (used : List Datum) : Outcome Datum := do
  if !used.contains (← base.asKey) then return base
  return .text (unique base.shown (base.shown :: used.filterMap Datum.text?))

/-- Distinct names for values, each one taken from then on. -/
def uniqueData : List Datum → List Datum → Outcome (List Datum × List Datum)
  | used, [] => .ok ([], used)
  | used, base :: rest => do
    let name ← uniqueDatum base used
    let (names, used) ← uniqueData (used ++ [name]) rest
    return (name :: names, used)

end Naming

end Maquette
