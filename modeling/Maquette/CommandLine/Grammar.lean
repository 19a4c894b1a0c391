/-
Command lines: flags, some of which take a value, and an operand. A flag may be shortened as long as
only one flag begins like that; its value follows it or is joined to it; short flags may be written
together. After two dashes alone everything is an operand.
-/
import Maquette.Datum.Basic
import Maquette.Text.Basic

namespace Maquette.CommandLine

/-! ## Grammars -/

/-- What a flag is for. -/
inductive Role where
  | option
  | help
  | version
  deriving DecidableEq, Repr

/-- A flag: its names, the first one first, and how its value is called if it takes one. -/
structure Flag where
  names : List String
  placeholder : Option String
  note : String
  role : Role
  deriving DecidableEq, Repr

/-- How many operands there are. -/
inductive Arity where
  /-- One, which has to be there. -/
  | one
  /-- One, which may be missing. -/
  | perhaps
  /-- The name of a command and all that follows it; both may be missing. -/
  | command
  deriving DecidableEq, Repr

/-- What a command line may hold. -/
structure Grammar where
  flags : List Flag
  arity : Arity
  deriving Repr

/-- Why a command line is not carried out as it stands. -/
inductive Stop where
  | help
  | version
  | misuse
  deriving DecidableEq, Repr

/-! ## Words -/

/-- A text joined to a flag, with an equals sign or directly. -/
structure Joined where
  equals : Bool
  text : List Char
  deriving DecidableEq, Repr

/-- What a word of a command line is. -/
inductive Word where
  | plain (s : String)
  /-- Two dashes: only operands follow. -/
  | marker
  | unknown (s : String)
  | flag (f : Flag) (name : String) (joined : Option Joined)
  deriving DecidableEq, Repr

namespace Grammar

/-- All names of flags with their flags. -/
def names (g : Grammar) : List (String × Flag) :=
  g.flags.flatMap fun f => f.names.map fun name => (name, f)

/-- What a word with two dashes may stand for. -/
def longReadings (g : Grammar) (s : String) : List Word :=
  let (start, joined) := match Text.cut? '=' s.toList with
    | some (a, b) => (String.ofList a, some ⟨true, b⟩)
    | none => (s, none)
  g.names.filterMap fun (name, f) =>
    if Text.startsWith name start then some (.flag f name joined) else none

/-- What a word with one dash may stand for. -/
def shortReadings (g : Grammar) (s : String) : List Word :=
  let start := String.ofList (s.toList.take 2)
  g.names.filterMap fun (name, f) =>
    if name == start then some (.flag f name (some ⟨false, s.toList.drop 2⟩))
    else if Text.startsWith name s then some (.flag f name none)
    else none

/-- A negative number; a line end may follow it. -/
def isNegative (s : String) : Bool :=
  let isDigit (c : Char) : Bool := (Text.decimalDigit? c).isSome
  match s.toList with
  | '-' :: cs =>
    let cs := if cs.getLast? == some '\n' then cs.dropLast else cs
    match cs.dropWhile isDigit with
    | [] => !cs.isEmpty
    | '.' :: fraction => !fraction.isEmpty && fraction.all isDigit
    | _ => false
  | _ => false

/-- What a word is that begins with a dash and is no name of a flag. -/
def readLoose (g : Grammar) (s : String) : Except Stop Word :=
  let readings := if Text.startsWith s "--" then g.longReadings s else g.shortReadings s
  match readings with
  | [one] => .ok one
  | _ :: _ => .error .misuse
  | [] => .ok (if isNegative s || s.toList.contains ' ' then .plain s else .unknown s)

/-- What a word is. -/
def word (g : Grammar) (s : String) : Except Stop Word :=
  if s.toList.head? != some '-' then .ok (.plain s)
  else
    match g.names.lookup s with
    | some f => .ok (.flag f s none)
    | none =>
      if s == "-" then .ok (.plain s)
      else
        match Text.cut? '=' s.toList with
        | some (a, b) =>
          match g.names.lookup (String.ofList a) with
          | some f => .ok (.flag f (String.ofList a) (some ⟨true, b⟩))
          | none => g.readLoose s
        | none => g.readLoose s

/-- What the words of a command line are, each with its text. -/
def words (g : Grammar) : List String → Except Stop (List (String × Word))
  | [] => .ok []
  | s :: rest =>
    if s == "--" then .ok ((s, .marker) :: rest.map fun t => (t, .plain t))
    else do return (s, ← g.word s) :: (← g.words rest)

/-! ## Flags written together -/

/-- What one word asks for: flags with their values, a flag whose value is the next word, and a rest
that is no flag. -/
structure Taken where
  flags : List (Flag × String)
  awaiting : Option Flag
  left : Option String

def Taken.after (t : Taken) (f : Flag) : Taken := { t with flags := (f, "") :: t.flags }

/-- Reads a flag and the text joined to it: its value, or more short flags. -/
def joinedFlags (g : Grammar) (f : Flag) (short equals : Bool) (text : List Char) :
    Except Stop Taken :=
  if f.placeholder.isSome then .ok ⟨[(f, String.ofList text)], none, none⟩
  else
    match text with
    | [] => .error .misuse
    | c :: rest =>
      if !short || equals || c = '-' then .error .misuse
      else
        match g.names.lookup (String.ofList ['-', c]), rest with
        | none, rest => .ok ⟨[(f, "")], none, some (String.ofList ('-' :: c :: rest))⟩
        | some next, [] =>
          .ok (if next.placeholder.isSome then ⟨[(f, "")], some next, none⟩
            else ⟨[(f, ""), (next, "")], none, none⟩)
        | some next, '=' :: more => do return (← g.joinedFlags next true true more).after f
        | some next, more => do return (← g.joinedFlags next true false more).after f
termination_by text.length

/-- Reads a flag. -/
def takenBy (g : Grammar) (f : Flag) (name : String) : Option Joined → Except Stop Taken
  | some joined => g.joinedFlags f (!Text.startsWith name "--") joined.equals joined.text
  | none => .ok (if f.placeholder.isSome then ⟨[], some f, none⟩ else ⟨[(f, "")], none, none⟩)

/-! ## Reading -/

/-- What has been read: options by their first names, the operand and what follows it, and words
that belong to nothing. -/
structure Parsed where
  options : Table String String := []
  operand : Option String := none
  tail : List String := []
  extras : List String := []

def Parsed.extra (p : Parsed) (s : String) : Parsed := { p with extras := p.extras ++ [s] }

/-- Obeys flags in order; the first one that asks for help or the version ends the reading. -/
def obey : Parsed → List (Flag × String) → Except Stop Parsed
  | p, [] => .ok p
  | p, (f, value) :: rest =>
    match f.role with
    | .help => .error .help
    | .version => .error .version
    | .option => obey { p with options := Table.set p.options (f.names.headD "") value } rest

/-- Whether a grammar's only operand is still to come. -/
def expects (g : Grammar) (p : Parsed) : Bool := g.arity != .command && p.operand.isNone

/-- The end of a command line: a required operand has to have come. -/
def finish (g : Grammar) (p : Parsed) : Except Stop Parsed :=
  if g.arity = .one ∧ p.operand = none then .error .misuse else .ok p

/-- The words behind an operand; a marker right behind it belongs to it. -/
def skipMarker : List (String × Word) → List (String × Word)
  | (_, .marker) :: rest => rest
  | words => words

theorem skipMarker_length_le (words : List (String × Word)) :
    (skipMarker words).length ≤ words.length := by
  unfold skipMarker
  split <;> simp

/-- Reads words from left to right. -/
def readWords (g : Grammar) (p : Parsed) : List (String × Word) → Except Stop Parsed
  | [] => g.finish p
  | (s, .unknown _) :: rest => g.readWords (p.extra s) rest
  | (_, .flag f name joined) :: rest => do
    let taken ← g.takenBy f name joined
    let p := taken.left.elim p p.extra
    match taken.awaiting, rest with
    | none, rest => g.readWords (← obey p taken.flags) rest
    | some next, (value, .plain _) :: rest =>
      g.readWords (← obey p (taken.flags ++ [(next, value)])) rest
    | some _, _ => throw .misuse
  | (s, .plain _) :: rest =>
    if g.arity = .command then g.finish { p with operand := some s, tail := rest.map (·.1) }
    else if g.expects p then g.readWords { p with operand := some s } (skipMarker rest)
    else g.readWords (p.extra s) rest
  | (s, .marker) :: rest =>
    if g.arity = .command then .error .misuse
    else if g.expects p && (g.arity = .perhaps || !rest.isEmpty) then g.readWords p rest
    else g.readWords (p.extra s) rest
termination_by words => words.length
decreasing_by
  all_goals simp_wf
  all_goals
    have := skipMarker_length_le rest
    omega

/-- Reads a command line. -/
def parse (g : Grammar) (args : List String) : Except Stop Parsed := do
  g.readWords {} (← g.words args)

end Grammar

end Maquette.CommandLine
