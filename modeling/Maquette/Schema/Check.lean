/-
Checks on loosely typed data. A check tells what a value is not, with the path to each offending
part; a value without offences passes. Numbers and truth values may be spelled as texts.
-/
import Maquette.Datum.Access

namespace Maquette

/-- What a value offends against. -/
abbrev Check := Datum → List Issue

namespace Check

/-- The one offence of a value as a whole. -/
def offence (o : Offence) : List Issue := [⟨[], o⟩]

/-- Offences of a part under the name of the part. -/
def under (key : String) (issues : List Issue) : List Issue :=
  issues.map fun i => { i with path := key :: i.path }

def anything : Check := fun _ => []

/-- The check, unless the value is null. -/
def optional (c : Check) : Check
  | .null => []
  | d => c d

/-- Both checks; the second one only when the first one passes. -/
def followedBy (first second : Check) : Check := fun d =>
  match first d with
  | [] => second d
  | issues => issues

/-! ## Texts -/

def text : Check
  | .text _ => []
  | _ => offence .notAText

def nonEmptyText : Check
  | .text s => if s.isEmpty then offence .emptyText else []
  | _ => offence .notAText

def oneOf (options : List String) : Check := fun d =>
  if d.isOneOf options then [] else offence (.notOneOf options)

/-- The name of an event: `on` and a word that begins with a capital of the Latin alphabet. -/
def isTrigger (s : String) : Bool :=
  match s.toList with
  | 'o' :: 'n' :: c :: rest => 'A' ≤ c && c ≤ 'Z' && rest.all Text.isWordMark
  | _ => false

def trigger : Check
  | .text s => if isTrigger s then [] else offence .notATrigger
  | _ => offence .notAText

/-! ## Numbers spelled out -/

/-- White space around a spelled number; the four information separators do not count. -/
def isMargin (c : Char) : Bool := Text.isBlank c && !(28 ≤ c.toNat && c.toNat ≤ 31)

/-- A text without the single underscores inside it, if it has any. -/
def withoutUnderscores? (cs : List Char) : Option (List Char) :=
  if (Text.splitOn (· == '_') cs).any List.isEmpty || !cs.contains '_' then none
  else some (cs.filter (· != '_'))

/-- The double that a text spells. -/
def spelledDouble? (s : String) : Option Float :=
  let cs := Text.trim isMargin s.toList
  match Decimal.double? cs with
  | some x => some x
  | none => (withoutUnderscores? cs).bind Decimal.double?

/-- Without a point and zeros at the end. -/
def withoutZeros (cs : List Char) : List Char :=
  match Text.cut? '.' cs with
  | some (whole, zeros) => if zeros.all (· == '0') then whole else cs
  | none => cs

/-- Whether a text spells an integer; zeros behind a point may follow. -/
def spellsInteger (s : String) : Bool :=
  let digits := withoutZeros (Decimal.sign (Text.trim isMargin s.toList)).2
  let digits := (withoutUnderscores? digits).getD digits
  !digits.isEmpty && digits.all Decimal.isAsciiDigit

/-! ## Numbers -/

/-- The double of a value that counts as a number. -/
def double (d : Datum) : Except Offence Float :=
  match d with
  | .bool b => .ok (if b then 1 else 0)
  | .int n => match Decimal.ofInt? n with
    | some x => .ok x
    | none => .error .notANumber
  | .float x => .ok x
  | .text s => match spelledDouble? s with
    | some x => .ok x
    | none => .error .unreadableNumber
  | _ => .error .notANumber

/-- A number within limits; what is no number at all is within all limits. -/
def numberWhere (limits : Float → Option Offence) : Check := fun d =>
  match double d with
  | .error o => offence o
  | .ok x => match limits x with
    | some o => offence o
    | none => []

def number : Check := numberWhere fun _ => none

/-- A number from zero on. -/
def size : Check := numberWhere fun x => if x < 0 then some .negative else none

def positive : Check := numberWhere fun x => if x <= 0 then some .notPositive else none

/-- A number from zero to one. -/
def share : Check := numberWhere fun x =>
  if 1 < x then some .aboveOne else if x < 0 then some .negative else none

/-- Whether the magnitude of an integer fits into 63 bits. -/
def isWord (n : Int) : Bool := n.natAbs < 9223372036854775808

/-- The digits of a spelled integer that count towards its length: not the zeros in front, unless a
sign stands before them. -/
def countedDigits (s : String) : List Char :=
  match withoutZeros (Text.trim isMargin s.toList) with
  | '-' :: digits => '-' :: digits.filter (· != '_')
  | '+' :: digits => (digits.filter (· != '_')).dropWhile (· == '0')
  | digits => (digits.filter (· != '_')).dropWhile (· == '0')

def integer : Check
  | .bool _ | .int _ => []
  | .float x =>
    if !Decimal.isFinite x then offence .notFinite
    else if !Decimal.isIntegral x then offence .fractional
    else if ((Decimal.truncate? x).map isWord).getD false then [] else offence .hugeInteger
  | .text s =>
    if !spellsInteger s then offence .unreadableInteger
    else if Decimal.maxDigits < (countedDigits s).length then offence .hugeInteger
    else []
  | _ => offence .notAnInteger

/-! ## Truth values -/

/-- The words for true and false, in small letters. -/
def truthWords : List String :=
  ["0", "off", "f", "false", "n", "no", "1", "on", "t", "true", "y", "yes"]

/-- A truth value as an integer. -/
def truthInteger (n : Int) : List Issue :=
  if n = 0 ∨ n = 1 then [] else offence .unreadableTruth

def truth : Check
  | .bool _ => []
  | .int n => if isWord n then truthInteger n else offence .notATruth
  | .float x =>
    match Decimal.truncate? x with
    | some n => if Decimal.isIntegral x && isWord n then truthInteger n else offence .notATruth
    | none => offence .notATruth
  | .text s =>
    if truthWords.contains (String.ofList (s.toList.map Char.toLower)) then []
    else offence .unreadableTruth
  | _ => offence .notATruth

/-! ## Lists and tables -/

def listOf (c : Check) : Check
  | .list items => items.zipIdx.flatMap fun (d, i) => under (toString i) (c d)
  | _ => offence .notAList

def nonEmptyListOf (c : Check) : Check
  | .list [] => offence .emptyList
  | d => listOf c d

def anyRecord : Check
  | .record _ => []
  | _ => offence .notARecord

def tableOf (c : Check) : Check
  | .record fields => fields.flatMap fun (k, d) => under k (c d)
  | _ => offence .notARecord

/-- A key that is no text: the name it is written under, and its place in a path. -/
structure OddKey where
  name : String
  place : String

/-- A truth value counts as an integer in a path. -/
def OddKey.ofDatum (d : Datum) : OddKey :=
  match d with
  | .bool b => ⟨d.shown, if b then "1" else "0"⟩
  | d => ⟨d.shown, d.shown⟩

/-- A table among whose keys the given ones are no texts. -/
def tableWith (odd : List OddKey) (c : Check) : Check
  | .record fields => fields.flatMap fun (k, d) =>
    match odd.find? (·.name == k) with
    | some key => under key.place (under "[key]" (offence .notAText) ++ c d)
    | none => under k (c d)
  | _ => offence .notARecord

/-! ## Alternatives -/

/-- Passes when one of the named checks passes, else tells the offences against all of them. -/
def anyOf (members : List (String × Check)) : Check := fun d =>
  if members.any fun (_, c) => (c d).isEmpty then []
  else members.flatMap fun (name, c) => under name (c d)

/-- The kinds of plain values. -/
def plainMembers : List (String × Check) :=
  [("bool", truth), ("int", integer), ("float", number), ("str", text)]

def plainValue : Check := anyOf plainMembers

/-! ## Models -/

/-- A field of a model: the names it may have, whether it has to be there, and the check on its
value. Absence is told under the first name. -/
structure Field where
  key : String
  other : Option String
  required : Bool
  check : Check

/-- A field that has to be there. -/
def need (key : String) (c : Check) : Field := ⟨key, none, true, c⟩

/-- A field that may be left out. -/
def may (key : String) (c : Check) : Field := ⟨key, none, false, c⟩

/-- A field that may be left out or null. -/
def maybe (key : String) (c : Check) : Field := ⟨key, none, false, optional c⟩

def Field.issues (f : Field) (fields : List (String × Datum)) : List Issue :=
  let names := f.key :: f.other.toList
  match names.findSome? fun k => (fields.lookup k).map (k, ·) with
  | some (k, d) => under k (f.check d)
  | none => if f.required then [⟨[f.key], .absent⟩] else []

/-- A record with the given fields; others do not matter. -/
def model (name : String) (fields : List Field) : Check
  | .record given => fields.flatMap (·.issues given)
  | _ => offence (.notA name)

end Check

/-! ## Depth -/

mutual

/-- How deep records and lists are nested in a value. -/
def Datum.depth : Datum → Nat
  | .list items => Datum.itemsDepth items + 1
  | .record fields => Datum.fieldsDepth fields + 1
  | _ => 0

def Datum.itemsDepth : List Datum → Nat
  | [] => 0
  | d :: rest => max d.depth (Datum.itemsDepth rest)

def Datum.fieldsDepth : List (String × Datum) → Nat
  | [] => 0
  | (_, d) :: rest => max d.depth (Datum.fieldsDepth rest)

end

end Maquette
