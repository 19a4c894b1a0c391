/-
Loosely typed data: what design files, variable tables and settings hold. A record keeps its fields
in the order they were written; integers and doubles are different values that may be equal.
-/
import Maquette.Decimal.Binary

namespace Maquette

/-! ## Ordered tables -/

/-- A table in insertion order. -/
abbrev Table (κ α : Type) := List (κ × α)

namespace Table

variable {κ α : Type} [BEq κ]

/-- Sets a key; a key that is there keeps its place. -/
def set : Table κ α → κ → α → Table κ α
  | [], k, v => [(k, v)]
  | (k', v') :: rest, k, v => if k' == k then (k', v) :: rest else (k', v') :: set rest k v

/-- The table of a list of rows: a repeated key keeps its first place and gets its last value. -/
def ofRows (rows : List (κ × α)) : Table κ α := rows.foldl (fun t (k, v) => set t k v) []

def erase (t : Table κ α) (k : κ) : Table κ α := t.filter (!·.1 == k)

def hasKey (t : Table κ α) (k : κ) : Bool := t.any (·.1 == k)

end Table

/-! ## Data -/

/-- A value of a loosely typed document. -/
inductive Datum where
  | null
  | bool (b : Bool)
  | int (n : Int)
  | float (x : Float)
  | text (s : String)
  | list (items : List Datum)
  | record (fields : List (String × Datum))
  deriving Inhabited

namespace Datum

/-- The empty record. -/
abbrev empty : Datum := .record []

/-- Whether a value counts as given: not null, false, zero or empty. -/
def isTruthy : Datum → Bool
  | null => false
  | bool b => b
  | int n => n != 0
  | float x => !(x == 0)
  | text s => !s.isEmpty
  | list items => !items.isEmpty
  | record fields => !fields.isEmpty

/-- The first value unless it counts as absent. -/
def orElse (d e : Datum) : Datum := if d.isTruthy then d else e

def isNull : Datum → Bool
  | null => true
  | _ => false

def isRecord : Datum → Bool
  | record _ => true
  | _ => false

def isList : Datum → Bool
  | list _ => true
  | _ => false

def isText : Datum → Bool
  | text _ => true
  | _ => false

/-- Integers and doubles; truth values do not count. -/
def isNumber : Datum → Bool
  | int _ => true
  | float _ => true
  | _ => false

def text? : Datum → Option String
  | text s => some s
  | _ => none

def record? : Datum → Option (List (String × Datum))
  | record fields => some fields
  | _ => none

/-- Whether a value can serve as the key of a table. -/
def isKey : Datum → Bool
  | list _ => false
  | record _ => false
  | _ => true

/-- The field of a record; other values have none. -/
def at? (d : Datum) (key : String) : Option Datum :=
  match d with
  | record fields => fields.lookup key
  | _ => none

/-- Whether the value is the given text. -/
def isThe (d : Datum) (s : String) : Bool :=
  match d with
  | text t => t == s
  | _ => false

/-- Whether the value is one of the given texts. -/
def isOneOf (d : Datum) (options : List String) : Bool := options.any d.isThe

end Datum

/-! ## Equality -/

/-- Whether an integer equals a double exactly. -/
def intEqFloat (n : Int) (x : Float) : Bool :=
  match Decimal.decode x with
  | .finite neg m e =>
    let (num, den) := Decimal.magnitude m e
    n.natAbs * den == num && (num == 0 || (n < 0) == neg)
  | _ => false

/-- Equality of values that hold no others; a truth value is the integer 0 or 1, and NaN is the same
as itself. -/
def Datum.sameScalar : Datum → Datum → Bool
  | .null, .null => true
  | .text s, .text t => s == t
  | .bool a, .bool b => a == b
  | .bool a, .int n => n == (if a then 1 else 0)
  | .int n, .bool a => n == (if a then 1 else 0)
  | .bool a, .float x => x == (if a then 1 else 0)
  | .float x, .bool a => x == (if a then 1 else 0)
  | .int m, .int n => m == n
  | .int n, .float x => intEqFloat n x
  | .float x, .int n => intEqFloat n x
  | .float x, .float y => x == y || (x.isNaN && y.isNaN)
  | _, _ => false

mutual

/-- Equality of values: numbers by value whatever their kind, records whatever their order. -/
def Datum.same : Datum → Datum → Bool
  | .list xs, .list ys => Datum.sameItems xs ys
  | .record fs, .record gs => fs.length == gs.length && Datum.sameFields fs gs
  | a, b => Datum.sameScalar a b

def Datum.sameItems : List Datum → List Datum → Bool
  | [], [] => true
  | x :: xs, y :: ys => Datum.same x y && Datum.sameItems xs ys
  | _, _ => false

def Datum.sameFields : List (String × Datum) → List (String × Datum) → Bool
  | [], _ => true
  | (k, v) :: rest, gs =>
    (match gs.lookup k with
      | some w => Datum.same v w
      | none => false) && Datum.sameFields rest gs

end

instance : BEq Datum := ⟨Datum.same⟩

/-- Equality as numbers are compared: NaN differs from everything, itself included. -/
def Datum.equals (a b : Datum) : Bool :=
  match a with
  | .float x => !x.isNaN && a.same b
  | _ => a.same b

end Maquette
