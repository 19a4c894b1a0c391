/-
Arithmetic on loosely typed numbers. Integers stay exact; as soon as a double takes part the result
is a double, and an integer that has no double is too large. Truth values count as 0 and 1.
-/
import Maquette.Fault
import Maquette.Decimal.Places

namespace Maquette

/-- An exact integer or a double. -/
inductive Number where
  | int (n : Int)
  | float (x : Float)
  deriving Inhabited

/-- The number a value stands for in arithmetic. -/
def Datum.number? : Datum → Option Number
  | .bool b => some (.int (if b then 1 else 0))
  | .int n => some (.int n)
  | .float x => some (.float x)
  | _ => none

/-- A value that has to be a number. -/
def Datum.number (d : Datum) : Except Fault Number :=
  match d.number? with
  | some n => .ok n
  | none => .error .wrongKind

namespace Number

instance : OfNat Number n := ⟨.int n⟩

def toDatum : Number → Datum
  | int n => .int n
  | float x => .float x

/-- The double nearest to a number. -/
def toFloat : Number → Except Fault Float
  | int n =>
    match Decimal.ofInt? n with
    | some x => .ok x
    | none => .error .tooLarge
  | float x => .ok x

/-! ## Arithmetic -/

/-- An operation on integers, or on doubles when one side is a double. -/
def combine (onInts : Int → Int → Int) (onFloats : Float → Float → Float) :
    Number → Number → Except Fault Number
  | int m, int n => .ok (int (onInts m n))
  | a, b => do return float (onFloats (← a.toFloat) (← b.toFloat))

def add : Number → Number → Except Fault Number := combine (· + ·) (· + ·)

def sub : Number → Number → Except Fault Number := combine (· - ·) (· - ·)

def mul : Number → Number → Except Fault Number := combine (· * ·) (· * ·)

/-- The quotient as a double; of two integers, the double nearest to the exact quotient. -/
def div : Number → Number → Except Fault Number
  | int m, int n =>
    let x := Decimal.ofRatio (decide (m < 0) != decide (n < 0)) m.natAbs n.natAbs
    if Decimal.isFinite x then .ok (float x) else .error .tooLarge
  | a, b => do return float ((← a.toFloat) / (← b.toFloat))

/-- The square, which does not depend on the sign; a double whose square is infinite is too large. -/
def square : Number → Except Fault Number
  | int n => .ok (int (n * n))
  | float x =>
    let size := x.abs
    let y := Float.pow size 2.0
    if Decimal.isFinite size && !Decimal.isFinite y then .error .tooLarge else .ok (float y)

/-! ## Order -/

/-- A finite number as an exact fraction with a positive denominator. -/
def ratio? : Number → Option (Int × Nat)
  | int n => some (n, 1)
  | float x =>
    match Decimal.decode x with
    | .finite neg m e =>
      let (n, d) := Decimal.magnitude m e
      some (if neg then -(n : Int) else n, d)
    | _ => none

/-- Compares an integer with a double by their exact values. -/
def intLt (n : Int) (x : Float) : Bool :=
  match ratio? (float x) with
  | some (num, den) => n * den < num
  | none => 0 < x

def floatLt (x : Float) (n : Int) : Bool :=
  match ratio? (float x) with
  | some (num, den) => num < n * den
  | none => x < 0

def lt : Number → Number → Bool
  | int m, int n => m < n
  | int m, float x => intLt m x
  | float x, int n => floatLt x n
  | float x, float y => x < y

def eq (a b : Number) : Bool := a.toDatum.equals b.toDatum

def le (a b : Number) : Bool := a.lt b || a.eq b

def abs : Number → Number
  | int n => int n.natAbs
  | float x => float x.abs

/-- The greater of two numbers, the first one unless the second is greater. -/
def max (a b : Number) : Number := if a.lt b then b else a

/-! ## Rounding and text -/

/-- The nearest integer, halves to even. -/
def round : Number → Except Fault Int
  | int n => .ok n
  | float x =>
    match Decimal.decode x, Decimal.round? x with
    | _, some n => .ok n
    | .nan, _ => .error .notANumber
    | _, _ => .error .tooLarge

/-- Rounded to so many decimal places. -/
def roundTo (places : Nat) : Number → Number
  | int n => int n
  | float x => float (Decimal.roundTo places x)

/-- Rounded to an integer without places when it is one, else to three places at most. -/
def plainFloat (x : Float) : String :=
  match Decimal.truncate? x with
  | some n => if Decimal.isIntegral x then toString n else Decimal.shown (Decimal.roundTo 3 x)
  | none => Decimal.shown x

/-- A number as it is written into code: integers bare, others with three places at most. -/
def plain : Number → Except Fault String
  | int n => do
    let _ ← (int n).toFloat
    return toString n
  | float x => .ok (plainFloat x)

/-- A number in at most six significant digits. -/
def brief (a : Number) : Except Fault String := do return Decimal.brief (← a.toFloat)

/-- A number with exactly two places. -/
def twoPlaces (a : Number) : Except Fault String := do return Decimal.fixed 2 (← a.toFloat)

end Number

/-! ## Arithmetic on values -/

namespace Datum

/-- Whether a value can be put after itself. -/
def isRepeatable (d : Datum) : Bool := d.isText || d.isList

/-- Whether an integer can count repetitions: it fits into a word of 64 bits. -/
def isCount (n : Int) : Bool := -9223372036854775808 ≤ n && n < 9223372036854775808

/-- A text or a list over and over; a count below one leaves nothing of it. -/
def repeated (d : Datum) (n : Int) : Except Fault Datum :=
  match d with
  | .text s => if isCount n then .ok (.text (Text.times n.toNat s)) else .error .tooLarge
  | .list items =>
    if isCount n then .ok (.list (List.replicate n.toNat items).flatten) else .error .tooLarge
  | _ => .error .wrongKind

/-- The product of numbers, or a text or a list times an integer. -/
def times (a b : Datum) : Except Fault Datum :=
  match a.number?, b.number? with
  | some x, some y => return (← x.mul y).toDatum
  | none, some (.int n) => a.repeated n
  | some (.int n), none => b.repeated n
  | _, _ => .error .wrongKind

/-- The sum of numbers, or two texts or lists after each other. -/
def plus (a b : Datum) : Except Fault Datum :=
  match a, b with
  | .text s, .text t => .ok (.text (s ++ t))
  | .list xs, .list ys => .ok (.list (xs ++ ys))
  | a, b => do return (← (← a.number).add (← b.number)).toDatum

/-- The difference of numbers. -/
def minus (a b : Datum) : Except Fault Datum := do
  return (← (← a.number).sub (← b.number)).toDatum

/-- The quotient of numbers. -/
def quotient (a b : Datum) : Except Fault Datum := do
  return (← (← a.number).div (← b.number)).toDatum

/-- Whether a number is at most another one; other values are not compared. -/
def atMost (a b : Datum) : Bool :=
  match a.number?, b.number? with
  | some x, some y => x.le y
  | _, _ => false

end Datum

end Maquette
