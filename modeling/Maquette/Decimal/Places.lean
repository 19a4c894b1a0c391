/-
Doubles rounded in decimal. The exact binary value is rounded, never its printed form, and a half
goes to the even neighbour.
-/
import Maquette.Decimal.Shortest

namespace Maquette.Decimal

/-- The magnitude `mant · 2^exp` in units of `10^-places`, rounded. -/
def units (mant : Nat) (exp : Int) (places : Nat) : Nat :=
  let (n, d) := magnitude mant exp
  nearest (n * Nat.pow 10 places) d

/-- The nearest integer of a finite double. -/
def round? (x : Float) : Option Int :=
  match decode x with
  | .finite neg m e =>
    let n : Int := units m e 0
    some (if neg then -n else n)
  | _ => none

/-- The double nearest to the value rounded to so many places. -/
def roundTo (places : Nat) (x : Float) : Float :=
  match decode x with
  | .finite neg m e => ofRatio neg (units m e places) (Nat.pow 10 places)
  | _ => x

/-- The value with exactly so many places after the point. -/
def fixed (places : Nat) (x : Float) : String :=
  match decode x with
  | .nan => "nan"
  | .infinite neg => signed neg "inf"
  | .finite neg m e =>
    let n := units m e places
    let frac := toString (n % Nat.pow 10 places)
    signed neg <| toString (n / Nat.pow 10 places) ++
      (if places = 0 then ""
        else "." ++ String.ofList (List.replicate (places - frac.length) '0') ++ frac)

/-- Six significant digits of a positive fraction. -/
def sixDigits (num den : Nat) : Digits :=
  let p := pointOf num den - 6
  let (n, d) := scaled 10 num den (-p)
  Digits.of (nearest n d) p

/-- The value in at most six significant digits. -/
def brief (x : Float) : String :=
  match decode x with
  | .nan => "nan"
  | .infinite neg => signed neg "inf"
  | .finite neg 0 _ => signed neg "0"
  | .finite neg m e =>
    let (n, d) := magnitude m e
    signed neg ((sixDigits n d).text Layout.brief)

end Maquette.Decimal
