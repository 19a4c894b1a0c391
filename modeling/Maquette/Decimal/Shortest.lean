/-
The shortest decimal that reads back as a given double. The decimals that round to the double
`mant · 2^exp` form an interval around it; for one, two, … seventeen digits the two neighbours of
the double on that decimal grid are tested against the interval, and the first grid with a hit wins.
-/
import Maquette.Decimal.Binary
import Maquette.Decimal.Layout

namespace Maquette.Decimal

/-- The number of digits before the point of `num / den`, negative for leading zeros after it:
the `p` with `10^(p-1) ≤ num / den < 10^p`. -/
def pointOf (num den : Nat) : Int :=
  let k : Int := ((Nat.toDigits 10 num).length : Int) - ((Nat.toDigits 10 den).length : Int)
  let (n, d) := scaled 10 num den (-k)
  if d ≤ n then k + 1 else k

/-- Whether `c · 10^p` rounds to `mant · 2^exp`. The interval ends half a unit above and half a unit
below, a quarter below a power of two; its ends belong to it when the mantissa is even. -/
def roundsTo (mant : Nat) (exp : Int) (c : Nat) (p : Int) : Bool :=
  let below := if mant = leastMantissa ∧ exp ≠ -1074 then 4 * mant - 1 else 4 * mant - 2
  let (cn, cd) := scaled 10 c 1 p
  let (ln, ld) := scaled 2 below 1 (exp - 2)
  let (hn, hd) := scaled 2 (4 * mant + 2) 1 (exp - 2)
  if mant % 2 = 0 then ln * cd ≤ cn * ld && cn * hd ≤ hn * cd
  else ln * cd < cn * ld && cn * hd < hn * cd

/-- The hit on the grid of `digits` significant digits, the nearer one of two. -/
def onGrid? (mant : Nat) (exp : Int) (digits : Nat) : Option (Nat × Int) :=
  let (num, den) := magnitude mant exp
  let p := pointOf num den - digits
  let (n, d) := scaled 10 num den (-p)
  let c := n / d
  match roundsTo mant exp c p, roundsTo mant exp (c + 1) p with
  | true, true => some (nearest n d, p)
  | true, false => some (c, p)
  | false, true => some (c + 1, p)
  | false, false => none

/-- The shortest digits of a positive double. -/
def shortest (mant : Nat) (exp : Int) : Digits :=
  let hit := ((List.range 17).map (· + 1)).findSome? (onGrid? mant exp)
  let (c, p) := hit.getD (0, 0)
  Digits.of c p

/-- A sign in front of a text. -/
def signed (neg : Bool) (s : String) : String := if neg then "-" ++ s else s

/-- A double as data: the shortest digits that read back. -/
def shown (x : Float) : String :=
  match decode x with
  | .nan => "nan"
  | .infinite neg => signed neg "inf"
  | .finite neg 0 _ => signed neg "0.0"
  | .finite neg m e => signed neg ((shortest m e).text Layout.data)

end Maquette.Decimal
