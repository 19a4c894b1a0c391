/-
How the decimal digits of a number are laid out: positional near the point, with an exponent of at
least two digits and a sign further away.
-/

namespace Maquette.Decimal

/-- The number `0.d₁d₂… · 10^point`; no digits for zero. -/
structure Digits where
  digits : List Char
  point : Int

/-- The digits of `n · 10^p` without trailing zeros. -/
def Digits.of (n : Nat) (p : Int) : Digits :=
  let ds := if n = 0 then [] else Nat.toDigits 10 n
  ⟨(ds.reverse.dropWhile (· == '0')).reverse, ds.length + p⟩

/-- Where positional notation begins and ends, and whether an integer keeps `.0`. -/
structure Layout where
  lowest : Int
  highest : Int
  pointZero : Bool

/-- Numbers as data: positional from 0.0001 up to sixteen integer digits, `.0` kept. -/
def Layout.data : Layout := ⟨-3, 16, true⟩

/-- Numbers in six significant digits: positional from 0.0001 up to six integer digits. -/
def Layout.brief : Layout := ⟨-3, 6, false⟩

/-- The exponent part: sign and at least two digits. -/
def exponentText (e : Int) : String :=
  let ds := toString e.natAbs
  "e" ++ (if e < 0 then "-" else "+") ++ (if ds.length < 2 then "0" ++ ds else ds)

/-- Positional notation. -/
def Digits.positional (d : Digits) (pointZero : Bool) : String :=
  let whole := if d.point ≤ 0 then ['0']
    else (d.digits ++ List.replicate (d.point.toNat - d.digits.length) '0').take d.point.toNat
  let frac := if d.point ≤ 0 then List.replicate (-d.point).toNat '0' ++ d.digits
    else d.digits.drop d.point.toNat
  String.ofList whole ++
    (if frac.isEmpty then (if pointZero then ".0" else "") else "." ++ String.ofList frac)

/-- Notation with an exponent. -/
def Digits.scientific (d : Digits) : String :=
  match d.digits with
  | [] => "0"
  | [c] => c.toString ++ exponentText (d.point - 1)
  | c :: rest => c.toString ++ "." ++ String.ofList rest ++ exponentText (d.point - 1)

/-- The text of the digits under a layout, without sign. -/
def Digits.text (d : Digits) (layout : Layout) : String :=
  if d.digits.isEmpty then (if layout.pointZero then "0.0" else "0")
  else if layout.lowest ≤ d.point ∧ d.point ≤ layout.highest then d.positional layout.pointZero
  else d.scientific

end Maquette.Decimal
