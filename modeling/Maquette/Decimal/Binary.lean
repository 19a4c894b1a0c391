/-
Doubles as exact fractions. A finite double is decoded into `± mant · 2^exp`; a fraction is encoded
as the nearest double, a tie going to the even mantissa.
-/

namespace Maquette.Decimal

/-! ## Rounding a quotient -/

/-- The integer nearest to `num / den`; halves go to the even neighbour. -/
def nearest (num den : Nat) : Nat :=
  let q := num / den
  let r := num % den
  if 2 * r < den then q else if den < 2 * r then q + 1 else q + q % 2

/-- `num / den` times a power of `base`, as a fraction again. -/
def scaled (base num den : Nat) (e : Int) : Nat × Nat :=
  if e < 0 then (num, den * Nat.pow base (-e).toNat) else (num * Nat.pow base e.toNat, den)

/-! ## The bits of a double -/

/-- The least mantissa of 53 bits, and the place of the exponent in the bits: 2^52. -/
def leastMantissa : Nat := 4503599627370496

/-- The bit of the sign: 2^63. -/
def signBit : Nat := 9223372036854775808

/-- The bits of the positive infinity. -/
def infinityBits : Nat := 2047 * leastMantissa

/-- The bits of a NaN. -/
def nanBits : Nat := infinityBits + leastMantissa / 2

/-! ## Decoding -/

/-- What the bits of a double stand for. -/
inductive Decoded where
  | nan
  | infinite (neg : Bool)
  /-- The number `± mant · 2^exp`. -/
  | finite (neg : Bool) (mant : Nat) (exp : Int)

def decode (x : Float) : Decoded :=
  let bits : Nat := x.toBits.toNat
  let neg := decide (signBit ≤ bits)
  let exp : Nat := bits / leastMantissa % 2048
  let frac : Nat := bits % leastMantissa
  if exp = 2047 then (if frac = 0 then .infinite neg else .nan)
  else if exp = 0 then .finite neg frac (-1074)
  else .finite neg (frac + leastMantissa) ((exp : Int) - 1075)

/-- The magnitude `mant · 2^exp` as a fraction. -/
def magnitude (mant : Nat) (exp : Int) : Nat × Nat := scaled 2 mant 1 exp

/-! ## Encoding -/

/-- The double with the given sign and remaining bits. -/
def ofBits (neg : Bool) (rest : Nat) : Float :=
  Float.ofBits (UInt64.ofNat ((if neg then signBit else 0) + rest))

/-- The exponent at which the mantissa of `num / den` has 53 bits, or the least one there is. -/
def mantissaExponent (num den : Nat) : Int :=
  let k : Int := (num.log2 : Int) - (den.log2 : Int)
  let (n, d) := scaled 2 num den (-k)
  max (-1074) (if d ≤ n then k - 52 else k - 53)

/-- The double nearest to `± num / den`; beyond the greatest one it is infinite. -/
def ofRatio (neg : Bool) (num den : Nat) : Float :=
  if num = 0 then ofBits neg 0
  else
    let e := mantissaExponent num den
    let (n, d) := scaled 2 num den (-e)
    let m := nearest n d
    if m < leastMantissa then ofBits neg m
    else
      let bits := (e + 1075).toNat * leastMantissa + (m - leastMantissa)
      ofBits neg (min bits infinityBits)

/-- Whether a double is neither infinite nor a NaN. -/
def isFinite (x : Float) : Bool :=
  match decode x with
  | .finite .. => true
  | _ => false

/-- The double nearest to an integer, unless the integer is too large. -/
def ofInt? (n : Int) : Option Float :=
  let x := ofRatio (n < 0) n.natAbs 1
  if isFinite x then some x else none

/-- The integer a finite double lies at, the fraction cut off. -/
def truncate? (x : Float) : Option Int :=
  match decode x with
  | .finite neg m e =>
    let (n, d) := magnitude m e
    some (if neg then -((n / d : Nat) : Int) else ((n / d : Nat) : Int))
  | _ => none

/-- Whether a double is an integer. -/
def isIntegral (x : Float) : Bool :=
  match decode x with
  | .finite _ m e => let (n, d) := magnitude m e; n % d == 0
  | _ => false

end Maquette.Decimal
