/-
Doubles in the order in which they are compared. The bits behind the sign order the doubles of one
sign, so a double that is a number has a rank among the integers, and two doubles are compared as
their ranks are; a NaN has no rank and no comparison holds of it.
-/
import Maquette.Proofs.Decimal.Grid

namespace Maquette.Decimal

open Float.Model (Format UnpackedFloat)
open Float.Model.UnpackedFloat (Sign unpackMantissa unpackExponent unpackSign)

/-! ## The fields of the bits -/

/-- The bits behind the sign. -/
def code (x : Float) : ℕ := x.toBits.toNat % signBit

/-- The bit of the sign is set. -/
def isNegative (x : Float) : Bool := decide (signBit ≤ x.toBits.toNat)

def signOf (neg : Bool) : Sign := if neg then .negative else .positive

/-- A decoded double in the form that arithmetic starts from. -/
def Decoded.unpacked : Decoded → UnpackedFloat
  | .nan => .notANumber
  | .infinite neg => .infinity (signOf neg)
  | .finite neg m e =>
    if h : m = 0 then .zero (signOf neg) else .finite (signOf neg) m e (Nat.pos_of_ne_zero h)

theorem Decoded.unpacked_zero (neg : Bool) (e : ℤ) :
    (Decoded.finite neg 0 e).unpacked = .zero (signOf neg) := rfl

theorem Decoded.unpacked_finite (neg : Bool) {m : ℕ} (hm : m ≠ 0) (e : ℤ) :
    (Decoded.finite neg m e).unpacked =
      .finite (signOf neg) m e (Nat.pos_of_ne_zero hm) := dif_neg hm

section Fields

variable (b : BitVec 64)

theorem mantissa_toNat : (@unpackMantissa Format.binary64 b).toNat = b.toNat % leastMantissa := by
  show (b.toNat >>> 0) % 2 ^ 52 = _
  rw [Nat.shiftRight_zero]
  rfl

theorem exponent_toNat : (@unpackExponent Format.binary64 b).toNat =
    b.toNat / leastMantissa % 2048 := by
  show (b.toNat >>> 52) % 2 ^ 11 = _
  rw [Nat.shiftRight_eq_div_pow]
  rfl

theorem sign_eq : Sign.ofBitVec (@unpackSign Format.binary64 b) =
    signOf (decide (signBit ≤ b.toNat)) := by
  have hb : b.toNat < 2 ^ 64 := b.isLt
  have hsign : (@unpackSign Format.binary64 b).toNat = b.toNat / signBit % 2 := by
    show (b.toNat >>> 63) % 2 ^ 1 = _
    rw [Nat.shiftRight_eq_div_pow]
    rfl
  unfold Sign.ofBitVec signOf
  by_cases h : signBit ≤ b.toNat
  · have hone : b.toNat / signBit = 1 := by
      unfold signBit at h ⊢
      omega
    rw [if_neg, decide_eq_true h, if_pos rfl]
    intro hzero
    rw [hzero, hone] at hsign
    cases hsign
  · have hzero : b.toNat / signBit = 0 := Nat.div_eq_of_lt (by omega)
    rw [if_pos, decide_eq_false h, if_neg Bool.false_ne_true]
    refine BitVec.eq_of_toNat_eq ?_
    rw [hsign, hzero]
    rfl

end Fields

/-- Arithmetic starts from what is decoded. -/
theorem unpack_eq (x : Float) : x.toModel.unpack = (decode x).unpacked := by
  obtain ⟨⟨word, valid⟩⟩ := x
  have hm := mantissa_toNat word.toBitVec
  have he := exponent_toNat word.toBitVec
  have hs := sign_eq word.toBitVec
  have hones : ∀ e : BitVec 11, e = -1#11 ↔ e.toNat = 2047 := fun e => BitVec.toNat_inj.symm
  have hzeros : ∀ (n : ℕ) (e : BitVec n), e = 0#n ↔ e.toNat = 0 := fun n e => by
    rw [← BitVec.toNat_inj]; simp
  have hbits : (Float.ofModel ⟨word, valid⟩).toBits.toNat = word.toBitVec.toNat := rfl
  have hdecode : decode (Float.ofModel ⟨word, valid⟩) =
      if word.toBitVec.toNat / leastMantissa % 2048 = 2047 then
        (if word.toBitVec.toNat % leastMantissa = 0 then
          .infinite (decide (signBit ≤ word.toBitVec.toNat)) else .nan)
      else if word.toBitVec.toNat / leastMantissa % 2048 = 0 then
        .finite (decide (signBit ≤ word.toBitVec.toNat)) (word.toBitVec.toNat % leastMantissa) (-1074)
      else .finite (decide (signBit ≤ word.toBitVec.toNat))
        (word.toBitVec.toNat % leastMantissa + leastMantissa)
        (((word.toBitVec.toNat / leastMantissa % 2048 : ℕ) : ℤ) - 1075) := rfl
  rw [hdecode, ← hm, ← he]
  unfold Float.Model.unpack UnpackedFloat.unpack
  simp only [hs]
  by_cases hfull : (@unpackExponent Format.binary64 word.toBitVec).toNat = 2047
  · rw [if_pos ((hones _).2 hfull), if_pos hfull]
    by_cases hzero : (@unpackMantissa Format.binary64 word.toBitVec).toNat = 0
    · rw [if_pos ((hzeros _ _).2 hzero), if_pos hzero]
      rfl
    · rw [if_neg (mt (hzeros _ _).1 hzero), if_neg hzero]
      rfl
  · rw [if_neg (mt (hones _).1 hfull), if_neg hfull]
    by_cases hsub : (@unpackExponent Format.binary64 word.toBitVec).toNat = 0
    · rw [if_pos ((hzeros _ _).2 hsub), if_pos hsub, Decoded.unpacked]
      by_cases hzero : (@unpackMantissa Format.binary64 word.toBitVec).toNat = 0
      · rw [dif_pos ((hzeros _ _).2 hzero), dif_pos hzero]
      · rw [dif_neg (mt (hzeros _ _).1 hzero), dif_neg hzero]
        congr 1
        rw [hsub]
        rfl
    · rw [if_neg (mt (hzeros _ _).1 hsub), if_neg hsub, Decoded.unpacked,
        dif_neg (by unfold leastMantissa; omega)]
      congr 1
      rw [BitVec.toNat_append, ← Nat.shiftLeft_add_eq_or_of_lt (BitVec.isLt _), Nat.add_comm]
      rfl

/-! ## Ranks -/

/-- A number with the sign that is told. -/
def withSign : Bool → ℕ → ℤ
  | false, n => n
  | true, n => -n

/-- The place of a double in the order of doubles; the zeros share one, and a NaN has none. -/
def rank (x : Float) : Option ℤ :=
  if code x ≤ infinityBits then some (withSign (isNegative x) (code x)) else none

theorem rank_zero : rank 0 = some 0 := rfl

theorem rank_one : rank 1 = some 0x3FF0000000000000 := rfl

theorem code_div (x : Float) : x.toBits.toNat / leastMantissa % 2048 = code x / leastMantissa := by
  unfold code signBit leastMantissa
  omega

theorem code_mod (x : Float) : x.toBits.toNat % leastMantissa = code x % leastMantissa := by
  unfold code signBit leastMantissa
  omega

theorem code_lt (x : Float) : code x < signBit := Nat.mod_lt _ (by decide)

theorem decode_eq (x : Float) : decode x =
    if code x / leastMantissa = 2047 then
      (if code x % leastMantissa = 0 then .infinite (isNegative x) else .nan)
    else if code x / leastMantissa = 0 then
      .finite (isNegative x) (code x % leastMantissa) (-1074)
    else .finite (isNegative x) (code x % leastMantissa + leastMantissa)
      ((code x / leastMantissa : ℕ) - 1075) := by
  rw [← code_div, ← code_mod]
  rfl

/-- A mantissa and an exponent as they are decoded, `t` above the least exponent. -/
def Canonical (t m : ℕ) : Prop := (t = 0 ∨ leastMantissa ≤ m) ∧ m < 2 * leastMantissa

/-- What a double is decoded to is told by the bits behind the sign. -/
theorem decode_cases (x : Float) :
    (decode x = .nan ∧ infinityBits < code x) ∨
    (decode x = .infinite (isNegative x) ∧ code x = infinityBits) ∨
    ∃ t m : ℕ, decode x = .finite (isNegative x) m (t - 1074) ∧ Canonical t m ∧
      code x = t * leastMantissa + m ∧ code x < infinityBits := by
  have hlt := code_lt x
  have hsum : leastMantissa * (code x / leastMantissa) + code x % leastMantissa = code x :=
    Nat.div_add_mod _ _
  have hrem : code x % leastMantissa < leastMantissa := Nat.mod_lt _ (by decide)
  rw [decode_eq]
  split
  · have hfull : code x / leastMantissa = 2047 := by assumption
    rw [hfull] at hsum
    split
    · refine .inr (.inl ⟨rfl, ?_⟩)
      unfold infinityBits
      omega
    · refine .inl ⟨rfl, ?_⟩
      unfold infinityBits
      omega
  · have hbelow : code x < infinityBits := by
      have : code x / leastMantissa < 2047 := by
        unfold signBit at hlt
        unfold leastMantissa at *
        omega
      exact (Nat.div_lt_iff_lt_mul (by decide)).1 this
    split
    · have hzero : code x / leastMantissa = 0 := by assumption
      rw [hzero, Nat.mul_zero, Nat.zero_add] at hsum
      refine .inr (.inr ⟨0, code x % leastMantissa, rfl, ⟨.inl rfl, by omega⟩, ?_, hbelow⟩)
      omega
    · obtain ⟨t, ht⟩ := Nat.exists_eq_succ_of_ne_zero (show code x / leastMantissa ≠ 0 by assumption)
      rw [ht, Nat.mul_succ, Nat.mul_comm] at hsum
      refine .inr (.inr ⟨t, code x % leastMantissa + leastMantissa, ?_, ⟨.inr (by omega), by omega⟩,
        by omega, hbelow⟩)
      rw [ht]
      congr 1
      push_cast
      ring

theorem rank_of_finite {x : Float} {neg : Bool} {m : ℕ} {e : ℤ} (h : decode x = .finite neg m e) :
    ∃ t : ℕ, e = t - 1074 ∧ Canonical t m ∧ t * leastMantissa + m < infinityBits ∧
      rank x = some (withSign neg (t * leastMantissa + m)) := by
  rcases decode_cases x with ⟨h', -⟩ | ⟨h', -⟩ | ⟨t, m', h', hc, hcode, hlt⟩
  · rw [h'] at h; cases h
  · rw [h'] at h; cases h
  · rw [h'] at h
    cases h
    refine ⟨t, rfl, hc, by omega, ?_⟩
    rw [rank, if_pos hlt.le, hcode]

theorem rank_of_infinite {x : Float} {neg : Bool} (h : decode x = .infinite neg) :
    rank x = some (withSign neg infinityBits) := by
  rcases decode_cases x with ⟨h', -⟩ | ⟨h', hcode⟩ | ⟨t, m', h', -⟩
  · rw [h'] at h; cases h
  · rw [h'] at h
    cases h
    rw [rank, if_pos hcode.le, hcode]
  · rw [h'] at h; cases h

theorem rank_of_nan {x : Float} (h : decode x = .nan) : rank x = none := by
  rcases decode_cases x with ⟨-, hcode⟩ | ⟨h', -⟩ | ⟨t, m', h', -⟩
  · rw [rank, if_neg (by omega)]
  · rw [h'] at h; cases h
  · rw [h'] at h; cases h

/-! ## Comparison -/

/-- Mantissas and exponents are compared as the bits are that they make up. -/
theorem compare_canonical {t t' m m' : ℕ} (h : Canonical t m) (h' : Canonical t' m') :
    (compare ((t : ℤ) - 1074) (t' - 1074)).then (compare m m') =
      compare (t * leastMantissa + m) (t' * leastMantissa + m') := by
  obtain ⟨hlow, hhigh⟩ := h
  obtain ⟨hlow', hhigh'⟩ := h'
  rcases Nat.lt_trichotomy t t' with ht | rfl | ht
  · have hmul : (t + 1) * leastMantissa ≤ t' * leastMantissa := Nat.mul_le_mul_right _ ht
    rw [show compare ((t : ℤ) - 1074) (t' - 1074) = .lt from Int.compare_eq_lt.2 (by omega)]
    refine (Nat.compare_eq_lt.2 ?_).symm
    rw [Nat.succ_mul] at hmul
    omega
  · rw [show compare ((t : ℤ) - 1074) (t - 1074) = .eq from Int.compare_eq_eq.2 rfl]
    show compare m m' = _
    rcases Nat.lt_trichotomy m m' with hm | rfl | hm
    · rw [Nat.compare_eq_lt.2 hm, Nat.compare_eq_lt.2 (by omega)]
    · rw [Nat.compare_eq_eq.2 rfl, Nat.compare_eq_eq.2 rfl]
    · rw [Nat.compare_eq_gt.2 hm, Nat.compare_eq_gt.2 (by omega)]
  · have hmul : (t' + 1) * leastMantissa ≤ t * leastMantissa := Nat.mul_le_mul_right _ ht
    rw [show compare ((t : ℤ) - 1074) (t' - 1074) = .gt from Int.compare_eq_gt.2 (by omega)]
    refine (Nat.compare_eq_gt.2 ?_).symm
    rw [Nat.succ_mul] at hmul
    omega

/-- Numbers of one sign are compared as their magnitudes are, the other way round when negative. -/
theorem compare_withSign (neg : Bool) (m n : ℕ) :
    compare (withSign neg m) (withSign neg n) = if neg then (compare m n).swap else compare m n := by
  cases neg with
  | false =>
    show compare (m : ℤ) n = compare m n
    rcases Nat.lt_trichotomy m n with h | rfl | h
    · rw [Nat.compare_eq_lt.2 h, Int.compare_eq_lt.2 (by omega)]
    · rw [Nat.compare_eq_eq.2 rfl, Int.compare_eq_eq.2 rfl]
    · rw [Nat.compare_eq_gt.2 h, Int.compare_eq_gt.2 (by omega)]
  | true =>
    show compare (-m : ℤ) (-n) = (compare m n).swap
    rcases Nat.lt_trichotomy m n with h | rfl | h
    · rw [Nat.compare_eq_lt.2 h, Int.compare_eq_gt.2 (by omega)]
      rfl
    · rw [Nat.compare_eq_eq.2 rfl, Int.compare_eq_eq.2 rfl]
      rfl
    · rw [Nat.compare_eq_gt.2 h, Int.compare_eq_lt.2 (by omega)]
      rfl

/-- Finite doubles are compared as the bits are that their mantissas and exponents make up. -/
theorem compare_finite {t t' m m' : ℕ} (h : Canonical t m) (h' : Canonical t' m') (neg neg' : Bool) :
    (Decoded.finite neg m (t - 1074)).unpacked.compare (Decoded.finite neg' m' (t' - 1074)).unpacked =
      some (compare (withSign neg (t * leastMantissa + m))
        (withSign neg' (t' * leastMantissa + m'))) := by
  have hzero : ∀ {t m : ℕ}, Canonical t m → (t * leastMantissa + m = 0 ↔ m = 0) := by
    rintro t m ⟨hlow, -⟩
    have hL : 0 < leastMantissa := by decide
    constructor
    · omega
    · rintro rfl
      obtain rfl : t = 0 := by omega
      simp
  have hz := hzero h
  have hz' := hzero h'
  by_cases hm : m = 0
  · rw [hz.2 hm, hm, Decoded.unpacked_zero]
    by_cases hm' : m' = 0
    · rw [hz'.2 hm', hm', Decoded.unpacked_zero]
      cases neg <;> cases neg' <;> rfl
    · rw [Decoded.unpacked_finite neg' hm']
      have hpos : 0 < t' * leastMantissa + m' := by omega
      cases neg' with
      | false =>
        refine congrArg some (Int.compare_eq_lt.2 ?_).symm
        cases neg <;> simp only [withSign] <;> omega
      | true =>
        refine congrArg some (Int.compare_eq_gt.2 ?_).symm
        cases neg <;> simp only [withSign] <;> omega
  · rw [Decoded.unpacked_finite neg hm]
    have hpos : 0 < t * leastMantissa + m := by omega
    by_cases hm' : m' = 0
    · rw [hz'.2 hm', hm', Decoded.unpacked_zero]
      cases neg with
      | false =>
        refine congrArg some (Int.compare_eq_gt.2 ?_).symm
        cases neg' <;> simp only [withSign] <;> omega
      | true =>
        refine congrArg some (Int.compare_eq_lt.2 ?_).symm
        cases neg' <;> simp only [withSign] <;> omega
    · rw [Decoded.unpacked_finite neg' hm']
      have hcompare := compare_canonical h h'
      cases neg <;> cases neg'
      · rw [compare_withSign, ← hcompare]
        rfl
      · refine congrArg some (Int.compare_eq_gt.2 ?_).symm
        simp only [withSign]
        omega
      · refine congrArg some (Int.compare_eq_lt.2 ?_).symm
        simp only [withSign]
        omega
      · rw [compare_withSign, ← hcompare]
        rfl

/-- Doubles are compared as their ranks are. -/
theorem compare_eq (x y : Float) : x.toModel.unpack.compare y.toModel.unpack =
    match rank x, rank y with
    | some r, some s => some (compare r s)
    | _, _ => none := by
  have hbound : ∀ {neg neg' : Bool} {n : ℕ}, n < infinityBits →
      compare (withSign neg infinityBits) (withSign neg' n) = if neg then .lt else .gt := by
    intro neg neg' n hn
    cases neg with
    | false => exact Int.compare_eq_gt.2 (by cases neg' <;> simp only [withSign] <;> omega)
    | true => exact Int.compare_eq_lt.2 (by cases neg' <;> simp only [withSign] <;> omega)
  have hbound' : ∀ {neg neg' : Bool} {n : ℕ}, n < infinityBits →
      compare (withSign neg n) (withSign neg' infinityBits) = if neg' then .gt else .lt := by
    intro neg neg' n hn
    cases neg' with
    | false => exact Int.compare_eq_lt.2 (by cases neg <;> simp only [withSign] <;> omega)
    | true => exact Int.compare_eq_gt.2 (by cases neg <;> simp only [withSign] <;> omega)
  rw [unpack_eq, unpack_eq]
  cases hx : decode x with
  | nan =>
    rw [rank_of_nan hx]
    rfl
  | infinite neg =>
    rw [rank_of_infinite hx]
    cases hy : decode y with
    | nan =>
      rw [rank_of_nan hy]
      cases neg <;> rfl
    | infinite neg' =>
      rw [rank_of_infinite hy]
      cases neg <;> cases neg' <;> rfl
    | finite neg' m' e' =>
      obtain ⟨t', rfl, -, hlt, hr⟩ := rank_of_finite hy
      rw [hr]
      simp only [hbound hlt, Decoded.unpacked]
      split <;> cases neg <;> rfl
  | finite neg m e =>
    obtain ⟨t, rfl, hc, hlt, hr⟩ := rank_of_finite hx
    rw [hr]
    cases hy : decode y with
    | nan =>
      rw [rank_of_nan hy]
      simp only [Decoded.unpacked]
      split <;> rfl
    | infinite neg' =>
      rw [rank_of_infinite hy]
      simp only [hbound' hlt, Decoded.unpacked]
      split <;> cases neg' <;> rfl
    | finite neg' m' e' =>
      obtain ⟨t', rfl, hc', -, hr'⟩ := rank_of_finite hy
      rw [hr']
      exact compare_finite hc hc' neg neg'

section Order

variable {x y z : Float}

theorem lt_iff : x < y ↔ ∃ r s, rank x = some r ∧ rank y = some s ∧ r < s := by
  have hcompare : x < y ↔ x.toModel.unpack.lt y.toModel.unpack = true := by
    show decide (x.toModel < y.toModel) = true ↔ _
    exact decide_eq_true_iff
  rw [hcompare, UnpackedFloat.lt, compare_eq]
  cases hx : rank x with
  | none => simp
  | some r =>
    cases hy : rank y with
    | none => simp
    | some s =>
      simp only [Option.some.injEq, exists_and_left, exists_eq_left']
      rw [beq_iff_eq, Option.some.injEq, Int.compare_eq_lt]

theorem le_iff : x ≤ y ↔ ∃ r s, rank x = some r ∧ rank y = some s ∧ r ≤ s := by
  have hcompare : x ≤ y ↔ x.toModel.unpack.le y.toModel.unpack = true := by
    show decide (x.toModel ≤ y.toModel) = true ↔ _
    exact decide_eq_true_iff
  rw [hcompare, UnpackedFloat.le, compare_eq]
  cases hx : rank x with
  | none => simp
  | some r =>
    cases hy : rank y with
    | none => simp
    | some s =>
      simp only [Option.some.injEq, exists_and_left, exists_eq_left', Option.any_some]
      exact Int.isLE_compare

theorem beq_iff : (x == y) = true ↔ ∃ r, rank x = some r ∧ rank y = some r := by
  have hcompare : (x == y) = x.toModel.unpack.beq y.toModel.unpack := rfl
  rw [hcompare, UnpackedFloat.beq, compare_eq]
  cases hx : rank x with
  | none => simp
  | some r =>
    cases hy : rank y with
    | none => simp
    | some s =>
      rw [beq_iff_eq, Option.some.injEq, Int.compare_eq_eq]
      simp [eq_comm]

theorem lt_trans (h : x < y) (h' : y < z) : x < z := by
  obtain ⟨r, s, hr, hs, hlt⟩ := lt_iff.1 h
  obtain ⟨s', t, hs', ht, hlt'⟩ := lt_iff.1 h'
  obtain rfl := Option.some.inj (hs.symm.trans hs')
  exact lt_iff.2 ⟨r, t, hr, ht, hlt.trans hlt'⟩

theorem lt_of_le_of_lt (h : x ≤ y) (h' : y < z) : x < z := by
  obtain ⟨r, s, hr, hs, hle⟩ := le_iff.1 h
  obtain ⟨s', t, hs', ht, hlt⟩ := lt_iff.1 h'
  obtain rfl := Option.some.inj (hs.symm.trans hs')
  exact lt_iff.2 ⟨r, t, hr, ht, hle.trans_lt hlt⟩

theorem le_trans (h : x ≤ y) (h' : y ≤ z) : x ≤ z := by
  obtain ⟨r, s, hr, hs, hle⟩ := le_iff.1 h
  obtain ⟨s', t, hs', ht, hle'⟩ := le_iff.1 h'
  obtain rfl := Option.some.inj (hs.symm.trans hs')
  exact le_iff.2 ⟨r, t, hr, ht, hle.trans hle'⟩

theorem le_of_lt (h : x < y) : x ≤ y := by
  obtain ⟨r, s, hr, hs, hlt⟩ := lt_iff.1 h
  exact le_iff.2 ⟨r, s, hr, hs, hlt.le⟩

theorem ne_none_of_le (h : x ≤ y) : rank x ≠ none ∧ rank y ≠ none := by
  obtain ⟨r, s, hr, hs, -⟩ := le_iff.1 h
  exact ⟨by simp [hr], by simp [hs]⟩

theorem le_self (hx : rank x ≠ none) : x ≤ x := by
  obtain ⟨r, hr⟩ := Option.ne_none_iff_exists'.1 hx
  exact le_iff.2 ⟨r, r, hr, hr, Int.le_refl r⟩

theorem le_of_not_lt (hx : rank x ≠ none) (hy : rank y ≠ none) (h : ¬ x < y) : y ≤ x := by
  obtain ⟨r, hr⟩ := Option.ne_none_iff_exists'.1 hx
  obtain ⟨s, hs⟩ := Option.ne_none_iff_exists'.1 hy
  refine le_iff.2 ⟨s, r, hs, hr, ?_⟩
  by_contra hlt
  exact h (lt_iff.2 ⟨r, s, hr, hs, not_le.1 hlt⟩)

theorem lt_of_le_of_differ (h : x ≤ y) (hne : (y == x) = false) : x < y := by
  obtain ⟨r, s, hr, hs, hle⟩ := le_iff.1 h
  refine lt_iff.2 ⟨r, s, hr, hs, lt_of_le_of_ne hle ?_⟩
  rintro rfl
  rw [beq_iff.2 ⟨r, hs, hr⟩] at hne
  cases hne

theorem not_lt_of_le (h : x ≤ y) : ¬ y < x := by
  intro h'
  obtain ⟨r, s, hr, hs, hle⟩ := le_iff.1 h
  obtain ⟨s', r', hs', hr', hlt⟩ := lt_iff.1 h'
  obtain rfl := Option.some.inj (hs.symm.trans hs')
  obtain rfl := Option.some.inj (hr.symm.trans hr')
  omega

end Order

end Maquette.Decimal
