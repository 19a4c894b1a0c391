/-
Exact results of arithmetic packed into doubles. The mantissa of an exact result is shifted to its
place with one bit for the half and one for all bits behind it, which is enough to round it as the
exact fraction is rounded; then a packed result has the rank that its magnitude is rounded to, and
ranks keep the order of exact results.
-/
import Maquette.Proofs.Decimal.Order

namespace Maquette.Decimal

open Float.Model (Format UnpackedFloat totalExponent)
open Float.Model.UnpackedFloat

/-! ## Shifted mantissas -/

/-- What a mantissa and the two bits behind it tell about a fraction. -/
def Represents (em : ExtendedMantissa) (q : ℚ) : Prop :=
  match em.roundBit, em.stickyBit with
  | false, false => q = em.mantissa
  | false, true => em.mantissa < q ∧ q < em.mantissa + 1 / 2
  | true, false => q = em.mantissa + 1 / 2
  | true, true => em.mantissa + 1 / 2 < q ∧ q < em.mantissa + 1

section Represents

variable {em : ExtendedMantissa} {q : ℚ}

theorem represents_exact (m : ℕ) : Represents (.ofMantissaAndAccuracy m .exact) m := rfl

theorem Represents.shiftRightOne (h : Represents em q) : Represents em.shiftRightOne (q / 2) := by
  obtain ⟨m, roundBit, stickyBit⟩ := em
  have hsum : ((m % 2 : ℕ) : ℚ) + 2 * ((m / 2 : ℕ) : ℚ) = m := by exact_mod_cast Nat.mod_add_div m 2
  rcases Nat.mod_two_eq_zero_or_one m with hm | hm <;> cases roundBit <;> cases stickyBit <;>
    simp only [Represents, ExtendedMantissa.shiftRightOne, hm, Nat.cast_zero, Nat.cast_one] at h hsum ⊢ <;>
    first
    | (show q / 2 = _; linarith)
    | (constructor <;> linarith)

theorem Represents.shiftRight (h : Represents em q) (k : ℕ) : Represents (em >>> k) (q / 2 ^ k) := by
  show Represents (k.repeat ExtendedMantissa.shiftRightOne em) _
  induction k with
  | zero => simpa [Nat.repeat] using h
  | succ k ih =>
    rw [Nat.repeat, pow_succ, ← div_div]
    exact ih.shiftRightOne

/-- A fraction less than a half away from an integer is rounded to it. -/
theorem rounds_near {m : ℕ} (hlow : (m : ℚ) - 1 / 2 < q) (hhigh : q < m + 1 / 2) : RoundsTo id q m := by
  refine .intro strictMono_id ?_ ?_
  · rintro b rfl
    left
    push_cast [id] at hlow ⊢
    linarith
  · unfold Passes
    push_cast [id]
    rintro (h | ⟨h, -⟩) <;> linarith

/-- Halfway between two integers the even one is taken. -/
theorem rounds_half (m : ℕ) : RoundsTo id ((m : ℚ) + 1 / 2) (m + m % 2) := by
  rcases Nat.mod_two_eq_zero_or_one m with hm | hm
  · rw [hm]
    refine .intro strictMono_id ?_ ?_
    · rintro b hb
      left
      have : ((b + 1 : ℕ) : ℚ) = m := by exact_mod_cast hb
      push_cast [id] at this ⊢
      linarith
    · rintro (h | ⟨-, h⟩)
      · push_cast [id] at h
        linarith
      · rw [Nat.odd_iff] at h
        omega
  · rw [hm]
    refine .intro strictMono_id ?_ ?_
    · rintro b hb
      obtain rfl : b = m := by omega
      refine .inr ⟨?_, Nat.odd_iff.2 hm⟩
      push_cast [id]
      ring
    · rintro (h | ⟨h, -⟩) <;> push_cast [id] at h <;> linarith

/-- The bits are enough to round the fraction. -/
theorem Represents.rounds (h : Represents em q) : RoundsTo id q em.roundedMantissa := by
  obtain ⟨m, roundBit, stickyBit⟩ := em
  cases roundBit <;> cases stickyBit
  · obtain rfl : q = m := h
    exact .self strictMono_id m
  · have hq : (m : ℚ) < q ∧ q < m + 1 / 2 := h
    have hlow : (m : ℚ) - 1 / 2 < q := by linarith
    exact rounds_near (m := m) hlow hq.2
  · obtain rfl : q = m + 1 / 2 := h
    exact rounds_half m
  · refine rounds_near (m := m + 1) ?_ ?_
    · push_cast
      linarith [h.1]
    · push_cast
      linarith [h.2]

end Represents

/-! ## Exponents -/

/-- The exponent at which a mantissa has 53 bits, or the least one there is. -/
theorem targetExponent_eq (m : ℕ) (e : ℤ) :
    Format.binary64.targetExponent (totalExponent m e) = max (m.log2 + e - 52) (-1074) := by
  simp only [Format.targetExponent, totalExponent, Format.mantissaBits, Format.minExponent]
  omega

/-- A mantissa that already has its place is not shifted. -/
theorem shift_canonical {t m : ℕ} (h : m < 2 * leastMantissa) :
    shiftToTargetExponent Format.binary64 m (t - 1074) .exact = (⟨m, false, false⟩, (t : ℤ) - 1074) := by
  have hlog : m.log2 ≤ 52 := by
    by_cases hm : m = 0
    · rw [hm]
      decide
    · have : m.log2 < 53 := (Nat.log2_lt hm).2 h
      omega
  have hshift : (Format.binary64.targetExponent (totalExponent m ((t : ℤ) - 1074)) -
      ((t : ℤ) - 1074)).toNat = 0 := by
    rw [targetExponent_eq]
    omega
  unfold shiftToTargetExponent shiftToExponent
  simp only [hshift]
  refine Prod.ext rfl ?_
  simp

/-- A mantissa with one bit too many loses the last one, which is zero. -/
theorem shift_carry (t : ℕ) :
    shiftToTargetExponent Format.binary64 (2 * leastMantissa) (t - 1074) .exact =
      (⟨leastMantissa, false, false⟩, ((t + 1 : ℕ) : ℤ) - 1074) := by
  have hlog : (2 * leastMantissa).log2 = 53 := by decide
  have hshift : (Format.binary64.targetExponent
      (totalExponent (2 * leastMantissa) ((t : ℤ) - 1074)) - ((t : ℤ) - 1074)).toNat = 1 := by
    rw [targetExponent_eq, hlog]
    omega
  unfold shiftToTargetExponent shiftToExponent
  simp only [hshift]
  refine Prod.ext rfl ?_
  push_cast
  ring

/-- A rounded mantissa in its place: a carry goes to the exponent. -/
def placed (neg : Bool) (t r : ℕ) : UnpackedFloat :=
  if h : r = 0 then .zero (signOf neg)
  else if r < 2 * leastMantissa then .finite (signOf neg) r (t - 1074) (Nat.pos_of_ne_zero h)
  else .finite (signOf neg) leastMantissa ((t + 1 : ℕ) - 1074) (by decide)

/-- What rounding a mantissa with an exponent to a double means: the fraction is shifted to the place
of its mantissa and rounded there. -/
theorem roundWithAccuracy_placed {m : ℕ} (hm : m ≠ 0) {e : ℤ} (he : e ≤ -1074 ∨ leastMantissa ≤ m)
    (neg : Bool) :
    ∃ t r : ℕ, roundWithAccuracy Format.binary64 (signOf neg) m e .exact = placed neg t r ∧
      RoundsTo unitsAt ((m : ℚ) * 2 ^ (e + 1074)) (t * leastMantissa + r) ∧
      (t = 0 ∨ leastMantissa ≤ r) ∧ r ≤ 2 * leastMantissa := by
  have htarget := targetExponent_eq m e
  have hbits : 2 ^ m.log2 ≤ m ∧ m < 2 ^ (m.log2 + 1) := ⟨Nat.log2_self_le hm, Nat.lt_log2_self⟩
  have hle : e ≤ max (m.log2 + e - 52) (-1074) := by
    rcases he with he | he
    · exact he.trans (le_max_right _ _)
    · have : 52 ≤ m.log2 := (Nat.le_log2 hm).2 he
      omega
  obtain ⟨t, ht⟩ : ∃ t : ℕ, max (m.log2 + e - 52) (-1074) = t - 1074 :=
    ⟨(max (m.log2 + e - 52) (-1074) + 1074).toNat, by omega⟩
  obtain ⟨k, hk⟩ : ∃ k : ℕ, e + k = t - 1074 := ⟨((t : ℤ) - 1074 - e).toNat, by omega⟩
  rw [ht] at htarget hle
  have hshift : shiftToTargetExponent Format.binary64 m e .exact =
      (ExtendedMantissa.ofMantissaAndAccuracy m .exact >>> k, (t : ℤ) - 1074) := by
    have : ((t : ℤ) - 1074 - e).toNat = k := by omega
    unfold shiftToTargetExponent shiftToExponent
    simp only [htarget, this, hk]
  have hrounds := ((represents_exact m).shiftRight k).rounds
  generalize (ExtendedMantissa.ofMantissaAndAccuracy m .exact >>> k) = em at hshift hrounds
  have hscaled : (m : ℚ) * 2 ^ (e + 1074) / 2 ^ t = m / 2 ^ k := by
    have hexp : e + 1074 = t - k := by omega
    rw [hexp, zpow_sub₀ (by norm_num), zpow_natCast, zpow_natCast]
    field_simp
  have hL : (leastMantissa : ℚ) = 2 ^ 52 := by norm_num [leastMantissa]
  have hlow : t = 0 ∨ (leastMantissa : ℚ) ≤ m / 2 ^ k := by
    by_cases hzero : t = 0
    · exact .inl hzero
    · right
      have hlog : m.log2 = 52 + k := by omega
      rw [hlog, pow_add] at hbits
      rw [le_div_iff₀ (by positivity), hL]
      exact_mod_cast hbits.1
  have hhigh : (m : ℚ) / 2 ^ k < 2 * leastMantissa := by
    have hpow : 2 ^ (m.log2 + 1) ≤ 2 ^ (53 + k) := Nat.pow_le_pow_right (by decide) (by omega)
    rw [pow_add 2 53] at hpow
    rw [div_lt_iff₀ (by positivity), hL]
    have hlt : (m : ℚ) < 2 ^ 53 * 2 ^ k := by exact_mod_cast hbits.2.trans_le hpow
    linarith
  have hr : em.roundedMantissa ≤ 2 * leastMantissa := by
    refine hrounds.mono (.self strictMono_id _) ?_
    push_cast [id]
    exact hhigh.le
  refine ⟨t, em.roundedMantissa, ?_, rounds_scaled (by rwa [hscaled]) (by rwa [hscaled])
    (by rwa [hscaled]), hlow.imp_right fun hlow => (RoundsTo.self strictMono_id _).mono hrounds hlow, hr⟩
  unfold roundWithAccuracy placed
  rw [hshift]
  simp only
  by_cases hfull : em.roundedMantissa < 2 * leastMantissa
  · rw [shift_canonical hfull]
    simp only [hfull, if_true]
  · have hcarry : em.roundedMantissa = 2 * leastMantissa := by omega
    rw [hcarry, shift_carry, dif_neg (show leastMantissa ≠ 0 by decide), dif_neg (by decide),
      if_neg (lt_irrefl _)]

/-! ## Packing -/

/-- The bits of a sign and of what stands behind it. -/
def bitsWith (neg : Bool) (c : ℕ) : ℕ := (if neg then signBit else 0) + c

theorem rank_of_bits {x : Float} {neg : Bool} {c : ℕ} (h : x.toBits.toNat = bitsWith neg c)
    (hc : c ≤ infinityBits) : rank x = some (withSign neg c) := by
  have hlt : c < signBit := hc.trans_lt (by decide)
  have hcode : code x = c := by
    rw [code, h, bitsWith]
    cases neg with
    | false => simpa using Nat.mod_eq_of_lt hlt
    | true => rw [if_pos rfl, Nat.add_mod_left, Nat.mod_eq_of_lt hlt]
  have hneg : isNegative x = neg := by
    rw [isNegative, h, bitsWith]
    cases neg with
    | false => simpa using hlt
    | true => simp
  rw [rank, hcode, hneg, if_pos hc]

theorem packComponents_toNat (neg : Bool) (e : BitVec 11) (m : BitVec 52) :
    (packComponents Format.binary64 (signOf neg) e m).toNat =
      bitsWith neg (e.toNat * leastMantissa + m.toNat) := by
  have he : e.toNat < 2 ^ 11 := e.isLt
  have hsign : (signOf neg).toBitVec.toNat = if neg then 1 else 0 := by cases neg <;> rfl
  unfold packComponents
  rw [BitVec.toNat_append, BitVec.toNat_append, ← Nat.shiftLeft_add_eq_or_of_lt m.isLt,
    ← Nat.shiftLeft_add_eq_or_of_lt e.isLt, hsign, Nat.shiftLeft_eq, Nat.shiftLeft_eq]
  unfold bitsWith signBit leastMantissa
  cases neg
  · simp
  · simp only [if_true]
    ring

/-- A packed double and its bits. -/
theorem toBits_pack (u : UnpackedFloat) : (Float.ofModel (Float.Model.pack u)).toBits.toNat =
    (UnpackedFloat.pack Format.binary64 u).toNat := rfl

theorem rank_pack_zero (neg : Bool) :
    rank (.ofModel (Float.Model.pack (.zero (signOf neg)))) = some 0 := by
  have h : rank (.ofModel (Float.Model.pack (.zero (signOf neg)))) = some (withSign neg 0) := by
    refine rank_of_bits ?_ (Nat.zero_le _)
    rw [toBits_pack, UnpackedFloat.pack, packedZero, packComponents_toNat]
    rfl
  rw [h]
  cases neg <;> rfl

theorem rank_pack_infinity (neg : Bool) :
    rank (.ofModel (Float.Model.pack (.infinity (signOf neg)))) =
      some (withSign neg infinityBits) := by
  refine rank_of_bits ?_ le_rfl
  rw [toBits_pack, UnpackedFloat.pack, packedInfinity, packComponents_toNat]
  rfl

theorem rank_pack_nan : rank (.ofModel (Float.Model.pack .notANumber)) = none := rfl

/-- A packed mantissa and exponent have the bits that they make up, up to those of the infinity. -/
theorem rank_pack_finite {t m : ℕ} (h : Canonical t m) (hm : 0 < m) (neg : Bool) :
    rank (.ofModel (Float.Model.pack (.finite (signOf neg) m (t - 1074) hm))) =
      some (withSign neg (min (t * leastMantissa + m) infinityBits)) := by
  obtain ⟨hlow, hhigh⟩ := h
  have hbiased : ((t : ℤ) - 1074 + Format.binary64.exponentBias +
      Format.binary64.mantissaBitsWithoutImplicit).toNat = t + 1 := by
    show ((t : ℤ) - 1074 + 1023 + 52).toNat = t + 1
    omega
  refine rank_of_bits ?_ (min_le_right _ _)
  rw [toBits_pack, UnpackedFloat.pack, hbiased]
  by_cases hbig : 2046 ≤ t
  · have hmin : infinityBits ≤ t * leastMantissa + m := by
      have := Nat.mul_le_mul_right leastMantissa hbig
      unfold infinityBits
      omega
    rw [if_pos (show 2 ^ 11 ≤ t + 1 + 1 by omega), packedInfinity, packComponents_toNat,
      min_eq_right hmin]
    rfl
  · have hmin : t * leastMantissa + m ≤ infinityBits := by
      have := Nat.mul_le_mul_right leastMantissa (show t ≤ 2045 by omega)
      unfold infinityBits
      omega
    rw [if_neg (show ¬ 2 ^ 11 ≤ t + 1 + 1 by omega), min_eq_left hmin]
    by_cases hnormal : leastMantissa ≤ m
    · have hlog : m.log2 = 52 := (Nat.log2_eq_iff hm.ne').2 ⟨hnormal, hhigh⟩
      have hbits : m.log2 + 1 = Format.binary64.mantissaBits := by
        rw [hlog]
        rfl
      have hexp : (t + 1) % 2 ^ 11 = t + 1 := Nat.mod_eq_of_lt (by omega)
      have hmant : m % 2 ^ 52 = m - leastMantissa := by
        show m % leastMantissa = _
        rw [Nat.mod_eq_sub_mod hnormal, Nat.mod_eq_of_lt (by omega)]
      rw [if_pos hbits, packComponents_toNat, BitVec.toNat_ofNat, BitVec.toNat_ofNat, hexp, hmant,
        Nat.succ_mul]
      refine congrArg (bitsWith neg) ?_
      omega
    · obtain rfl : t = 0 := by omega
      have hlog : m.log2 < 52 := (Nat.log2_lt hm.ne').2 (by unfold leastMantissa at hnormal; omega)
      have hbits : m.log2 + 1 ≠ Format.binary64.mantissaBits := by
        show m.log2 + 1 ≠ 53
        omega
      have hmant : m % 2 ^ 52 = m := Nat.mod_eq_of_lt (not_le.1 hnormal)
      rw [if_neg hbits, packComponents_toNat, BitVec.toNat_ofNat, BitVec.toNat_ofNat, hmant,
        Nat.zero_mod]

/-- A mantissa that is packed in its place has the bits that it makes up with its exponent. -/
theorem rank_pack_placed {t r : ℕ} (ht : t = 0 ∨ leastMantissa ≤ r) (hr : r ≤ 2 * leastMantissa)
    (neg : Bool) : rank (.ofModel (Float.Model.pack (placed neg t r))) =
      some (withSign neg (min (t * leastMantissa + r) infinityBits)) := by
  unfold placed
  split
  · have hzero : r = 0 := by assumption
    obtain rfl : t = 0 := by
      have : 0 < leastMantissa := by decide
      omega
    rw [rank_pack_zero, hzero]
    cases neg <;> rfl
  · split
    · exact rank_pack_finite ⟨ht, by assumption⟩ _ neg
    · have hfull : r = 2 * leastMantissa := by omega
      have hcarry : (t + 1) * leastMantissa + leastMantissa = t * leastMantissa + r := by
        rw [hfull]
        ring
      rw [rank_pack_finite ⟨.inr le_rfl, by decide⟩, hcarry]

end Maquette.Decimal
