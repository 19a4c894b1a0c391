/-
Doubles made from fractions. A fraction is brought to the place of its mantissa and rounded there, so
the double made from it has the rank that the fraction is rounded to; rounding to decimal places makes
a fraction of an integer, so it keeps the order too.
-/
import Maquette.Proofs.Decimal.Arithmetic

namespace Maquette.Decimal

open Float.Model (Format UnpackedFloat)
open Float.Model.UnpackedFloat

/-! ## Doubles from their bits -/

/-- Packing what was decoded keeps the rank. -/
theorem rank_repack (x : Float) : rank (.ofModel (Float.Model.pack (decode x).unpacked)) = rank x := by
  cases hx : decode x with
  | nan =>
    rw [rank_of_nan hx]
    exact rank_pack_nan
  | infinite neg =>
    rw [rank_of_infinite hx]
    exact rank_pack_infinity neg
  | finite neg m e =>
    obtain ⟨t, rfl, hc, hlt, hr⟩ := rank_of_finite hx
    rw [hr]
    by_cases hm : m = 0
    · subst hm
      have hzero : t * leastMantissa + 0 = 0 := by
        have hL : 0 < leastMantissa := by decide
        obtain rfl : t = 0 := by
          have := hc.1
          omega
        simp
      rw [Decoded.unpacked_zero, rank_pack_zero, hzero]
      cases neg <;> rfl
    · rw [Decoded.unpacked_finite neg hm, rank_pack_finite hc, min_eq_left hlt.le]

theorem rank_ofBits (neg : Bool) {c : ℕ} (hc : c ≤ infinityBits) :
    rank (ofBits neg c) = some (withSign neg c) := by
  have hlt : bitsWith neg c < 2 ^ 64 := by
    have hle : c ≤ 2047 * 4503599627370496 := hc
    have hsign : (if neg then signBit else 0) ≤ 9223372036854775808 := by cases neg <;> decide
    unfold bitsWith
    omega
  obtain ⟨word, hword⟩ : ∃ word : UInt64, word = UInt64.ofNat (bitsWith neg c) := ⟨_, rfl⟩
  have hbits : word.toBitVec.toNat = bitsWith neg c := by
    rw [hword]
    exact Nat.mod_eq_of_lt hlt
  have hsplit : bitsWith neg c / leastMantissa % 2048 = c / leastMantissa ∧
      bitsWith neg c % leastMantissa = c % leastMantissa := by
    unfold bitsWith signBit
    unfold infinityBits at hc
    unfold leastMantissa at hc ⊢
    cases neg <;> simp only [if_true, Bool.false_eq_true, if_false] <;> omega
  -- only a NaN has an exponent of ones and a mantissa
  have hvalid : Format.binary64.Valid word.toBitVec := by
    refine ⟨fun he hm => absurd ?_ hm⟩
    have he' := exponent_toNat word.toBitVec
    rw [he, hbits, hsplit.1] at he'
    have hfull : c / leastMantissa = 2047 := he'.symm
    refine BitVec.eq_of_toNat_eq ?_
    rw [mantissa_toNat, hbits, hsplit.2]
    unfold infinityBits at hc
    unfold leastMantissa at hc hfull ⊢
    simp
    omega
  have hrank : rank (Float.ofModel ⟨word, hvalid⟩) = some (withSign neg c) := rank_of_bits hbits hc
  have hpack : ofBits neg c = .ofModel (Float.Model.pack
      (decode (Float.ofModel ⟨word, hvalid⟩)).unpacked) := by
    rw [← unpack_eq]
    show Float.ofBits (UInt64.ofNat (bitsWith neg c)) = _
    rw [← hword]
    rfl
  rw [hpack, rank_repack, hrank]

/-! ## Scaled fractions -/

theorem scaled_value {base den : ℕ} (hbase : 0 < base) (hden : 0 < den) (num : ℕ) (e : ℤ) :
    0 < (scaled base num den e).2 ∧
      ((scaled base num den e).1 : ℚ) / (scaled base num den e).2 = num / den * base ^ e := by
  have hb : (0 : ℚ) < base := by exact_mod_cast hbase
  unfold scaled
  split
  · obtain ⟨k, rfl⟩ : ∃ k : ℕ, e = -k := ⟨(-e).toNat, by omega⟩
    rw [neg_neg, Int.toNat_natCast]
    refine ⟨Nat.mul_pos hden (Nat.pow_pos hbase), ?_⟩
    push_cast
    rw [zpow_neg, zpow_natCast]
    show (num : ℚ) / (den * (base ^ k : ℕ)) = _
    push_cast
    field_simp
  · obtain ⟨k, rfl⟩ : ∃ k : ℕ, e = k := ⟨e.toNat, by omega⟩
    rw [Int.toNat_natCast]
    refine ⟨hden, ?_⟩
    rw [zpow_natCast]
    show ((num * base ^ k : ℕ) : ℚ) / den = _
    push_cast
    field_simp

/-- A positive fraction is between two powers of two. -/
theorem exists_power {num den : ℕ} (hnum : num ≠ 0) (hden : 0 < den) :
    ∃ j : ℤ, mantissaExponent num den = max (-1074) (j - 52) ∧
      (2 : ℚ) ^ j ≤ num / den ∧ (num : ℚ) / den < 2 ^ (j + 1) := by
  have hd : (0 : ℚ) < den := by exact_mod_cast hden
  have hn : (2 : ℚ) ^ num.log2 ≤ num ∧ (num : ℚ) < 2 ^ (num.log2 + 1) :=
    ⟨by exact_mod_cast Nat.log2_self_le hnum, by exact_mod_cast Nat.lt_log2_self⟩
  have hd' : (2 : ℚ) ^ den.log2 ≤ den ∧ (den : ℚ) < 2 ^ (den.log2 + 1) :=
    ⟨by exact_mod_cast Nat.log2_self_le hden.ne', by exact_mod_cast Nat.lt_log2_self⟩
  obtain ⟨k, hk⟩ : ∃ k : ℤ, (num.log2 : ℤ) - den.log2 = k := ⟨_, rfl⟩
  -- the difference of the logarithms is this power or the next one
  have habove : (num : ℚ) / den < 2 ^ (k + 1) := by
    rw [div_lt_iff₀ hd]
    calc (num : ℚ) < 2 ^ (num.log2 + 1) := hn.2
      _ = 2 ^ (k + 1) * 2 ^ den.log2 := by
        rw [← zpow_natCast, ← zpow_natCast, ← zpow_add₀ (by norm_num)]
        congr 1
        omega
      _ ≤ 2 ^ (k + 1) * den := by gcongr; exact hd'.1
  have hbelow : (2 : ℚ) ^ (k - 1) ≤ num / den := by
    rw [le_div_iff₀ hd]
    calc (2 : ℚ) ^ (k - 1) * den ≤ 2 ^ (k - 1) * 2 ^ (den.log2 + 1) := by gcongr; exact hd'.2.le
      _ = 2 ^ num.log2 := by
        rw [← zpow_natCast, ← zpow_natCast, ← zpow_add₀ (by norm_num)]
        congr 1
        omega
      _ ≤ num := hn.1
  obtain ⟨hpos, hvalue⟩ := scaled_value (show 0 < 2 by decide) hden num (-k)
  have hcompare : (scaled 2 num den (-k)).2 ≤ (scaled 2 num den (-k)).1 ↔ (2 : ℚ) ^ k ≤ num / den := by
    have hpos' : (0 : ℚ) < (scaled 2 num den (-k)).2 := by exact_mod_cast hpos
    rw [← Nat.cast_le (α := ℚ), ← one_le_div hpos', hvalue, Nat.cast_ofNat, zpow_neg, ← div_eq_mul_inv,
      one_le_div (by positivity)]
  unfold mantissaExponent
  simp only [hk]
  split
  · exact ⟨k, rfl, hcompare.1 (by assumption), habove⟩
  · have hlt : ¬ (2 : ℚ) ^ k ≤ num / den := mt hcompare.2 (by assumption)
    refine ⟨k - 1, by congr 1; ring, hbelow, ?_⟩
    rw [sub_add_cancel]
    exact not_le.1 hlt

/-- The exponent of a fraction brings it to a mantissa of 53 bits, or is the least one. -/
theorem mantissaExponent_spec {num den : ℕ} (hnum : num ≠ 0) (hden : 0 < den) :
    ∃ t : ℕ, mantissaExponent num den = t - 1074 ∧
      (t = 0 ∨ (leastMantissa : ℚ) ≤ num / den * 2 ^ (1074 - t : ℤ)) ∧
      (num : ℚ) / den * 2 ^ (1074 - t : ℤ) < 2 * leastMantissa := by
  obtain ⟨j, he, hlow, hhigh⟩ := exists_power hnum hden
  have hL : (leastMantissa : ℚ) = 2 ^ (52 : ℤ) := by norm_num [leastMantissa]
  have htwo : (2 : ℚ) ≠ 0 := by norm_num
  obtain ⟨t, ht⟩ : ∃ t : ℕ, max (-1074) (j - 52) = (t : ℤ) - 1074 :=
    ⟨(max (-1074) (j - 52) + 1074).toNat, by omega⟩
  refine ⟨t, he.trans ht, ?_, ?_⟩
  · by_cases hzero : t = 0
    · exact .inl hzero
    · right
      have hexp : j + (1074 - t) = 52 := by omega
      calc (leastMantissa : ℚ) = 2 ^ j * 2 ^ (1074 - t : ℤ) := by rw [hL, ← zpow_add₀ htwo, hexp]
        _ ≤ num / den * 2 ^ (1074 - t : ℤ) := by gcongr
  · have hexp : j + 1 + (1074 - t) ≤ 53 := by omega
    calc (num : ℚ) / den * 2 ^ (1074 - t : ℤ) < 2 ^ (j + 1) * 2 ^ (1074 - t : ℤ) := by gcongr
      _ = 2 ^ (j + 1 + (1074 - t)) := (zpow_add₀ htwo _ _).symm
      _ ≤ 2 ^ (53 : ℤ) := zpow_le_zpow_right₀ (by norm_num) hexp
      _ = 2 * leastMantissa := by rw [hL]; norm_num

/-- The double of a fraction has the rank that the fraction is rounded to. -/
theorem rank_ofRatio (neg : Bool) (num : ℕ) {den : ℕ} (hden : 0 < den) :
    ∃ r, rank (ofRatio neg num den) = some r ∧
      RanksAs (withSign neg num / den * 2 ^ 1074) r := by
  by_cases hnum : num = 0
  · subst hnum
    refine ⟨0, ?_, ?_⟩
    · rw [ofRatio, if_pos rfl, rank_ofBits neg (Nat.zero_le _)]
      cases neg <;> rfl
    · have : (withSign neg 0 : ℚ) = 0 := by cases neg <;> simp [withSign]
      rw [this, zero_div, zero_mul]
      exact ranksAs_zero
  · obtain ⟨t, he, hlow, hhigh⟩ := mantissaExponent_spec hnum hden
    obtain ⟨hpos, hvalue⟩ := scaled_value (show 0 < 2 by decide) hden num (-((t : ℤ) - 1074))
    have hneg : -((t : ℤ) - 1074) = 1074 - t := by ring
    obtain ⟨unit, hunit⟩ : ∃ unit : ℚ, unit = 2 ^ 1074 := ⟨_, rfl⟩
    have hunitpos : 0 < unit := by
      rw [hunit]
      positivity
    have hplace : (num : ℚ) / den * unit / 2 ^ t = num / den * 2 ^ (1074 - t : ℤ) := by
      rw [zpow_sub₀ (by norm_num), zpow_natCast, hunit, mul_div_assoc]
      rfl
    rw [ofRatio, if_neg hnum]
    simp only [he]
    rw [Nat.cast_ofNat, hneg] at hvalue
    rw [hneg] at hpos ⊢
    have hrounds := nearest_rounds (scaled 2 num den (1074 - t)).1 hpos
    rw [hvalue] at hrounds
    generalize nearest (scaled 2 num den (1074 - t)).1 (scaled 2 num den (1074 - t)).2 = m at hrounds
    rw [← hplace] at hrounds hlow hhigh
    have hgrid := rounds_scaled hrounds hlow hhigh
    have hmlow : t = 0 ∨ leastMantissa ≤ m := hlow.imp_right fun hlow =>
      (RoundsTo.self strictMono_id _).mono hrounds hlow
    have hranks : RanksAs (withSign neg num / den * unit) (clamp (withSign neg (t * leastMantissa + m))) := by
      have hpos : (0 : ℚ) ≤ num / den * unit := by positivity
      refine ⟨_, ⟨neg, _, rfl, ?_, ?_⟩, rfl⟩
      · have habs : |(withSign neg num : ℚ) / den * unit| = num / den * unit := by
          cases neg <;> simp only [withSign] <;> push_cast
          · exact abs_of_nonneg hpos
          · rw [neg_div, neg_mul, abs_neg, abs_of_nonneg hpos]
        rwa [habs]
      · cases neg <;> simp only [withSign, Bool.false_eq_true, if_false, if_true] <;> push_cast
        · exact hpos
        · rw [neg_div, neg_mul]
          exact neg_nonpos.2 hpos
    rw [← hunit]
    refine ⟨_, ?_, hranks⟩
    rw [clamp_withSign]
    split
    · obtain rfl : t = 0 := by omega
      rw [Nat.zero_mul, Nat.zero_add, min_eq_left]
      · exact rank_ofBits neg (by unfold infinityBits; omega)
      · unfold infinityBits
        omega
    · have hexp : ((t : ℤ) - 1074 + 1075).toNat = t + 1 := by omega
      have hbits : (t + 1) * leastMantissa + (m - leastMantissa) = t * leastMantissa + m := by
        rw [Nat.succ_mul]
        omega
      rw [hexp, hbits]
      exact rank_ofBits neg (min_le_right _ _)

theorem isFinite_of_rank {x : Float} {r : ℤ} (hr : rank x = some r) (hlow : -infinityBits < r)
    (hhigh : r < infinityBits) : isFinite x = true := by
  unfold isFinite
  cases hx : decode x with
  | nan =>
    rw [rank_of_nan hx] at hr
    cases hr
  | infinite neg =>
    rw [rank_of_infinite hx] at hr
    cases hr
    cases neg
    · exact absurd hhigh (lt_irrefl _)
    · exact absurd hlow (lt_irrefl _)
  | finite neg m e => rfl

theorem isFinite_of_unit {x : Float} (hlow : 0 ≤ x) (hhigh : x ≤ 1) : isFinite x = true := by
  obtain ⟨z, r, hz, hr, hlow⟩ := le_iff.1 hlow
  obtain ⟨r', o, hr', ho, hhigh⟩ := le_iff.1 hhigh
  rw [hr] at hr'
  cases hr'
  rw [rank_zero] at hz
  rw [rank_one] at ho
  cases hz
  cases ho
  have hinf : (0x3FF0000000000000 : ℤ) < infinityBits := by decide
  exact isFinite_of_rank hr (by omega) (by omega)

/-! ## Quotients and decimal places -/

/-- A quotient of integers that is not greater than one makes a double that is at most one. -/
theorem ofRatio_le_one {num den : ℕ} (h : num ≤ den) : ofRatio false num den ≤ 1 := by
  by_cases hden : den = 0
  · obtain rfl : num = 0 := by omega
    rw [hden]
    decide +kernel
  · obtain ⟨r, hr, hnum⟩ := rank_ofRatio false num (Nat.pos_of_ne_zero hden)
    obtain ⟨s, hs, hone⟩ := rank_ofRatio false 1 (show 0 < 1 by decide)
    have hrank : rank 1 = rank (ofRatio false 1 1) := rfl
    refine le_iff.2 ⟨r, s, hr, hrank.trans hs, hnum.mono hone ?_⟩
    have hd : (0 : ℚ) < den := by exact_mod_cast Nat.pos_of_ne_zero hden
    have hle : (num : ℚ) / den ≤ 1 := (div_le_one hd).2 (by exact_mod_cast h)
    have hunit : (0 : ℚ) ≤ 2 ^ 1074 := by positivity
    simp only [withSign]
    push_cast
    rw [div_one]
    exact mul_le_mul_of_nonneg_right hle hunit

theorem ofRatio_nonneg (num : ℕ) {den : ℕ} (hden : 0 < den) : 0 ≤ ofRatio false num den := by
  obtain ⟨r, hr, hnum⟩ := rank_ofRatio false num hden
  refine le_iff.2 ⟨0, r, rank_zero, hr, ranksAs_zero.mono hnum ?_⟩
  simp only [withSign]
  positivity

/-- The double of an integer other than zero is not zero either. -/
theorem ofInt?_pos {n : ℤ} {x : Float} (h : ofInt? n = some x) (hn : n ≠ 0) (hx : 0 ≤ x) : 0 < x := by
  unfold ofInt? at h
  simp only at h
  split at h
  · cases h
    obtain ⟨z, r, hz, hr, hle⟩ := le_iff.1 hx
    rw [rank_zero] at hz
    cases hz
    obtain ⟨r', hr', hranks⟩ := rank_ofRatio (decide (n < 0)) n.natAbs Nat.one_pos
    rw [hr] at hr'
    cases hr'
    have hone : (1 : ℚ) ≤ n.natAbs := by exact_mod_cast Int.natAbs_pos.2 hn
    rw [Nat.cast_natAbs, Int.cast_abs] at hone
    have hunit : (0 : ℚ) < 2 ^ 1074 := by positivity
    obtain ⟨u, hu, hunits⟩ := rank_ofRatio (decide (n < 0)) 1 Nat.one_pos
    generalize (2 : ℚ) ^ 1074 = unit at hranks hunits hunit
    refine lt_iff.2 ⟨0, r, rank_zero, hr, ?_⟩
    -- the double of one, or of minus one, lies between zero and it
    cases hneg : decide (n < 0) with
    | true =>
      rw [hneg] at hranks hu hunits
      have hbelow : rank (ofRatio true 1 1) = some (-0x3FF0000000000000) := rfl
      rw [hbelow] at hu
      cases hu
      have := hranks.mono hunits (by simp only [withSign]; push_cast; nlinarith)
      omega
    | false =>
      rw [hneg] at hranks hu hunits
      have habove : rank (ofRatio false 1 1) = some 0x3FF0000000000000 := rfl
      rw [habove] at hu
      cases hu
      have := hunits.mono hranks (by simp only [withSign]; push_cast; nlinarith)
      omega
  · cases h


/-- The units of a decimal place are an exact value rounded to an integer. -/
theorem units_rounds {x : Float} {neg : Bool} {t m : ℕ} (hx : IsFinite x neg t m) (places : ℕ) :
    ∃ u, roundTo places x = ofRatio neg u (Nat.pow 10 places) ∧
      RoundsSigned id (unitsOf neg t m / 2 ^ 1074 * 10 ^ places) (withSign neg u) := by
  obtain ⟨hpos, hvalue⟩ := scaled_value (show 0 < 2 by decide) Nat.one_pos m ((t : ℤ) - 1074)
  refine ⟨units m (t - 1074) places, by rw [roundTo, hx.decoded], neg, _, rfl, ?_, ?_⟩
  · have hrounds := nearest_rounds ((scaled 2 m 1 (t - 1074)).1 * Nat.pow 10 places) hpos
    have hscale : (((scaled 2 m 1 (t - 1074)).1 * Nat.pow 10 places : ℕ) : ℚ) /
        (scaled 2 m 1 (t - 1074)).2 = |unitsOf neg t m / 2 ^ 1074 * 10 ^ places| := by
      have hten : ((Nat.pow 10 places : ℕ) : ℚ) = 10 ^ places := by exact_mod_cast rfl
      have hunit : (0 : ℚ) < 2 ^ 1074 := by positivity
      rw [Nat.cast_mul, hten, mul_div_right_comm, hvalue, abs_mul, abs_div, abs_unitsOf,
        abs_of_pos hunit, abs_of_pos (show (0 : ℚ) < 10 ^ places by positivity),
        zpow_sub₀ (by norm_num), zpow_natCast, Nat.cast_mul, Nat.cast_pow, Nat.cast_one, div_one]
      rw [mul_div_assoc]
      rfl
    rwa [hscale] at hrounds
  · have hpos : (0 : ℚ) ≤ m * 2 ^ t / 2 ^ 1074 * 10 ^ places := by positivity
    cases neg <;> simp only [unitsOf, withSign, Bool.false_eq_true, if_false, if_true] <;>
      push_cast
    · exact hpos
    · rw [neg_mul, neg_div, neg_mul]
      exact neg_nonpos.2 hpos

/-- Rounding to decimal places keeps the order of finite doubles. -/
theorem roundTo_mono {x y : Float} (places : ℕ) (hx : isFinite x = true) (hy : isFinite y = true)
    (h : x ≤ y) : roundTo places x ≤ roundTo places y := by
  obtain ⟨neg, t, m, hx⟩ := isFinite_iff.1 hx
  obtain ⟨neg', t', m', hy⟩ := isFinite_iff.1 hy
  obtain ⟨u, hu, hrounds⟩ := units_rounds hx places
  obtain ⟨u', hu', hrounds'⟩ := units_rounds hy places
  have hten : 0 < Nat.pow 10 places := Nat.pow_pos (by decide)
  have hunit : (0 : ℚ) < 2 ^ 1074 := by positivity
  have hint : (withSign neg u : ℤ) ≤ withSign neg' u' := by
    refine hrounds.mono strictMono_id rfl hrounds' ?_
    have := unitsOf_le hx hy h
    gcongr
  obtain ⟨r, hr, hv⟩ := rank_ofRatio neg u hten
  obtain ⟨s, hs, hv'⟩ := rank_ofRatio neg' u' hten
  rw [hu, hu']
  refine le_iff.2 ⟨r, s, hr, hs, hv.mono hv' ?_⟩
  have hcast : (withSign neg u : ℚ) ≤ withSign neg' u' := by exact_mod_cast hint
  gcongr

end Maquette.Decimal
