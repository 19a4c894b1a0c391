/-
Results that need no rounding. When the exact result of an operation on finite doubles is the value of a
double, the operation gives it. So doubles of small integers are added and taken from each other like the
integers, and nothing changes by a factor or a divisor of one.
-/
import Maquette.Proofs.Key

namespace Maquette.Decimal

open Float.Model (Format UnpackedFloat totalExponent)
open Float.Model.UnpackedFloat

/-! ## Values -/

/-- A finite double of a value. -/
def HasValue (x : Float) (v : ℚ) : Prop := ∃ neg t m, IsFinite x neg t m ∧ unitsOf neg t m = v * 2 ^ 1074

section Values

variable {x y z : Float} {v w : ℚ} {r : ℤ}

theorem HasValue.ranks (h : HasValue x v) : ∃ r, rank x = some r ∧ RanksAs (v * 2 ^ 1074) r := by
  obtain ⟨neg, t, m, hx, hunits⟩ := h
  exact ⟨_, hx.ranked, hunits ▸ ranksAs_self hx.canonical hx.below⟩

theorem HasValue.isFinite (h : HasValue x v) : isFinite x = true :=
  have ⟨neg, t, m, hx, _⟩ := h
  isFinite_iff.2 ⟨neg, t, m, hx⟩

theorem exists_hasValue (h : isFinite x = true) : ∃ v, HasValue x v := by
  obtain ⟨neg, t, m, hx⟩ := isFinite_iff.1 h
  exact ⟨unitsOf neg t m / 2 ^ 1074, neg, t, m, hx, (div_mul_cancel₀ _ (by positivity)).symm⟩

/-- Doubles of one value have one rank, and a double of this rank has the value. -/
theorem HasValue.of_rank (h : HasValue x v) (hr : rank y = some r) (hv : RanksAs (v * 2 ^ 1074) r) :
    HasValue y v := by
  obtain ⟨neg, t, m, hx, hunits⟩ := h
  obtain rfl : withSign neg (t * leastMantissa + m) = r :=
    (hunits ▸ ranksAs_self hx.canonical hx.below).unique hv
  have hbelow := hx.below
  have hfinite : Decimal.isFinite y = true := by
    refine isFinite_of_rank hr ?_ ?_ <;> cases neg <;> simp only [withSign] <;> omega
  obtain ⟨neg', t', m', hy⟩ := isFinite_iff.1 hfinite
  exact ⟨neg', t', m', hy, ((rank_eq_iff hx hy).1 (hx.ranked.trans hr.symm)).symm.trans hunits⟩

theorem rank_of_code {x : Float} (h : rank x = some r) : r = withSign (isNegative x) (code x) := by
  unfold rank at h
  split at h <;> cases h
  rfl

theorem eq_of_rank (hx : rank x = some r) (hy : rank y = some r) (hr : r ≠ 0) : x = y := by
  refine eq_of_code ((code_of_rank hx).trans (code_of_rank hy).symm) ?_
  have hsame := (rank_of_code hx).symm.trans (rank_of_code hy)
  have hsign := rank_of_code hx
  cases hnx : isNegative x <;> cases hny : isNegative y <;> rw [hnx, hny] at hsame <;>
    rw [hnx] at hsign <;> simp only [withSign] at hsame hsign <;> omega

theorem HasValue.le (hx : HasValue x v) (hy : HasValue y w) (h : x ≤ y) : v ≤ w := by
  obtain ⟨neg, t, m, hx, hv⟩ := hx
  obtain ⟨neg', t', m', hy, hw⟩ := hy
  have hle := unitsOf_le hx hy h
  rw [hv, hw] at hle
  exact le_of_mul_le_mul_right hle (by positivity)

/-- A value other than zero has one double. -/
theorem HasValue.eq (hx : HasValue x v) (hy : HasValue y v) (hv : v ≠ 0) : x = y := by
  obtain ⟨r, hrx, hrankx⟩ := hx.ranks
  obtain ⟨r', hry, hranky⟩ := hy.ranks
  obtain rfl := hrankx.unique hranky
  refine eq_of_rank hrx hry ?_
  rintro rfl
  obtain ⟨neg, t, m, hfinite, hunits⟩ := hx
  have hzero : t * leastMantissa + m = 0 := by
    have := hfinite.ranked.symm.trans hrx
    cases neg <;> simp only [withSign, Option.some.injEq] at this <;> omega
  obtain rfl : m = 0 := by omega
  rw [unitsOf_zero] at hunits
  exact hv ((mul_eq_zero.1 hunits.symm).resolve_right (by positivity))

/-! ## Operations -/

theorem HasValue.add (hx : HasValue x v) (hy : HasValue y w) (hz : HasValue z (v + w)) :
    HasValue (x + y) (v + w) := by
  obtain ⟨neg, t, m, hx, hv⟩ := hx
  obtain ⟨neg', t', m', hy, hw⟩ := hy
  obtain ⟨r, hr, hranks⟩ := rank_add hx hy
  rw [hv, hw, ← add_mul] at hranks
  exact hz.of_rank hr hranks

theorem HasValue.sub (hx : HasValue x v) (hy : HasValue y w) (hz : HasValue z (v - w)) :
    HasValue (x - y) (v - w) := by
  obtain ⟨neg, t, m, hx, hv⟩ := hx
  obtain ⟨neg', t', m', hy, hw⟩ := hy
  obtain ⟨r, hr, hranks⟩ := rank_sub hx hy
  rw [hv, hw, ← sub_mul] at hranks
  exact hz.of_rank hr hranks

theorem HasValue.mul (hx : HasValue x v) (hy : HasValue y w) (hz : HasValue z (v * w)) :
    HasValue (x * y) (v * w) := by
  obtain ⟨neg, t, m, hx, hv⟩ := hx
  obtain ⟨neg', t', m', hy, hw⟩ := hy
  obtain ⟨r, hr, hranks⟩ := rank_mul hx hy
  have hunit : (2 : ℚ) ^ 1074 ≠ 0 := by positivity
  rw [hv, hw, mul_mul_mul_comm, ← mul_assoc, mul_div_assoc, div_self hunit, mul_one] at hranks
  exact hz.of_rank hr hranks

theorem HasValue.eq_zero (hx : HasValue x 0) : x = 0 ∨ x = -0 := by
  obtain ⟨r, hr, hranks⟩ := hx.ranks
  rw [zero_mul] at hranks
  obtain rfl : r = 0 := hranks.unique ranksAs_zero
  have hcode : code x = 0 := code_of_rank hr
  cases hneg : isNegative x with
  | false => exact .inl (eq_of_code hcode hneg)
  | true => exact .inr (eq_of_code hcode hneg)

end Values

/-! ## Quotients of integers -/

section Ratios

variable {num den num' den' : ℕ}

theorem ofRatio_mono (hden : 0 < den) (hden' : 0 < den') (h : num * den' ≤ num' * den) :
    ofRatio false num den ≤ ofRatio false num' den' := by
  obtain ⟨r, hr, hranks⟩ := rank_ofRatio false num hden
  obtain ⟨r', hr', hranks'⟩ := rank_ofRatio false num' hden'
  refine le_iff.2 ⟨r, r', hr, hr', hranks.mono hranks' ?_⟩
  simp only [withSign, Int.cast_natCast]
  have hd : (0 : ℚ) < den := by exact_mod_cast hden
  have hd' : (0 : ℚ) < den' := by exact_mod_cast hden'
  have hle : (num : ℚ) / den ≤ num' / den' := by
    rw [div_le_div_iff₀ hd hd']
    exact_mod_cast h
  exact mul_le_mul_of_nonneg_right hle (by positivity)

theorem exists_bits (neg : Bool) (num den : ℕ) :
    ∃ c, ofRatio neg num den = ofBits neg c ∧ c ≤ infinityBits := by
  unfold ofRatio
  split
  · exact ⟨0, rfl, Nat.zero_le _⟩
  · dsimp only
    split
    · rename_i hsmall
      exact ⟨_, rfl, hsmall.le.trans (by decide)⟩
    · exact ⟨_, rfl, min_le_right _ _⟩

/-- The double of a fraction does not depend on how the fraction is written. -/
theorem ofRatio_congr (neg : Bool) (hden : 0 < den) (hden' : 0 < den') (h : num * den' = num' * den) :
    ofRatio neg num den = ofRatio neg num' den' := by
  obtain ⟨c, hc, hle⟩ := exists_bits neg num den
  obtain ⟨c', hc', hle'⟩ := exists_bits neg num' den'
  obtain ⟨r, hr, hranks⟩ := rank_ofRatio neg num hden
  obtain ⟨r', hr', hranks'⟩ := rank_ofRatio neg num' hden'
  have hvalue : (withSign neg num : ℚ) / den = withSign neg num' / den' := by
    have hd : (den : ℚ) ≠ 0 := by exact_mod_cast hden.ne'
    have hd' : (den' : ℚ) ≠ 0 := by exact_mod_cast hden'.ne'
    have hcross : (num : ℚ) * den' = num' * den := by exact_mod_cast h
    rw [div_eq_div_iff hd hd']
    cases neg <;> simp only [withSign] <;> push_cast <;> linarith
  rw [hvalue] at hranks
  obtain rfl := hranks.unique hranks'
  rw [hc, rank_ofBits neg hle] at hr
  rw [hc', rank_ofBits neg hle'] at hr'
  have hsame : c = c' := by
    have := hr.trans hr'.symm
    cases neg <;> simp only [withSign, Option.some.injEq] at this <;> omega
  rw [hc, hc', hsame]

/-! ## Small integers -/

/-- A double with the rank of a mantissa in its place has the value of the mantissa. -/
theorem hasValue_of_canonical {x : Float} {t m : ℕ} {v : ℚ} {r : ℤ} (hc : Canonical t m)
    (hlt : t * leastMantissa + m < infinityBits) (hv : (m : ℚ) * 2 ^ t = v * 2 ^ 1074) (hr : rank x = some r)
    (hranks : RanksAs (v * 2 ^ 1074) r) : HasValue x v := by
  have hunits : unitsOf false t m = v * 2 ^ 1074 := by
    rw [← hv, unitsOf, withSign, Int.cast_natCast]
  obtain rfl : withSign false (t * leastMantissa + m) = r := (hunits ▸ ranksAs_self hc hlt).unique hranks
  obtain ⟨neg', t', m', hx⟩ := isFinite_iff.1
    (isFinite_of_rank hr (by simp only [withSign]; omega) (by simp only [withSign]; omega))
  refine ⟨neg', t', m', hx, hunits ▸ ?_⟩
  have hsame := Option.some.inj (hx.ranked.symm.trans hr)
  have hx' := unitsAt_eq hx.canonical.1 hx.canonical.2.le
  have hself := unitsAt_eq hc.1 hc.2.le
  unfold unitsOf
  cases neg' with
  | false =>
    simp only [withSign, Nat.cast_inj] at hsame
    rw [hsame, hself] at hx'
    simp only [withSign, Int.cast_natCast]
    exact_mod_cast hx'.symm
  | true =>
    simp only [withSign] at hsame
    obtain ⟨rfl, rfl⟩ : m = 0 ∧ m' = 0 := by omega
    simp [withSign]

/-- The double of a fraction that needs no rounding has its value. -/
theorem hasValue_dyadic {n s : ℕ} (hn : n < 2 ^ 53) (hs : s ≤ 1022) :
    HasValue (ofRatio false n (2 ^ s)) (n / 2 ^ s) := by
  obtain ⟨r, hr, hranks⟩ := rank_ofRatio false n (show 0 < 2 ^ s by positivity)
  simp only [withSign, Int.cast_natCast, Nat.cast_pow, Nat.cast_ofNat] at hranks
  by_cases hzero : n = 0
  · refine hasValue_of_canonical (t := 0) (m := 0) ⟨.inl rfl, by decide⟩ (by decide) ?_ hr hranks
    simp [hzero]
  · have hlog : n.log2 ≤ 52 := by
      have := (Nat.log2_lt hzero).2 hn
      omega
    have hsplit : leastMantissa = 2 ^ n.log2 * 2 ^ (52 - n.log2) := by
      rw [← pow_add, Nat.add_sub_cancel' hlog]
      rfl
    have hcanonical : Canonical (n.log2 + 1022 - s) (n * 2 ^ (52 - n.log2)) := by
      have hpos : 0 < 2 ^ (52 - n.log2) := by positivity
      refine ⟨.inr ?_, ?_⟩
      · rw [hsplit]
        exact Nat.mul_le_mul_right _ (Nat.log2_self_le hzero)
      · rw [hsplit, ← mul_assoc, mul_comm 2, ← pow_succ]
        exact Nat.mul_lt_mul_of_pos_right Nat.lt_log2_self hpos
    refine hasValue_of_canonical hcanonical ?_ ?_ hr hranks
    · have := hcanonical.2
      unfold infinityBits
      unfold leastMantissa at *
      omega
    · have hexp : (2 : ℚ) ^ 1074 = 2 ^ s * (2 ^ (52 - n.log2) * 2 ^ (n.log2 + 1022 - s)) := by
        rw [← pow_add, ← pow_add]
        congr 1
        omega
      rw [hexp, ← mul_assoc, div_mul_cancel₀ _ (by positivity), Nat.cast_mul, Nat.cast_pow, Nat.cast_ofNat, mul_assoc]

theorem hasValue_whole {n : ℕ} (hn : n < 2 ^ 53) : HasValue (ofRatio false n 1) n := by
  have h := hasValue_dyadic hn (show 0 ≤ 1022 by decide)
  rwa [pow_zero, pow_zero, div_one] at h

theorem hasValue_one : HasValue 1 1 := by
  have : HasValue (ofRatio false 1 1) ((1 : ℕ) : ℚ) := hasValue_whole (by norm_num)
  rwa [Nat.cast_one, show ofRatio false 1 1 = 1 from rfl] at this

/-- The sum of the doubles of small integers. -/
theorem whole_add {m n : ℕ} (h : m + n < 2 ^ 53) :
    ofRatio false m 1 + ofRatio false n 1 = ofRatio false (m + n) 1 := by
  by_cases hzero : m + n = 0
  · obtain ⟨rfl, rfl⟩ : m = 0 ∧ n = 0 := by omega
    rfl
  · have hsum : HasValue (ofRatio false (m + n) 1) ((m : ℚ) + n) := by exact_mod_cast hasValue_whole h
    refine ((hasValue_whole (by omega)).add (hasValue_whole (by omega)) hsum).eq hsum ?_
    exact_mod_cast hzero

theorem ofInt?_whole {n : ℕ} (h : n < 2 ^ 53) : ofInt? n = some (ofRatio false n 1) := by
  have hneg : decide ((n : ℤ) < 0) = false := decide_eq_false (by omega)
  unfold ofInt?
  simp only [hneg, Int.natAbs_natCast, (hasValue_whole h).isFinite, if_true]

/-! ## Decoded values -/

/-- The fraction of a mantissa in its place. -/
theorem magnitude_spec (t m : ℕ) : 0 < (magnitude m (t - 1074)).2 ∧
    ((magnitude m (t - 1074)).1 : ℚ) / (magnitude m (t - 1074)).2 * 2 ^ 1074 = m * 2 ^ t := by
  obtain ⟨hden, hvalue⟩ := scaled_value (show 0 < 2 by decide) one_pos m ((t : ℤ) - 1074)
  refine ⟨hden, ?_⟩
  rw [magnitude, hvalue, Nat.cast_one, div_one, Nat.cast_ofNat, zpow_sub₀ two_ne_zero, zpow_natCast,
    ← mul_div_assoc]
  exact div_mul_cancel₀ _ (by positivity)


theorem HasValue.floatCode {x : Float} {v : ℚ} (hx : HasValue x v) : floatCode x = .number v := by
  obtain ⟨neg, t, m, hfinite, hunits⟩ := hx
  rw [Maquette.floatCode, hfinite.decoded]
  refine congrArg KeyCode.number ?_
  rw [zpow_sub₀ two_ne_zero, zpow_natCast, ← mul_div_assoc]
  exact (div_eq_iff (by positivity)).2 hunits

theorem intEqFloat_whole {n : ℕ} (hn : n < 2 ^ 53) : intEqFloat n (ofRatio false n 1) = true := by
  rw [intEqFloat_iff, (hasValue_whole hn).floatCode, Int.cast_natCast]

/-- What a double of a positive value is decoded to. -/
theorem HasValue.decoded_of_pos {x : Float} {v : ℚ} (hx : HasValue x v) (hv : 0 < v) :
    ∃ t m, IsFinite x false t m ∧ m ≠ 0 ∧ (m : ℚ) * 2 ^ t = v * 2 ^ 1074 := by
  obtain ⟨neg, t, m, hfinite, hunits⟩ := hx
  have hpos : 0 < unitsOf neg t m := hunits ▸ by positivity
  have hm : m ≠ 0 := by
    rintro rfl
    rw [unitsOf_zero] at hpos
    exact lt_irrefl _ hpos
  cases neg with
  | false => exact ⟨t, m, hfinite, hm, hunits ▸ by rw [unitsOf, withSign, Int.cast_natCast]⟩
  | true =>
    have hle : (0 : ℚ) ≤ m * 2 ^ t := by positivity
    simp only [unitsOf, withSign] at hpos
    push_cast at hpos
    linarith

/-! ## Absolute values -/

theorem HasValue.abs_of_pos {x : Float} {v : ℚ} (hx : HasValue x v) (hv : 0 < v) : x.abs = x := by
  obtain ⟨t, m, hfinite, hm, -⟩ := hx.decoded_of_pos hv
  have hrank : rank x.abs = rank x := by
    have habs : (decode x).unpacked.abs = (decode x).unpacked := by
      rw [hfinite.decoded, Decoded.unpacked_finite _ hm]
      rfl
    rw [abs_eq, habs, rank_repack]
  obtain ⟨r, hr, hranks⟩ := hx.ranks
  exact (hx.of_rank (hrank.trans hr) hranks).eq hx hv.ne'

/-- How far the doubles of small integers are apart. -/
theorem whole_sub_abs {m n : ℕ} (hm : m < 2 ^ 53) (hn : n < 2 ^ 53) :
    (ofRatio false m 1 - ofRatio false n 1).abs = ofRatio false (max m n - min m n) 1 := by
  wlog hle : n ≤ m generalizing m n
  · rw [abs_sub_comm, max_comm, min_comm]
    exact this hn hm (by omega)
  rw [max_eq_left hle, min_eq_right hle]
  have hvalue : HasValue (ofRatio false (m - n) 1) ((m : ℚ) - n) := by
    have := hasValue_whole (show m - n < 2 ^ 53 by omega)
    rwa [Nat.cast_sub hle] at this
  have hdifference := (hasValue_whole hm).sub (hasValue_whole hn) hvalue
  by_cases hzero : m = n
  · subst hzero
    rw [sub_self] at hdifference
    rw [Nat.sub_self]
    rcases hdifference.eq_zero with h | h <;> rw [h] <;> rfl
  · have hlt : (n : ℚ) < m := by exact_mod_cast lt_of_le_of_ne hle (Ne.symm hzero)
    rw [hdifference.abs_of_pos (by linarith)]
    exact hdifference.eq hvalue (by linarith)

/-! ## Factors and divisors of one -/

theorem mul_one_eq {x : Float} (hx : isFinite x = true) : x * 1 = x := by
  obtain ⟨v, hv⟩ := exists_hasValue hx
  by_cases hzero : v = 0
  · subst hzero
    rcases hv.eq_zero with rfl | rfl <;> rfl
  · have hproduct := hv.mul hasValue_one (by rwa [mul_one])
    rw [mul_one] at hproduct
    exact hproduct.eq hv hzero

/-- Divided by one, a mantissa is shifted and cut again, without a remainder. -/
theorem divCore_one {t m : ℕ} (hm : m ≠ 0) (hc : Canonical t m) :
    ∃ s : ℕ, divCore Format.binary64 m (t - 1074) leastMantissa (-52) = (m * 2 ^ s, (t : ℤ) - 1074 - s, .exact) ∧
      ((t : ℤ) - 1074 - s ≤ -1074 ∨ leastMantissa ≤ m * 2 ^ s) := by
  have hlog : m.log2 ≤ 52 := by
    have := (Nat.log2_lt hm).2 (show m < 2 ^ 53 from hc.2)
    omega
  obtain ⟨s, hs, hplace⟩ : ∃ s : ℕ, min ((t : ℤ) - 1074 - -52)
      (Format.binary64.targetExponent (totalExponent m (t - 1074) - totalExponent leastMantissa (-52))) =
        t - 1074 - s ∧
      ((t : ℤ) - 1074 - s ≤ -1074 ∨ leastMantissa ≤ m * 2 ^ s) := by
    have hone : totalExponent leastMantissa (-52) = 1 := by decide
    have htarget : Format.binary64.targetExponent (totalExponent m ((t : ℤ) - 1074) - 1) =
        max ((m.log2 : ℤ) + (t - 1074) - 53) (-1074) := by
      simp only [Format.targetExponent, totalExponent, Format.mantissaBits, Format.minExponent]
      omega
    rw [hone, htarget]
    rcases hc.1 with rfl | hlow
    · exact ⟨0, by omega, .inl (by omega)⟩
    · have hfull : m.log2 = 52 := le_antisymm hlog ((Nat.le_log2 hm).2 hlow)
      rcases Nat.eq_zero_or_pos t with rfl | ht
      · exact ⟨0, by omega, .inl (by omega)⟩
      · exact ⟨1, by omega, .inr (by omega)⟩
  refine ⟨s, ?_, hplace⟩
  have hshift : ((t : ℤ) - 1074 - -52 - ((t : ℤ) - 1074 - s)).toNat = s + 52 := by omega
  have hproduct : m * 2 ^ (s + 52) = m * 2 ^ s * leastMantissa := by
    rw [pow_add, ← mul_assoc]
    rfl
  unfold divCore
  simp only [hs, hshift, Nat.shiftLeft_eq, hproduct, Nat.mul_mod_left, accuracyOfFraction, if_true]
  rw [Nat.mul_div_cancel _ (by decide)]

theorem div_one_eq {x : Float} (hx : isFinite x = true) : x / 1 = x := by
  obtain ⟨v, hv⟩ := exists_hasValue hx
  by_cases hzero : v = 0
  · subst hzero
    rcases hv.eq_zero with rfl | rfl <;> rfl
  · have hself := hv
    obtain ⟨neg, t, m, hfinite, hunits⟩ := hv
    have hm : m ≠ 0 := by
      rintro rfl
      rw [unitsOf_zero] at hunits
      exact hzero ((mul_eq_zero.1 hunits.symm).resolve_right (by positivity))
    have hone : (decode 1).unpacked = .finite .positive leastMantissa (-52) (by decide) := by
      rw [show decode 1 = .finite false leastMantissa (-52) from rfl]
      exact Decoded.unpacked_finite false (by decide) _
    have hsign : signOf neg / .positive = signOf neg := by cases neg <;> rfl
    obtain ⟨s, hcore, hplace⟩ := divCore_one hm hfinite.canonical
    obtain ⟨r, hr, hranks⟩ := rank_round (Nat.mul_ne_zero hm (by positivity)) hplace neg
    have hquotient : x / 1 = .ofModel (Float.Model.pack
        (roundWithAccuracy Format.binary64 (signOf neg) (m * 2 ^ s) (t - 1074 - s) .exact)) := by
      rw [div_eq, hfinite.decoded, Decoded.unpacked_finite _ hm, hone]
      show Float.ofModel (Float.Model.pack (match divCore Format.binary64 m (t - 1074) leastMantissa (-52) with
        | (m, e, accuracy) => roundWithAccuracy Format.binary64 (signOf neg / .positive) m e accuracy)) = _
      rw [hcore, hsign]
    have hvalue : (withSign neg (m * 2 ^ s) : ℚ) * 2 ^ ((t : ℤ) - 1074 - s + 1074) = v * 2 ^ 1074 := by
      have hexp : (t : ℤ) - 1074 - s + 1074 = t - s := by omega
      rw [hexp, zpow_sub₀ two_ne_zero, zpow_natCast, zpow_natCast, ← hunits, unitsOf]
      cases neg <;> simp only [withSign] <;> push_cast <;> field_simp
    rw [hvalue] at hranks
    rw [← hquotient] at hr
    exact (hself.of_rank hr hranks).eq hself hzero

end Ratios

end Maquette.Decimal
