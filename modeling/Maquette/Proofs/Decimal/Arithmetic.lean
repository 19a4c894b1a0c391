/-
Arithmetic of doubles keeps the order. A product, a sum and a difference of finite doubles have the
rank that the exact result is rounded to, and rounding keeps the order of exact results; what is left
are the infinities, which stand at the ends of the order.
-/
import Maquette.Proofs.Decimal.Rounding

namespace Maquette.Decimal

open Float.Model (Format UnpackedFloat)
open Float.Model.UnpackedFloat

/-! ## Ranks of exact results -/

/-- A fraction of either sign is rounded to a signed place of the grid. -/
def RoundsSigned (grid : ℕ → ℕ) (v : ℚ) (n : ℤ) : Prop :=
  ∃ (neg : Bool) (c : ℕ), n = withSign neg c ∧ RoundsTo grid |v| c ∧ if neg then v ≤ 0 else 0 ≤ v

theorem RoundsSigned.mono {grid : ℕ → ℕ} (hg : StrictMono grid) (hzero : grid 0 = 0) {v v' : ℚ}
    {n n' : ℤ} (h : RoundsSigned grid v n) (h' : RoundsSigned grid v' n') (hv : v ≤ v') : n ≤ n' := by
  obtain ⟨neg, c, rfl, hc, hsign⟩ := h
  obtain ⟨neg', c', rfl, hc', hsign'⟩ := h'
  have hself : ∀ {c : ℕ}, RoundsTo grid 0 c → c = 0 := fun hc => by
    have hself := RoundsTo.self hg 0
    rw [hzero, Nat.cast_zero] at hself
    exact hc.unique hself
  cases neg <;> cases neg' <;> simp only [Bool.false_eq_true, if_false, if_true] at hsign hsign'
  · rw [abs_of_nonneg hsign] at hc
    rw [abs_of_nonneg hsign'] at hc'
    have := hc.mono hc' hv
    simp only [withSign]
    omega
  · obtain rfl : v = 0 := by linarith
    obtain rfl : v' = 0 := by linarith
    rw [abs_zero] at hc hc'
    rw [hself hc, hself hc']
    exact le_refl 0
  · simp only [withSign]
    omega
  · rw [abs_of_nonpos hsign] at hc
    rw [abs_of_nonpos hsign'] at hc'
    have := hc'.mono hc (by linarith)
    simp only [withSign]
    omega

theorem RoundsSigned.zero {grid : ℕ → ℕ} (hg : StrictMono grid) (hzero : grid 0 = 0) :
    RoundsSigned grid 0 0 := by
  refine ⟨false, 0, rfl, ?_, le_refl 0⟩
  have := RoundsTo.self hg 0
  rwa [hzero, Nat.cast_zero, ← abs_zero] at this

/-- Ranks end with those of the infinities. -/
def clamp (n : ℤ) : ℤ := max (-infinityBits) (min n infinityBits)

theorem clamp_withSign (neg : Bool) (c : ℕ) :
    clamp (withSign neg c) = withSign neg (min c infinityBits) := by
  unfold clamp
  cases neg <;> simp only [withSign] <;> omega

/-- The rank that a fraction is rounded to; it is told in units of the least positive double. -/
def RanksAs (v : ℚ) (r : ℤ) : Prop := ∃ n, RoundsSigned unitsAt v n ∧ r = clamp n

/-- Rounding to ranks keeps the order. -/
theorem RanksAs.mono {v v' : ℚ} {r r' : ℤ} (h : RanksAs v r) (h' : RanksAs v' r') (hv : v ≤ v') :
    r ≤ r' := by
  obtain ⟨n, hn, rfl⟩ := h
  obtain ⟨n', hn', rfl⟩ := h'
  have := hn.mono unitsAt_strictMono rfl hn' hv
  unfold clamp
  omega

theorem ranksAs_zero : RanksAs 0 0 := ⟨0, .zero unitsAt_strictMono rfl, rfl⟩

theorem RanksAs.bounds {v : ℚ} {r : ℤ} (h : RanksAs v r) :
    -infinityBits ≤ r ∧ r ≤ infinityBits := by
  obtain ⟨n, -, rfl⟩ := h
  unfold clamp
  omega

/-! ## Values -/

/-- The value of a finite double in units of the least positive one. -/
def unitsOf (neg : Bool) (t m : ℕ) : ℚ := withSign neg m * 2 ^ t

theorem unitsOf_zero (neg : Bool) (t : ℕ) : unitsOf neg t 0 = 0 := by
  cases neg <;> simp [unitsOf, withSign]

theorem abs_unitsOf (neg : Bool) (t m : ℕ) : |unitsOf neg t m| = (m * 2 ^ t : ℕ) := by
  unfold unitsOf
  rw [abs_mul, abs_of_nonneg (show (0 : ℚ) ≤ 2 ^ t by positivity)]
  cases neg <;> simp [withSign]

/-- A finite double, with what it is decoded to. -/
structure IsFinite (x : Float) (neg : Bool) (t m : ℕ) : Prop where
  decoded : decode x = .finite neg m (t - 1074)
  canonical : Canonical t m
  below : t * leastMantissa + m < infinityBits
  ranked : rank x = some (withSign neg (t * leastMantissa + m))

theorem IsFinite.of_decode {x : Float} {neg : Bool} {m : ℕ} {e : ℤ} (h : decode x = .finite neg m e) :
    ∃ t, IsFinite x neg t m := by
  obtain ⟨t, rfl, hc, hlt, hr⟩ := rank_of_finite h
  exact ⟨t, h, hc, hlt, hr⟩

/-- The value of a finite double is rounded to its own rank. -/
theorem ranksAs_self {neg : Bool} {t m : ℕ} (hc : Canonical t m)
    (hlt : t * leastMantissa + m < infinityBits) :
    RanksAs (unitsOf neg t m) (withSign neg (t * leastMantissa + m)) := by
  refine ⟨_, ⟨neg, t * leastMantissa + m, rfl, ?_, ?_⟩, by rw [clamp_withSign, min_eq_left hlt.le]⟩
  · rw [abs_unitsOf, ← unitsAt_eq hc.1 hc.2.le]
    exact .self unitsAt_strictMono _
  · have hpos : (0 : ℚ) ≤ m * 2 ^ t := by positivity
    cases neg <;> simp [unitsOf, withSign]

/-! ## Rounded results -/

/-- A mantissa and an exponent that are rounded to a double have the rank of what they stand for. -/
theorem rank_round {m : ℕ} (hm : m ≠ 0) {e : ℤ} (he : e ≤ -1074 ∨ leastMantissa ≤ m) (neg : Bool) :
    ∃ r, rank (.ofModel (Float.Model.pack
      (roundWithAccuracy Format.binary64 (signOf neg) m e .exact))) = some r ∧
      RanksAs (withSign neg m * 2 ^ (e + 1074)) r := by
  obtain ⟨t, r, hplaced, hrounds, ht, hr⟩ := roundWithAccuracy_placed hm he neg
  refine ⟨_, ?_, _, ⟨neg, t * leastMantissa + r, rfl, ?_, ?_⟩, rfl⟩
  · rw [hplaced, rank_pack_placed ht hr, clamp_withSign]
  · rw [abs_mul, abs_of_pos (show (0 : ℚ) < 2 ^ (e + 1074) by positivity)]
    cases neg <;> simpa [withSign] using hrounds
  · have hpos : (0 : ℚ) ≤ m * 2 ^ (e + 1074) := by positivity
    cases neg <;> simp only [withSign] <;> push_cast <;> simpa using hpos

/-- A mantissa with any exponent is brought to its place before it is rounded. -/
theorem rank_round_shifted {m : ℕ} (hm : m ≠ 0) (e : ℤ) (neg : Bool) :
    ∃ r, rank (.ofModel (Float.Model.pack (UnpackedFloat.round Format.binary64 (signOf neg) m e))) =
      some r ∧ RanksAs (withSign neg m * 2 ^ (e + 1074)) r := by
  obtain ⟨k, hk⟩ : ∃ k : ℕ, (e - max (m.log2 + e - 52) (-1074)).toNat = k := ⟨_, rfl⟩
  have hpow : 0 < 2 ^ k := by positivity
  have hround : UnpackedFloat.round Format.binary64 (signOf neg) m e =
      roundWithAccuracy Format.binary64 (signOf neg) (m * 2 ^ k) (e - k) .exact := by
    unfold UnpackedFloat.round decreaseExponent
    simp only [targetExponent_eq, hk, Nat.shiftLeft_eq]
  have hplace : e - k ≤ -1074 ∨ leastMantissa ≤ m * 2 ^ k := by
    by_cases hlow : e - k ≤ -1074
    · exact .inl hlow
    · right
      have hlog : 52 ≤ m.log2 + k := by omega
      calc leastMantissa = 2 ^ 52 := rfl
        _ ≤ 2 ^ (m.log2 + k) := Nat.pow_le_pow_right (by decide) hlog
        _ = 2 ^ m.log2 * 2 ^ k := pow_add 2 _ _
        _ ≤ m * 2 ^ k := Nat.mul_le_mul_right _ (Nat.log2_self_le hm)
  obtain ⟨r, hr, hv⟩ := rank_round (Nat.mul_ne_zero hm hpow.ne') hplace neg
  rw [hround]
  refine ⟨r, hr, ?_⟩
  have hvalue : (withSign neg (m * 2 ^ k) : ℚ) * 2 ^ (e - k + 1074) =
      withSign neg m * 2 ^ (e + 1074) := by
    have hexp : e - k + 1074 = e + 1074 - k := by omega
    rw [hexp, zpow_sub₀ (by norm_num), zpow_natCast]
    cases neg <;> simp only [withSign] <;> push_cast <;> field_simp
  rwa [hvalue] at hv

theorem rank_normalize (n : ℤ) (e : ℤ) :
    ∃ r, rank (.ofModel (Float.Model.pack (UnpackedFloat.normalize Format.binary64 n e .positive))) = some r ∧
      RanksAs (n * 2 ^ (e + 1074)) r := by
  unfold UnpackedFloat.normalize
  rcases lt_trichotomy n 0 with hn | rfl | hn
  · rw [show compare n 0 = .lt from Int.compare_eq_lt.2 hn]
    obtain ⟨r, hr, hv⟩ := rank_round_shifted (show (-n).toNat ≠ 0 by omega) e true
    refine ⟨r, hr, ?_⟩
    have hcast : withSign true (-n).toNat = n := by
      simp only [withSign]
      omega
    rwa [hcast] at hv
  · refine ⟨0, rank_pack_zero false, ?_⟩
    rw [Int.cast_zero, zero_mul]
    exact ranksAs_zero
  · rw [show compare n 0 = .gt from Int.compare_eq_gt.2 hn]
    obtain ⟨r, hr, hv⟩ := rank_round_shifted (show n.toNat ≠ 0 by omega) e false
    refine ⟨r, hr, ?_⟩
    have hcast : withSign false n.toNat = n := by
      simp only [withSign]
      omega
    rwa [hcast] at hv

/-! ## Products and sums -/

section Operations

variable {x y : Float} {neg neg' : Bool} {t t' m m' : ℕ}

theorem mul_eq (x y : Float) : x * y = .ofModel (Float.Model.pack
    (UnpackedFloat.mul Format.binary64 (decode x).unpacked (decode y).unpacked)) := by
  rw [← unpack_eq, ← unpack_eq]
  rfl

theorem add_eq (x y : Float) : x + y = .ofModel (Float.Model.pack
    (UnpackedFloat.add Format.binary64 (decode x).unpacked (decode y).unpacked)) := by
  rw [← unpack_eq, ← unpack_eq]
  rfl

theorem sub_eq (x y : Float) : x - y = .ofModel (Float.Model.pack
    (UnpackedFloat.sub Format.binary64 (decode x).unpacked (decode y).unpacked)) := by
  rw [← unpack_eq, ← unpack_eq]
  rfl

theorem signOf_mul (neg neg' : Bool) : signOf neg * signOf neg' = signOf (neg != neg') := by
  cases neg <;> cases neg' <;> rfl

/-- The product has the rank of the exact product. -/
theorem rank_mul (hx : IsFinite x neg t m) (hy : IsFinite y neg' t' m') :
    ∃ r, rank (x * y) = some r ∧ RanksAs (unitsOf neg t m * unitsOf neg' t' m' / 2 ^ 1074) r := by
  have hzero : ∀ s : Sign, ∃ neg, s = signOf neg := by
    rintro (_ | _)
    · exact ⟨true, rfl⟩
    · exact ⟨false, rfl⟩
  rw [mul_eq, hx.decoded, hy.decoded]
  by_cases hm : m = 0
  · subst hm
    refine ⟨0, ?_, by rw [unitsOf_zero, zero_mul, zero_div]; exact ranksAs_zero⟩
    rw [Decoded.unpacked_zero]
    by_cases hm' : m' = 0
    · subst hm'
      rw [Decoded.unpacked_zero, UnpackedFloat.mul, signOf_mul, rank_pack_zero]
    · rw [Decoded.unpacked_finite neg' hm', UnpackedFloat.mul, signOf_mul, rank_pack_zero]
  · rw [Decoded.unpacked_finite neg hm]
    by_cases hm' : m' = 0
    · subst hm'
      refine ⟨0, ?_, by rw [unitsOf_zero, mul_zero, zero_div]; exact ranksAs_zero⟩
      rw [Decoded.unpacked_zero, UnpackedFloat.mul, signOf_mul, rank_pack_zero]
    · rw [Decoded.unpacked_finite neg' hm', UnpackedFloat.mul, signOf_mul]
      have hplace : (t : ℤ) - 1074 + (t' - 1074) ≤ -1074 ∨ leastMantissa ≤ m * m' := by
        rcases hx.canonical.1 with rfl | hlow
        · rcases hy.canonical.1 with rfl | hlow'
          · exact .inl (by norm_num)
          · exact .inr (hlow'.trans (Nat.le_mul_of_pos_left _ (Nat.pos_of_ne_zero hm)))
        · exact .inr (hlow.trans (Nat.le_mul_of_pos_right _ (Nat.pos_of_ne_zero hm')))
      obtain ⟨r, hr, hv⟩ := rank_round (Nat.mul_ne_zero hm hm') hplace (neg != neg')
      refine ⟨r, hr, ?_⟩
      have hvalue : (withSign (neg != neg') (m * m') : ℚ) * 2 ^ ((t : ℤ) - 1074 + (t' - 1074) + 1074) =
          unitsOf neg t m * unitsOf neg' t' m' / 2 ^ 1074 := by
        have hexp : (t : ℤ) - 1074 + (t' - 1074) + 1074 = (t + t' : ℕ) - (1074 : ℕ) := by
          push_cast
          ring
        rw [hexp, zpow_sub₀ (by norm_num), zpow_natCast, zpow_natCast, pow_add]
        generalize (2 : ℚ) ^ 1074 = unit
        unfold unitsOf
        cases neg <;> cases neg' <;> simp only [withSign, bne_self_eq_false, Bool.false_bne,
          Bool.bne_false] <;> push_cast <;> ring
      rwa [hvalue] at hv

theorem signOf_apply (neg : Bool) (n : ℕ) : (signOf neg).apply n = withSign neg n := by
  cases neg <;> rfl

/-- The sum of what two finite doubles are decoded to has the rank of the exact sum. -/
theorem rank_add_decoded (hc : Canonical t m) (hlt : t * leastMantissa + m < infinityBits)
    (hc' : Canonical t' m') (hlt' : t' * leastMantissa + m' < infinityBits) (neg neg' : Bool) :
    ∃ r, rank (.ofModel (Float.Model.pack (UnpackedFloat.add Format.binary64
      (Decoded.finite neg m (t - 1074)).unpacked (Decoded.finite neg' m' (t' - 1074)).unpacked))) =
        some r ∧ RanksAs (unitsOf neg t m + unitsOf neg' t' m') r := by
  by_cases hm : m = 0
  · subst hm
    rw [Decoded.unpacked_zero, unitsOf_zero, zero_add]
    by_cases hm' : m' = 0
    · subst hm'
      refine ⟨0, ?_, by rw [unitsOf_zero]; exact ranksAs_zero⟩
      rw [Decoded.unpacked_zero, UnpackedFloat.add]
      split
      · exact rank_pack_zero neg
      · exact rank_pack_zero false
    · refine ⟨_, ?_, ranksAs_self hc' hlt'⟩
      rw [Decoded.unpacked_finite neg' hm']
      show rank (.ofModel (Float.Model.pack (.finite _ _ _ _))) = _
      rw [rank_pack_finite hc', min_eq_left hlt'.le]
  · rw [Decoded.unpacked_finite neg hm]
    by_cases hm' : m' = 0
    · subst hm'
      refine ⟨_, ?_, by rw [unitsOf_zero, add_zero]; exact ranksAs_self hc hlt⟩
      rw [Decoded.unpacked_zero]
      show rank (.ofModel (Float.Model.pack (.finite _ _ _ _))) = _
      rw [rank_pack_finite hc, min_eq_left hlt.le]
    · rw [Decoded.unpacked_finite neg' hm', UnpackedFloat.add]
      obtain ⟨least, hleast⟩ : ∃ least : ℕ, least = min t t' := ⟨_, rfl⟩
      have hmin : min ((t : ℤ) - 1074) (t' - 1074) = least - 1074 := by omega
      have hshift : ∀ t : ℕ, least ≤ t → ∀ m : ℕ,
          (decreaseExponent m ((t : ℤ) - 1074) (least - 1074)).1 = m * 2 ^ (t - least) := by
        intro t ht m
        have : ((t : ℤ) - 1074 - (least - 1074)).toNat = t - least := by omega
        simp only [decreaseExponent, this, Nat.shiftLeft_eq]
      have hvalue : ∀ t : ℕ, least ≤ t → ∀ (neg : Bool) (m : ℕ),
          (withSign neg (m * 2 ^ (t - least)) : ℚ) * 2 ^ least = unitsOf neg t m := by
        intro t ht neg m
        obtain ⟨k, rfl⟩ := Nat.exists_eq_add_of_le ht
        unfold unitsOf
        rw [Nat.add_sub_cancel_left, pow_add]
        cases neg <;> simp only [withSign] <;> push_cast <;> ring
      simp only [hmin, hshift t (by omega), hshift t' (by omega), signOf_apply]
      obtain ⟨r, hr, hv⟩ := rank_normalize
        (withSign neg (m * 2 ^ (t - least)) + withSign neg' (m' * 2 ^ (t' - least))) (least - 1074)
      refine ⟨r, hr, ?_⟩
      rwa [sub_add_cancel, zpow_natCast, Int.cast_add, add_mul, hvalue t (by omega),
        hvalue t' (by omega)] at hv

/-- The sum has the rank of the exact sum. -/
theorem rank_add (hx : IsFinite x neg t m) (hy : IsFinite y neg' t' m') :
    ∃ r, rank (x + y) = some r ∧ RanksAs (unitsOf neg t m + unitsOf neg' t' m') r := by
  rw [add_eq, hx.decoded, hy.decoded]
  exact rank_add_decoded hx.canonical hx.below hy.canonical hy.below neg neg'

/-- A difference is the sum with the negative. -/
theorem sub_eq_add (u v : UnpackedFloat) :
    UnpackedFloat.sub Format.binary64 u v = UnpackedFloat.add Format.binary64 u v.neg := by
  have happly : ∀ (s : Sign) (n : ℤ), (-s).apply n = -s.apply n := by
    rintro (_ | _) n
    · exact (neg_neg n).symm
    · rfl
  cases u <;> cases v <;> first
    | rfl
    | simp only [UnpackedFloat.sub, UnpackedFloat.add, UnpackedFloat.neg, happly, sub_eq_add_neg]

/-- The difference has the rank of the exact difference. -/
theorem rank_sub (hx : IsFinite x neg t m) (hy : IsFinite y neg' t' m') :
    ∃ r, rank (x - y) = some r ∧ RanksAs (unitsOf neg t m - unitsOf neg' t' m') r := by
  have hneg : (Decoded.finite neg' m' (t' - 1074)).unpacked.neg =
      (Decoded.finite (!neg') m' (t' - 1074)).unpacked := by
    by_cases hm' : m' = 0
    · subst hm'
      cases neg' <;> rfl
    · rw [Decoded.unpacked_finite neg' hm', Decoded.unpacked_finite _ hm']
      cases neg' <;> rfl
  have hvalue : unitsOf (!neg') t' m' = -unitsOf neg' t' m' := by
    cases neg' <;> simp [unitsOf, withSign]
  rw [sub_eq, hx.decoded, hy.decoded, sub_eq_add, hneg, sub_eq_add_neg (unitsOf neg t m),
    ← hvalue]
  exact rank_add_decoded hx.canonical hx.below hy.canonical hy.below neg _

end Operations

/-! ## Arithmetic and order -/

section Order

variable {x x' y y' c : Float}

theorem isFinite_iff : isFinite x = true ↔ ∃ neg t m, IsFinite x neg t m := by
  constructor
  · intro h
    unfold isFinite at h
    cases hx : decode x with
    | nan =>
      rw [hx] at h
      cases h
    | infinite neg =>
      rw [hx] at h
      cases h
    | finite neg m e =>
      obtain ⟨t, hx⟩ := IsFinite.of_decode hx
      exact ⟨neg, t, m, hx⟩
  · rintro ⟨neg, t, m, h⟩
    rw [isFinite, h.decoded]

/-- The values of finite doubles are in the order of the doubles. -/
theorem unitsOf_le {neg neg' : Bool} {t t' m m' : ℕ} (hx : IsFinite x neg t m)
    (hy : IsFinite y neg' t' m') (h : x ≤ y) : unitsOf neg t m ≤ unitsOf neg' t' m' := by
  obtain ⟨r, s, hr, hs, hle⟩ := le_iff.1 h
  obtain rfl := Option.some.inj (hx.ranked.symm.trans hr)
  obtain rfl := Option.some.inj (hy.ranked.symm.trans hs)
  have hux := unitsAt_eq hx.canonical.1 hx.canonical.2.le
  have huy := unitsAt_eq hy.canonical.1 hy.canonical.2.le
  have hunits : ∀ neg t m, unitsOf neg t m = (withSign neg (m * 2 ^ t) : ℤ) := by
    intro neg t m
    unfold unitsOf
    cases neg <;> simp [withSign]
  rw [hunits, hunits, ← hux, ← huy]
  generalize t * leastMantissa + m = a at hle
  generalize t' * leastMantissa + m' = b at hle
  have hmono := unitsAt_strictMono.monotone
  rw [Int.cast_le]
  cases neg <;> cases neg' <;> simp only [withSign] at hle ⊢
  · exact_mod_cast hmono (show a ≤ b by omega)
  · obtain rfl : a = 0 := by omega
    obtain rfl : b = 0 := by omega
    exact le_refl 0
  · omega
  · have := hmono (show b ≤ a by omega)
    omega

/-- What is at most a finite double is finite or the negative infinity. -/
theorem finite_or_bottom (h : x ≤ y) (hy : isFinite y = true) :
    (∃ neg t m, IsFinite x neg t m) ∨ decode x = .infinite true := by
  obtain ⟨neg', t', m', hy⟩ := isFinite_iff.1 hy
  obtain ⟨r, s, hr, hs, hle⟩ := le_iff.1 h
  obtain rfl := Option.some.inj (hy.ranked.symm.trans hs)
  cases hx : decode x with
  | nan =>
    rw [rank_of_nan hx] at hr
    cases hr
  | infinite neg =>
    cases neg with
    | true => exact .inr rfl
    | false =>
      rw [rank_of_infinite hx] at hr
      cases hr
      have := hy.below
      cases neg' <;> simp only [withSign] at hle <;> omega
  | finite neg m e =>
    obtain ⟨t, hx⟩ := IsFinite.of_decode hx
    exact .inl ⟨neg, t, m, hx⟩

/-- The negative infinity is at most every double that has a rank. -/
theorem bottom_le {r : ℤ} (hx : rank x = some (withSign true infinityBits)) (hy : rank y = some r)
    (hr : -infinityBits ≤ r) : x ≤ y := le_iff.2 ⟨_, r, hx, hy, hr⟩

theorem exists_pos (hc : 0 < c) (hfin : isFinite c = true) : ∃ t m, IsFinite c false t m ∧ m ≠ 0 := by
  obtain ⟨neg, t, m, h⟩ := isFinite_iff.1 hfin
  obtain ⟨z, r, hz, hr, hlt⟩ := lt_iff.1 hc
  obtain rfl := Option.some.inj (rank_zero.symm.trans hz)
  obtain rfl := Option.some.inj (h.ranked.symm.trans hr)
  cases neg with
  | true =>
    simp only [withSign] at hlt
    omega
  | false =>
    refine ⟨t, m, h, ?_⟩
    rintro rfl
    have hL : 0 < leastMantissa := by decide
    obtain rfl : t = 0 := by
      have := h.canonical.1
      omega
    exact absurd hlt (by simp [withSign])

/-- A product with a positive double keeps the order. -/
theorem mul_mono (hc : 0 < c) (hfin : isFinite c = true) (hy : isFinite y = true)
    (h : x ≤ y) : c * x ≤ c * y := by
  obtain ⟨t, m, hc, hm⟩ := exists_pos hc hfin
  obtain ⟨neg', t', m', hfy⟩ := isFinite_iff.1 hy
  obtain ⟨s, hs, hys⟩ := rank_mul hc hfy
  rcases finite_or_bottom h hy with ⟨neg, t'', m'', hfx⟩ | hx
  · obtain ⟨r, hr, hxr⟩ := rank_mul hc hfx
    refine le_iff.2 ⟨r, s, hr, hs, hxr.mono hys ?_⟩
    have hpos : (0 : ℚ) ≤ unitsOf false t m := by
      unfold unitsOf withSign
      positivity
    have hle := mul_le_mul_of_nonneg_left (unitsOf_le hfx hfy h) hpos
    exact div_le_div_of_nonneg_right hle (by positivity)
  · refine bottom_le ?_ hs hys.bounds.1
    rw [mul_eq, hc.decoded, hx, Decoded.unpacked_finite _ hm]
    exact rank_pack_infinity true

/-- Sums keep the order. -/
theorem add_mono (hx' : isFinite x' = true) (hy' : isFinite y' = true) (hx : x ≤ x') (hy : y ≤ y') :
    x + y ≤ x' + y' := by
  obtain ⟨_, _, _, hfx'⟩ := isFinite_iff.1 hx'
  obtain ⟨_, _, _, hfy'⟩ := isFinite_iff.1 hy'
  obtain ⟨s, hs, hsum⟩ := rank_add hfx' hfy'
  rcases finite_or_bottom hx hx' with ⟨_, _, m, hfx⟩ | hbx
  · rcases finite_or_bottom hy hy' with ⟨_, _, _, hfy⟩ | hby
    · obtain ⟨r, hr, hrsum⟩ := rank_add hfx hfy
      refine le_iff.2 ⟨r, s, hr, hs, hrsum.mono hsum ?_⟩
      exact add_le_add (unitsOf_le hfx hfx' hx) (unitsOf_le hfy hfy' hy)
    · refine bottom_le ?_ hs hsum.bounds.1
      rw [add_eq, hfx.decoded, hby]
      by_cases hm : m = 0
      · subst hm
        exact rank_pack_infinity true
      · rw [Decoded.unpacked_finite _ hm]
        exact rank_pack_infinity true
  · refine bottom_le ?_ hs hsum.bounds.1
    rw [add_eq, hbx]
    rcases finite_or_bottom hy hy' with ⟨_, _, m, hfy⟩ | hby
    · rw [hfy.decoded]
      by_cases hm : m = 0
      · subst hm
        exact rank_pack_infinity true
      · rw [Decoded.unpacked_finite _ hm]
        exact rank_pack_infinity true
    · rw [hby]
      exact rank_pack_infinity true

/-! ## Signs -/

/-- A double that is not below zero: one with a rank from zero on, or a NaN. -/
def NotNegative (x : Float) : Prop := ∀ r, rank x = some r → 0 ≤ r

/-- What is packed with a positive sign is not below zero. -/
def IsPositive : UnpackedFloat → Prop
  | .notANumber => True
  | .infinity s => s = .positive
  | .zero s => s = .positive
  | .finite s _ _ _ => s = .positive

theorem isNegative_pack {u : UnpackedFloat} (h : IsPositive u) :
    isNegative (.ofModel (Float.Model.pack u)) = false := by
  have hparts : ∀ (e : BitVec 11) (m : BitVec 52),
      ¬ signBit ≤ (packComponents Format.binary64 (signOf false) e m).toNat := by
    intro e m
    have he : e.toNat < 2 ^ 11 := e.isLt
    have hm : m.toNat < 2 ^ 52 := m.isLt
    rw [packComponents_toNat]
    unfold bitsWith signBit leastMantissa
    rw [if_neg Bool.false_ne_true]
    omega
  refine decide_eq_false ?_
  rw [toBits_pack]
  cases u with
  | notANumber => exact hparts _ _
  | infinity s => exact h ▸ hparts _ _
  | zero s => exact h ▸ hparts _ _
  | finite s m e hm =>
    obtain rfl : s = signOf false := h
    unfold UnpackedFloat.pack
    simp only
    split
    · exact hparts _ _
    · split
      · exact hparts _ _
      · exact hparts _ _

theorem notNegative_of_isNegative (h : isNegative x = false) : NotNegative x := by
  intro r hr
  rw [rank, h] at hr
  split at hr
  · cases hr
    exact Int.natCast_nonneg _
  · cases hr

theorem notNegative_of_le (h : 0 ≤ x) : NotNegative x := by
  intro r hr
  obtain ⟨z, s, hz, hs, hle⟩ := le_iff.1 h
  obtain rfl := Option.some.inj (rank_zero.symm.trans hz)
  obtain rfl := Option.some.inj (hs.symm.trans hr)
  exact hle

/-- A finite double that is not below zero is a zero or has no sign. -/
theorem NotNegative.sign {neg : Bool} {t m : ℕ} (h : NotNegative x) (hx : IsFinite x neg t m) :
    neg = false ∨ m = 0 := by
  have := h _ hx.ranked
  cases neg with
  | false => exact .inl rfl
  | true =>
    simp only [withSign] at this
    exact .inr (by omega)

theorem NotNegative.sign_infinite {neg : Bool} (h : NotNegative x) (hx : decode x = .infinite neg) :
    neg = false := by
  have := h _ (rank_of_infinite hx)
  cases neg
  · rfl
  · exact absurd this (by decide)

theorem abs_positive (x : Float) : isNegative x.abs = false := by
  refine isNegative_pack ?_
  show IsPositive x.toModel.unpack.abs
  cases x.toModel.unpack <;> trivial

/-- Rounding keeps a positive sign, however exact the mantissa is. -/
theorem round_positive (m : ℕ) (e : ℤ) (accuracy : Accuracy) :
    IsPositive (roundWithAccuracy Format.binary64 .positive m e accuracy) := by
  unfold roundWithAccuracy
  simp only
  split <;> rfl

theorem zero_notNegative (s : Sign) : NotNegative (.ofModel (Float.Model.pack (.zero s))) := by
  intro r hr
  obtain ⟨neg, rfl⟩ : ∃ neg, s = signOf neg := by
    cases s
    · exact ⟨true, rfl⟩
    · exact ⟨false, rfl⟩
  rw [rank_pack_zero] at hr
  cases hr
  exact le_rfl

theorem IsPositive.notNegative {u : UnpackedFloat} (h : IsPositive u) :
    NotNegative (.ofModel (Float.Model.pack u)) := notNegative_of_isNegative (isNegative_pack h)

theorem sqrt_notNegative (x : Float) : NotNegative x.sqrt := by
  show NotNegative (.ofModel (Float.Model.pack
    (UnpackedFloat.sqrt Format.binary64 x.toModel.unpack)))
  cases x.toModel.unpack with
  | notANumber => exact IsPositive.notNegative trivial
  | infinity s =>
    cases s
    · exact IsPositive.notNegative trivial
    · exact IsPositive.notNegative rfl
  | zero s => exact zero_notNegative s
  | finite s m e hm =>
    cases s
    · exact IsPositive.notNegative trivial
    · exact (round_positive _ _ _).notNegative

theorem div_eq (x y : Float) : x / y = .ofModel (Float.Model.pack
    (UnpackedFloat.div Format.binary64 (decode x).unpacked (decode y).unpacked)) := by
  rw [← unpack_eq, ← unpack_eq]
  rfl

/-- A quotient by a double without a sign is not below zero when what is divided is not. -/
theorem div_notNegative (hx : NotNegative x) (hy : isNegative y = false) : NotNegative (x / y) := by
  rw [div_eq]
  have hdivisor : (decode y).unpacked = .notANumber ∨ (decode y).unpacked = .infinity .positive ∨
      (decode y).unpacked = .zero .positive ∨
      ∃ m e hm, (decode y).unpacked = .finite .positive m e hm := by
    rcases decode_cases y with ⟨hd, -⟩ | ⟨hd, -⟩ | ⟨t, m, hd, -⟩
    · exact .inl (by rw [hd]; rfl)
    · exact .inr (.inl (by rw [hd, hy]; rfl))
    · rw [hd, hy]
      by_cases hm : m = 0
      · subst hm
        exact .inr (.inr (.inl rfl))
      · exact .inr (.inr (.inr ⟨_, _, _, Decoded.unpacked_finite _ hm _⟩))
  generalize (decode y).unpacked = v at hdivisor
  cases hd : decode x with
  | nan => exact IsPositive.notNegative trivial
  | infinite neg =>
    obtain rfl := hx.sign_infinite hd
    rcases hdivisor with rfl | rfl | rfl | ⟨m, e, hm, rfl⟩ <;> exact IsPositive.notNegative (by trivial)
  | finite neg m e =>
    obtain ⟨t, hfx⟩ := IsFinite.of_decode hd
    by_cases hm : m = 0
    · subst hm
      rcases hdivisor with rfl | rfl | rfl | ⟨m, e, hm, rfl⟩
      · exact IsPositive.notNegative trivial
      · exact zero_notNegative _
      · exact IsPositive.notNegative trivial
      · exact zero_notNegative _
    · obtain rfl := (hx.sign hfx).resolve_right hm
      rw [Decoded.unpacked_finite _ hm]
      rcases hdivisor with rfl | rfl | rfl | ⟨m', e', hm', rfl⟩
      · exact IsPositive.notNegative trivial
      · exact zero_notNegative _
      · exact IsPositive.notNegative rfl
      · exact (round_positive _ _ _).notNegative

/-- A difference from a finite double is a NaN exactly when what is taken away is one. -/
theorem rank_sub_eq_none (hx : isFinite x = true) : rank (x - y) = none ↔ rank y = none := by
  obtain ⟨_, _, m, hfx⟩ := isFinite_iff.1 hx
  cases hy : decode y with
  | nan =>
    rw [rank_of_nan hy, sub_eq, hfx.decoded, hy]
    refine iff_of_true ?_ rfl
    by_cases hm : m = 0
    · subst hm
      exact rank_pack_nan
    · rw [Decoded.unpacked_finite _ hm]
      exact rank_pack_nan
  | infinite neg =>
    have hsub : rank (x - y) = some (withSign (!neg) infinityBits) := by
      rw [sub_eq, hfx.decoded, hy]
      by_cases hm : m = 0
      · subst hm
        cases neg
        · exact rank_pack_infinity true
        · exact rank_pack_infinity false
      · rw [Decoded.unpacked_finite _ hm]
        cases neg
        · exact rank_pack_infinity true
        · exact rank_pack_infinity false
    rw [hsub, rank_of_infinite hy]
    simp
  | finite neg m e =>
    obtain ⟨t, hfy⟩ := IsFinite.of_decode hy
    obtain ⟨r, hr, -⟩ := rank_sub hfx hfy
    rw [hr, hfy.ranked]
    simp

/-- A difference with something that is not below zero is not greater. -/
theorem sub_le (hx : isFinite x = true) (hy : NotNegative y) (hr : rank y ≠ none) : x - y ≤ x := by
  obtain ⟨_, _, m, hfx⟩ := isFinite_iff.1 hx
  cases hdy : decode y with
  | nan => exact absurd (rank_of_nan hdy) hr
  | infinite neg =>
    obtain rfl := hy.sign_infinite hdy
    refine bottom_le ?_ hfx.ranked (ranksAs_self hfx.canonical hfx.below).bounds.1
    rw [sub_eq, hfx.decoded, hdy]
    by_cases hm : m = 0
    · subst hm
      exact rank_pack_infinity true
    · rw [Decoded.unpacked_finite _ hm]
      exact rank_pack_infinity true
  | finite neg m' e =>
    obtain ⟨t', hfy⟩ := IsFinite.of_decode hdy
    obtain ⟨r, hr, hsub⟩ := rank_sub hfx hfy
    refine le_iff.2 ⟨r, _, hr, hfx.ranked, hsub.mono (ranksAs_self hfx.canonical hfx.below) ?_⟩
    have hpos : 0 ≤ unitsOf neg t' m' := by
      rcases hy.sign hfy with rfl | rfl
      · unfold unitsOf withSign
        positivity
      · rw [unitsOf_zero]
    linarith

end Order

end Maquette.Decimal
