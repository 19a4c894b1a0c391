/-
Doubles as they are held and written. A double that is an integer is one that has a double, so it can
be held as an integer instead; then equal numbers are the same number, since the two zeros, which are
the only doubles that are equal and differ, are integers. What a number is written as are digits, a
sign, a point and the letters of an exponent and of the names of the infinities and of NaN.

How far two doubles are apart does not depend on which is taken from the other: the two differences are
rounded alike, and differ in the sign only.
-/
import Maquette.Datum.Number
import Maquette.Proofs.Decimal.Ratio

namespace Maquette.Decimal

/-! ## Integers among the doubles -/

theorem exists_of_integral {x : Float} (h : isIntegral x = true) :
    ∃ neg t m, IsFinite x neg t m ∧ (magnitude m (t - 1074)).1 % (magnitude m (t - 1074)).2 = 0 := by
  unfold isIntegral at h
  cases hx : decode x with
  | nan =>
    rw [hx] at h
    cases h
  | infinite neg =>
    rw [hx] at h
    cases h
  | finite neg m e =>
    obtain ⟨t, hfinite⟩ := IsFinite.of_decode hx
    obtain rfl : e = t - 1074 := by
      have := hx.symm.trans hfinite.decoded
      injection this
    rw [hx] at h
    exact ⟨neg, t, m, hfinite, eq_of_beq h⟩

theorem withSign_natAbs (n : ℤ) : withSign (decide (n < 0)) n.natAbs = n := by
  by_cases hn : n < 0
  · rw [decide_eq_true hn, withSign]
    omega
  · rw [decide_eq_false hn, withSign]
    omega

/-- An integral magnitude is what the double is cut off to, exactly. -/
theorem truncate?_exact {x : Float} {neg : Bool} {t m : ℕ} (hx : IsFinite x neg t m)
    (hmod : (magnitude m (t - 1074)).1 % (magnitude m (t - 1074)).2 = 0) :
    ∃ q : ℕ, truncate? x = some (withSign neg q) ∧ (q : ℚ) = m * 2 ^ t / 2 ^ 1074 := by
  obtain ⟨hpos, hvalue⟩ := scaled_value (show 0 < 2 by decide) Nat.one_pos m ((t : ℤ) - 1074)
  obtain ⟨q, hq⟩ : ∃ q, (magnitude m (t - 1074)).1 = (magnitude m (t - 1074)).2 * q :=
    Nat.dvd_of_mod_eq_zero hmod
  have hquotient : (magnitude m (t - 1074)).1 / (magnitude m (t - 1074)).2 = q := by
    rw [hq]
    exact Nat.mul_div_cancel_left q hpos
  refine ⟨q, ?_, ?_⟩
  · rw [truncate?, hx.decoded]
    simp only [hquotient]
    cases neg <;> rfl
  · have hden : (((magnitude m (t - 1074)).2 : ℕ) : ℚ) ≠ 0 := by exact_mod_cast hpos.ne'
    have hfraction : ((magnitude m (t - 1074)).1 : ℚ) / (magnitude m (t - 1074)).2 = q := by
      rw [hq, Nat.cast_mul, mul_comm, mul_div_assoc, div_self hden, mul_one]
    rw [← hfraction, magnitude, hvalue, zpow_sub₀ (by norm_num), zpow_natCast, mul_div_assoc,
      Nat.cast_one, div_one]
    norm_cast

/-- What a double that is an integer is cut off to has a double again. -/
theorem truncate?_integral {x : Float} (h : isIntegral x = true) :
    ∃ n, truncate? x = some n ∧ (ofInt? n).isSome = true := by
  obtain ⟨neg, t, m, hx, hmod⟩ := exists_of_integral h
  obtain ⟨q, hcut, hscale⟩ := truncate?_exact hx hmod
  refine ⟨withSign neg q, hcut, ?_⟩
  have hunits : (withSign neg q : ℚ) / (1 : ℕ) * 2 ^ 1074 = unitsOf neg t m := by
    have hunit : (2 : ℚ) ^ 1074 ≠ 0 := by positivity
    rw [unitsOf, Nat.cast_one, div_one]
    cases neg <;> simp only [withSign] <;> push_cast <;> rw [hscale]
    · rw [div_mul_cancel₀ _ hunit]
    · rw [neg_mul, div_mul_cancel₀ _ hunit, neg_mul]
  obtain ⟨r, hr, hranks⟩ :=
    rank_ofRatio (decide (withSign neg q < 0)) (withSign neg q).natAbs Nat.one_pos
  -- both doubles have the rank that this value is rounded to
  have hself : RanksAs (unitsOf neg t m) (withSign neg (t * leastMantissa + m)) :=
    ranksAs_self hx.canonical hx.below
  rw [withSign_natAbs, hunits] at hranks
  obtain rfl : r = withSign neg (t * leastMantissa + m) :=
    le_antisymm (hranks.mono hself (le_refl _)) (hself.mono hranks (le_refl _))
  have hbelow := hx.below
  have hfinite : isFinite (ofRatio (decide (withSign neg q < 0)) (withSign neg q).natAbs 1) = true := by
    refine isFinite_of_rank hr ?_ ?_
    · cases neg <;> simp only [withSign] <;> omega
    · cases neg <;> simp only [withSign] <;> omega
  rw [ofInt?]
  simp only [hfinite, if_true, Option.isSome_some]

/-- The two zeros are integers. -/
theorem isIntegral_of_code_zero {x : Float} (h : code x = 0) : isIntegral x = true := by
  have hdecode : decode x = .finite (isNegative x) 0 (-1074) := by
    rw [decode_eq, h, if_neg (by decide), if_pos (by decide), Nat.zero_mod]
  have hmagnitude : ∀ e, (magnitude 0 e).1 = 0 := by
    intro e
    rw [magnitude, scaled]
    split
    · rfl
    · exact Nat.zero_mul _
  rw [isIntegral, hdecode]
  simp only [hmagnitude, Nat.zero_mod, beq_self_eq_true]

/-- A double is told by its code and its sign. -/
theorem eq_of_code {x y : Float} (hcode : code x = code y) (hneg : isNegative x = isNegative y) :
    x = y := by
  have hbits : x.toBits.toNat = y.toBits.toNat := by
    have hx64 := x.toBits.toNat_lt
    have hy64 := y.toBits.toNat_lt
    unfold code signBit at hcode
    unfold isNegative signBit at hneg
    rw [decide_eq_decide] at hneg
    omega
  exact Float.toBits_inj.1 (UInt64.toNat_inj.1 hbits)

/-- Equal doubles that are no integers are the same double. -/
theorem eq_of_beq_of_not_integral {x y : Float} (h : (x == y) = true) (hx : isIntegral x = false) :
    x = y := by
  obtain ⟨r, hrx, hry⟩ := beq_iff.1 h
  unfold rank at hrx hry
  split at hrx <;> cases hrx
  split at hry
  case isFalse => cases hry
  have hsame := Option.some.inj hry
  have hnonzero : code x ≠ 0 := by
    intro hzero
    rw [isIntegral_of_code_zero hzero] at hx
    cases hx
  -- only zeros of different signs would have one rank
  cases hnx : isNegative x <;> cases hny : isNegative y <;> rw [hnx, hny] at hsame <;>
    simp only [withSign] at hsame
  · exact eq_of_code (by omega) (hnx.trans hny.symm)
  · omega
  · omega
  · exact eq_of_code (by omega) (hnx.trans hny.symm)

/-- A double that an integer is equal to is an integer. -/
theorem isIntegral_of_intEqFloat {n : ℤ} {x : Float} (h : intEqFloat n x = true) :
    isIntegral x = true := by
  unfold intEqFloat at h
  split at h
  · rename_i neg m e hx
    simp only [Bool.and_eq_true, beq_iff_eq] at h
    rw [isIntegral, hx]
    simp only [beq_iff_eq]
    rw [← h.1]
    exact Nat.mul_mod_left _ _
  · cases h

/-! ## What numbers are written with -/

/-- A character of a number. -/
def isNumeral (c : Char) : Bool :=
  c.isDigit || ['-', '+', '.', 'e', 'i', 'n', 'f', 'a'].contains c

/-- A text of characters of numbers. -/
def AreNumerals (cs : List Char) : Prop := cs.all isNumeral = true

theorem AreNumerals.append {a b : List Char} (ha : AreNumerals a) (hb : AreNumerals b) :
    AreNumerals (a ++ b) := by
  rw [AreNumerals, List.all_append, ha, hb, Bool.and_self]

theorem AreNumerals.of_subset {a b : List Char} (hb : AreNumerals b) (h : a ⊆ b) : AreNumerals a :=
  List.all_eq_true.2 fun c hc => List.all_eq_true.1 hb c (h hc)

theorem areNumerals_zeros (n : ℕ) : AreNumerals (List.replicate n '0') := by
  refine List.all_eq_true.2 fun c hc => ?_
  rw [List.eq_of_mem_replicate hc]
  rfl

theorem areNumerals_digits (n : ℕ) : AreNumerals (Nat.toDigits 10 n) := by
  refine List.all_eq_true.2 fun c hc => ?_
  rw [isNumeral, Nat.isDigit_of_mem_toDigits (by decide) (by decide) hc, Bool.true_or]

theorem areNumerals_nat (n : ℕ) : AreNumerals (toString n).toList := by
  rw [Nat.toString_eq_repr, Nat.toList_repr]
  exact areNumerals_digits n

theorem areNumerals_int (n : ℤ) : AreNumerals (toString n).toList := by
  cases n with
  | ofNat n => exact areNumerals_nat n
  | negSucc n =>
    have htext : toString (Int.negSucc n) = "-" ++ toString (n + 1) := rfl
    rw [htext, String.toList_append]
    exact AreNumerals.append rfl (areNumerals_nat (n + 1))

theorem areNumerals_signed (neg : Bool) {s : String} (h : AreNumerals s.toList) :
    AreNumerals (signed neg s).toList := by
  cases neg with
  | false => exact h
  | true =>
    have htext : signed true s = "-" ++ s := rfl
    rw [htext, String.toList_append]
    exact AreNumerals.append rfl h

namespace Digits

theorem areNumerals_of (n : ℕ) (p : ℤ) : AreNumerals (Digits.of n p).digits := by
  have hsubset : (Digits.of n p).digits ⊆ if n = 0 then [] else Nat.toDigits 10 n := by
    intro c hc
    exact List.mem_reverse.1 ((List.dropWhile_sublist _).subset (List.mem_reverse.1 hc))
  refine AreNumerals.of_subset ?_ hsubset
  split
  · rfl
  · exact areNumerals_digits n

theorem areNumerals_exponent (e : ℤ) : AreNumerals (exponentText e).toList := by
  have hsign : AreNumerals (if e < 0 then "-" else "+").toList := by split <;> rfl
  rw [exponentText, String.toList_append, String.toList_append]
  refine AreNumerals.append (AreNumerals.append rfl hsign) ?_
  split
  · rw [String.toList_append]
    exact AreNumerals.append rfl (areNumerals_nat _)
  · exact areNumerals_nat _

variable {d : Digits} (h : AreNumerals d.digits)
include h

theorem areNumerals_positional (pointZero : Bool) :
    AreNumerals (d.positional pointZero).toList := by
  -- the digits before the point, with zeros where there are too few, and those behind it
  have hwhole : AreNumerals (if d.point ≤ 0 then ['0'] else
      (d.digits ++ List.replicate (d.point.toNat - d.digits.length) '0').take d.point.toNat) := by
    split
    · rfl
    · exact (h.append (areNumerals_zeros _)).of_subset (List.take_subset _ _)
  have hfrac : AreNumerals (if d.point ≤ 0 then List.replicate (-d.point).toNat '0' ++ d.digits
      else d.digits.drop d.point.toNat) := by
    split
    · exact (areNumerals_zeros _).append h
    · exact h.of_subset (List.drop_subset _ _)
  rw [positional]
  generalize (if d.point ≤ 0 then ['0'] else _) = whole at hwhole
  generalize (if d.point ≤ 0 then _ else d.digits.drop d.point.toNat) = frac at hfrac
  rw [String.toList_append, String.toList_ofList]
  refine hwhole.append ?_
  split
  · split <;> rfl
  · rw [String.toList_append]
    refine AreNumerals.append rfl ?_
    rwa [String.toList_ofList]

theorem areNumerals_scientific : AreNumerals d.scientific.toList := by
  unfold scientific
  split
  · rfl
  · rename_i c hd
    rw [hd] at h
    rw [String.toList_append, Char.toString, String.toList_singleton]
    exact h.append (areNumerals_exponent _)
  · rename_i c rest _ hd
    rw [hd] at h
    have hpoint : ".".toList = ['.'] := rfl
    have htext : (c.toString ++ "." ++ String.ofList rest).toList = [c] ++ ['.'] ++ rest := by
      rw [String.toList_append, String.toList_append, Char.toString, String.toList_singleton, hpoint,
        String.toList_ofList]
    have hfirst : AreNumerals ([c] ++ ['.']) :=
      AreNumerals.append (h.of_subset (by simp)) rfl
    have hrest : AreNumerals rest := h.of_subset (List.subset_cons_self _ _)
    rw [String.toList_append, htext]
    exact (hfirst.append hrest).append (areNumerals_exponent _)

theorem areNumerals_text (layout : Layout) : AreNumerals (d.text layout).toList := by
  unfold text
  split
  · split <;> rfl
  · split
    · exact areNumerals_positional h _
    · exact areNumerals_scientific h

end Digits

theorem areNumerals_shown (x : Float) : AreNumerals (shown x).toList := by
  unfold shown
  split
  · rfl
  · exact areNumerals_signed _ rfl
  · exact areNumerals_signed _ rfl
  · exact areNumerals_signed _ (Digits.areNumerals_text (Digits.areNumerals_of _ _) _)

theorem areNumerals_brief (x : Float) : AreNumerals (brief x).toList := by
  unfold brief
  split
  · rfl
  · exact areNumerals_signed _ rfl
  · exact areNumerals_signed _ rfl
  · exact areNumerals_signed _ (Digits.areNumerals_text (Digits.areNumerals_of _ _) _)

theorem areNumerals_plainFloat (x : Float) : AreNumerals (Number.plainFloat x).toList := by
  unfold Number.plainFloat
  split
  · split
    · exact areNumerals_int _
    · exact areNumerals_shown _
  · exact areNumerals_shown _

/-! ## Signs of rounded fractions -/

theorem withSign_not (neg : Bool) (c : ℕ) : withSign (!neg) c = -withSign neg c := by
  cases neg <;> simp [withSign]

theorem RanksAs.neg {v : ℚ} {r : ℤ} (h : RanksAs v r) : RanksAs (-v) (-r) := by
  obtain ⟨_, ⟨neg, c, rfl, hc, hsign⟩, rfl⟩ := h
  refine ⟨_, ⟨!neg, c, rfl, by rwa [abs_neg], ?_⟩, ?_⟩
  · cases neg <;> simpa using hsign
  · rw [clamp_withSign, clamp_withSign, withSign_not]

theorem RanksAs.unique {v : ℚ} {r r' : ℤ} (h : RanksAs v r) (h' : RanksAs v r') : r = r' :=
  le_antisymm (h.mono h' le_rfl) (h'.mono h le_rfl)

/-! ## Absolute values -/

section Absolute

open Float.Model (Format UnpackedFloat)

variable {x y d d' : Float}

theorem code_of_rank {r : ℤ} (h : rank x = some r) : code x = r.natAbs := by
  unfold rank at h
  split at h <;> cases h
  cases isNegative x <;> simp [withSign]

theorem abs_eq (x : Float) : x.abs = .ofModel (Float.Model.pack (decode x).unpacked.abs) := by
  rw [← unpack_eq]
  rfl

/-- The absolute value is told by the bits behind the sign. -/
theorem abs_eq_of_code (h : code d = code d') : d.abs = d'.abs := by
  have hzero : ∀ neg neg' : Bool, ∀ e : ℤ, (Decoded.finite neg 0 e).unpacked.abs =
      (Decoded.finite neg' 0 e).unpacked.abs := by
    intro neg neg' e
    rw [Decoded.unpacked_zero, Decoded.unpacked_zero]
    rfl
  have hfinite : ∀ (neg neg' : Bool) (m : ℕ) (e : ℤ), (Decoded.finite neg m e).unpacked.abs =
      (Decoded.finite neg' m e).unpacked.abs := by
    intro neg neg' m e
    by_cases hm : m = 0
    · subst hm
      exact hzero neg neg' e
    · rw [Decoded.unpacked_finite neg hm, Decoded.unpacked_finite neg' hm]
      rfl
  rw [abs_eq, abs_eq, decode_eq, decode_eq, h]
  split
  · split
    · rfl
    · rfl
  · split
    · rw [hfinite]
    · rw [hfinite]

theorem abs_eq_of_rank {r : ℤ} (h : rank d = some r) (h' : rank d' = some (-r)) : d.abs = d'.abs := by
  refine abs_eq_of_code ?_
  rw [code_of_rank h, code_of_rank h', Int.natAbs_neg]

/-! ## Differences -/

/-- A difference with a NaN is a NaN, whichever side it stands on. -/
theorem sub_nan (h : decode x = .nan) : x - y = .ofModel (Float.Model.pack .notANumber) ∧
    y - x = .ofModel (Float.Model.pack .notANumber) := by
  rw [sub_eq, sub_eq, h]
  refine ⟨rfl, ?_⟩
  show Float.ofModel (Float.Model.pack (UnpackedFloat.sub _ (decode y).unpacked .notANumber)) = _
  cases (decode y).unpacked <;> rfl

/-- A difference with an infinity is an infinity, when the other side is finite. -/
theorem rank_sub_infinite {neg neg' : Bool} {m : ℕ} {e : ℤ} (hx : decode x = .infinite neg)
    (hy : decode y = .finite neg' m e) : rank (x - y) = some (withSign neg infinityBits) ∧
      rank (y - x) = some (-withSign neg infinityBits) := by
  rw [← withSign_not, sub_eq, sub_eq, hx, hy]
  by_cases hm : m = 0
  · subst hm
    cases neg
    · exact ⟨rank_pack_infinity false, rank_pack_infinity true⟩
    · exact ⟨rank_pack_infinity true, rank_pack_infinity false⟩
  · rw [Decoded.unpacked_finite _ hm]
    cases neg
    · exact ⟨rank_pack_infinity false, rank_pack_infinity true⟩
    · exact ⟨rank_pack_infinity true, rank_pack_infinity false⟩

/-- Two doubles are as far apart one way as the other. -/
theorem abs_sub_comm (x y : Float) : (x - y).abs = (y - x).abs := by
  cases hx : decode x with
  | nan => rw [(sub_nan hx).1, (sub_nan hx).2]
  | infinite neg =>
    cases hy : decode y with
    | nan => rw [(sub_nan hy).1, (sub_nan hy).2]
    | infinite neg' =>
      rw [sub_eq, sub_eq, hx, hy]
      cases neg <;> cases neg' <;> rfl
    | finite neg' m e =>
      obtain ⟨h, h'⟩ := rank_sub_infinite hx hy
      exact abs_eq_of_rank h h'
  | finite neg m e =>
    cases hy : decode y with
    | nan => rw [(sub_nan hy).1, (sub_nan hy).2]
    | infinite neg' =>
      obtain ⟨h, h'⟩ := rank_sub_infinite hy hx
      exact (abs_eq_of_rank h h').symm
    | finite neg' m' e' =>
      obtain ⟨t, hx⟩ := IsFinite.of_decode hx
      obtain ⟨t', hy⟩ := IsFinite.of_decode hy
      obtain ⟨r, hr, hv⟩ := rank_sub hx hy
      obtain ⟨r', hr', hv'⟩ := rank_sub hy hx
      have hneg := hv.neg
      rw [neg_sub] at hneg
      obtain rfl := hv'.unique hneg
      exact abs_eq_of_rank hr hr'

end Absolute

end Maquette.Decimal
