/-
Decimals read back. Digits with a point or without one are read as the double nearest to the fraction that
they spell, so an integer is read back from its digits. Written in six significant digits, the double nearest
to some thousandths has the digits of these, as it is so close to them; so it is read back as well.
-/
import Maquette.Decimal.Places
import Maquette.Decimal.Reading
import Maquette.Proofs.Decimal.Exact
import Maquette.Proofs.Text

namespace Maquette.Decimal

/-! ## Digits -/

/-- Only digits. -/
def AreDigits (cs : List Char) : Prop := ∀ c ∈ cs, isAsciiDigit c = true

theorem areDigits_toDigits (n : ℕ) : AreDigits (Nat.toDigits 10 n) := fun _ hc =>
  Nat.isDigit_of_mem_toDigits (by decide) (by decide) hc

theorem AreDigits.append {as bs : List Char} (ha : AreDigits as) (hb : AreDigits bs) : AreDigits (as ++ bs) :=
  fun c hc => (List.mem_append.1 hc).elim (ha c) (hb c)

theorem AreDigits.of_subset {as bs : List Char} (hb : AreDigits bs) (h : as ⊆ bs) : AreDigits as :=
  fun c hc => hb c (h hc)

theorem areDigits_zeros (n : ℕ) : AreDigits (List.replicate n '0') := fun _ hc =>
  List.eq_of_mem_replicate hc ▸ rfl

/-- What holds of the ten digits holds of every digit. -/
theorem forall_digit {p : Char → Bool} (h : ∀ d < 10, p (Nat.digitChar d) = true) {c : Char}
    (hc : isAsciiDigit c = true) : p c = true := by
  have hbounds : '0' ≤ c ∧ c ≤ '9' := by simpa [isAsciiDigit] using hc
  have hlow : 48 ≤ c.toNat := hbounds.1
  have hhigh : c.toNat ≤ 57 := hbounds.2
  have hdigit : c = Nat.digitChar (c.toNat - 48) := by
    apply Char.toNat_inj.1
    rw [Nat.toNat_digitChar_of_lt_ten (by omega)]
    omega
  rw [hdigit]
  exact h _ (by omega)

/-! ## Reading -/

/-- Digits before a point and behind it; without digits behind it there is no point. -/
def pointed (whole frac : List Char) : List Char := if frac.isEmpty then whole else whole ++ '.' :: frac

/-- A character that is read as it is. -/
def isPlain (c : Char) : Bool := isAsciiDigit c || c == '.'

theorem isPlain_spec {c : Char} (h : isPlain c = true) :
    isPadding c = false ∧ plainDigits [c] = [c] ∧ c ≠ '_' := by
  rcases Bool.or_eq_true_iff.1 h with h | h
  · have := forall_digit (p := fun c => decide (isPadding c = false ∧ plainDigits [c] = [c] ∧ c ≠ '_')) (by decide) h
    exact of_decide_eq_true this
  · rw [beq_iff_eq.1 h]
    decide

theorem plainDigits_plain {cs : List Char} (h : ∀ c ∈ cs, isPlain c = true) : plainDigits cs = cs := by
  induction cs with
  | nil => rfl
  | cons c cs ih =>
    obtain ⟨hc, hcs⟩ := List.forall_mem_cons.1 h
    show plainDigits [c] ++ plainDigits cs = [c] ++ cs
    rw [(isPlain_spec hc).2.1, ih hcs]

theorem dropUnderscores?_plain {cs : List Char} (h : ∀ c ∈ cs, isPlain c = true) (afterDigit : Bool) :
    dropUnderscores? afterDigit cs = some cs := by
  induction cs generalizing afterDigit with
  | nil => rfl
  | cons c cs ih =>
    obtain ⟨hc, hcs⟩ := List.forall_mem_cons.1 h
    have hne := (isPlain_spec hc).2.2
    rw [dropUnderscores?, ih hcs]
    · rfl
    · rintro _ _ rfl
      exact absurd rfl hne
    · rintro rfl
      exact absurd rfl hne

theorem trimmed_plain {cs : List Char} (h : ∀ c ∈ cs, isPlain c = true) : trimmed (String.ofList cs) = cs := by
  rw [trimmed, String.toList_ofList]
  exact Text.trim_eq_self_iff.2 ⟨fun c hc => (isPlain_spec (h c (List.mem_of_head? hc))).1,
    fun c hc => (isPlain_spec (h c (List.mem_of_getLast? hc))).1⟩

theorem looseDouble?_plain {cs : List Char} (h : ∀ c ∈ cs, isPlain c = true) :
    looseDouble? (String.ofList cs) = double? cs := by
  rw [looseDouble?, trimmed_plain h, plainDigits_plain h, dropUnderscores?_plain h, Option.bind_some]

section Pointed

variable {whole frac : List Char}

theorem isPlain_pointed (hwhole : AreDigits whole) (hfrac : AreDigits frac) :
    ∀ c ∈ pointed whole frac, isPlain c = true := by
  have hdigit {c : Char} (hc : isAsciiDigit c = true) : isPlain c = true := by rw [isPlain, hc, Bool.true_or]
  intro c hc
  unfold pointed at hc
  split at hc
  · exact hdigit (hwhole c hc)
  · rcases List.mem_append.1 hc with hc | hc
    · exact hdigit (hwhole c hc)
    · rcases List.mem_cons.1 hc with rfl | hc
      · rfl
      · exact hdigit (hfrac c hc)

theorem unsigned?_pointed (hne : whole ≠ []) (hwhole : AreDigits whole) (hfrac : AreDigits frac) :
    unsigned? false (pointed whole frac) = some ⟨false, whole ++ frac, -frac.length⟩ := by
  have hnot : whole.isEmpty = false := by simpa using hne
  unfold unsigned? pointed
  cases frac with
  | nil =>
    simp only [List.isEmpty_nil, if_true, List.takeWhile_eq_self_iff.2 hwhole,
      List.dropWhile_eq_nil_iff.2 hwhole, List.append_nil]
    simp [hnot, exponent?]
  | cons d ds =>
    have htake : (whole ++ '.' :: d :: ds).takeWhile isAsciiDigit = whole := by
      rw [List.takeWhile_append_of_pos hwhole, List.takeWhile_cons_of_neg (by decide), List.append_nil]
    have hdrop : (whole ++ '.' :: d :: ds).dropWhile isAsciiDigit = '.' :: d :: ds := by
      rw [List.dropWhile_append_of_pos hwhole, List.dropWhile_cons_of_neg (by decide)]
    simp only [List.isEmpty_cons, Bool.false_eq_true, if_false, htake, hdrop,
      List.takeWhile_eq_self_iff.2 hfrac, List.dropWhile_eq_nil_iff.2 hfrac]
    simp [hnot, exponent?]

theorem double?_pointed (hne : whole ≠ []) (hwhole : AreDigits whole) (hfrac : AreDigits frac) :
    double? (pointed whole frac) = some (Numeral.toFloat ⟨false, whole ++ frac, -frac.length⟩) := by
  obtain ⟨c, cs, hcs⟩ : ∃ c cs, pointed whole frac = c :: cs ∧ isAsciiDigit c = true := by
    obtain ⟨w, ws, rfl⟩ := List.exists_cons_of_ne_nil hne
    have hw := hwhole w List.mem_cons_self
    unfold pointed
    split
    · exact ⟨w, ws, rfl, hw⟩
    · exact ⟨w, _, rfl, hw⟩
  -- no word for an infinity or NaN, and no sign, begins with a digit
  have hc : c ≠ '-' ∧ c ≠ '+' ∧ c.toLower ≠ 'i' ∧ c.toLower ≠ 'n' := of_decide_eq_true
    (forall_digit (p := fun c => decide (c ≠ '-' ∧ c ≠ '+' ∧ c.toLower ≠ 'i' ∧ c.toLower ≠ 'n')) (by decide) hcs.2)
  have hsign : sign (pointed whole frac) = (false, pointed whole frac) := by
    rw [hcs.1]
    unfold sign
    split
    · rename_i heq
      exact absurd (List.cons.inj heq).1 hc.1
    · rename_i heq
      exact absurd (List.cons.inj heq).1 hc.2.1
    · rfl
  have hnamed : named? false (pointed whole frac) = none := by
    have hword {d : Char} {ds : List Char} (hd : c.toLower ≠ d) :
        (String.ofList ((c :: cs).map Char.toLower) == String.ofList (d :: ds)) = false := by
      rw [beq_eq_false_iff_ne]
      intro h
      exact hd (List.cons.inj (String.ofList_injective h)).1
    rw [hcs.1]
    unfold named?
    simp only [show "inf" = String.ofList ['i', 'n', 'f'] from rfl, hword hc.2.2.1,
      show "infinity" = String.ofList ['i', 'n', 'f', 'i', 'n', 'i', 't', 'y'] from rfl,
      show "nan" = String.ofList ['n', 'a', 'n'] from rfl, hword hc.2.2.2]
    rfl
  rw [double?, hsign]
  simp only [hnamed]
  rw [unsigned?_pointed hne hwhole hfrac, Option.map_some]

theorem natOf_eq (ds : List Char) : natOf ds = Nat.ofDigitChars 10 ds 0 := rfl

/-- A short numeral is the double of the fraction that it stands for. -/
theorem toFloat_numeral {digits : List Char} {places : ℕ} (hdigits : digits.length ≤ 400) (hplaces : places ≤ 400) :
    Numeral.toFloat ⟨false, digits, -places⟩ = ofRatio false (natOf digits) (10 ^ places) := by
  have hlength : (digits.dropWhile (· == '0')).length ≤ digits.length := (List.dropWhile_sublist _).length_le
  unfold Numeral.toFloat
  simp only
  by_cases hzero : natOf digits = 0
  · rw [if_pos (.inl hzero), hzero, ofRatio, if_pos rfl]
  · rw [if_neg (by omega), if_neg (by omega), scaled]
    split
    · simp
    · obtain rfl : places = 0 := by omega
      simp

/-- Digits with a point are read as the double nearest to the fraction that they spell. -/
theorem looseDouble?_pointed (hne : whole ≠ []) (hwhole : AreDigits whole) (hfrac : AreDigits frac)
    (hlength : (whole ++ frac).length ≤ 400) :
    looseDouble? (String.ofList (pointed whole frac)) =
      some (ofRatio false (natOf (whole ++ frac)) (10 ^ frac.length)) := by
  rw [looseDouble?_plain (isPlain_pointed hwhole hfrac), double?_pointed hne hwhole hfrac, toFloat_numeral hlength]
  rw [List.length_append] at hlength
  omega

end Pointed

/-- An integer is read back from its digits. -/
theorem looseDouble?_toDigits {n : ℕ} (hlength : (Nat.toDigits 10 n).length ≤ 400) :
    looseDouble? (String.ofList (Nat.toDigits 10 n)) = some (ofRatio false n 1) := by
  have hnone : AreDigits [] := fun _ hc => (List.not_mem_nil hc).elim
  have h := looseDouble?_pointed Nat.toDigits_ne_nil (areDigits_toDigits n) hnone (by rwa [List.append_nil])
  rwa [List.append_nil, natOf_eq, Nat.ofDigitChars_ten_toDigits] at h

/-! ## The point -/

theorem length_toDigits_spec {n : ℕ} (hn : 0 < n) :
    10 ^ ((Nat.toDigits 10 n).length - 1) ≤ n ∧ n < 10 ^ (Nat.toDigits 10 n).length := by
  have hpos : 0 < (Nat.toDigits 10 n).length := Nat.length_toDigits_pos
  refine ⟨?_, (Nat.length_toDigits_le_iff (by decide) hpos).1 le_rfl⟩
  rcases Nat.eq_zero_or_pos ((Nat.toDigits 10 n).length - 1) with hone | hmore
  · rw [hone]
    exact hn
  · refine not_lt.1 fun hlt => ?_
    have := (Nat.length_toDigits_le_iff (by decide) hmore).2 hlt
    omega

/-- A positive fraction lies between the powers of ten around its point. -/
theorem pointOf_spec {num den : ℕ} (hnum : 0 < num) (hden : 0 < den) :
    (10 : ℚ) ^ (pointOf num den - 1) ≤ num / den ∧ (num : ℚ) / den < 10 ^ pointOf num den := by
  obtain ⟨hlow, hhigh⟩ := length_toDigits_spec hnum
  obtain ⟨hlow', hhigh'⟩ := length_toDigits_spec hden
  have hpos : 0 < (Nat.toDigits 10 num).length := Nat.length_toDigits_pos
  have hpos' : 0 < (Nat.toDigits 10 den).length := Nat.length_toDigits_pos
  unfold pointOf
  obtain ⟨k, hk⟩ : ∃ k : ℤ, ((Nat.toDigits 10 num).length : ℤ) - ((Nat.toDigits 10 den).length : ℤ) = k := ⟨_, rfl⟩
  generalize (Nat.toDigits 10 num).length = ln at *
  generalize (Nat.toDigits 10 den).length = ld at *
  have hd : (0 : ℚ) < den := by exact_mod_cast hden
  have hten : (10 : ℚ) ≠ 0 := by norm_num
  have hleast : (10 : ℚ) ^ (k - 1) ≤ num / den := by
    rw [le_div_iff₀ hd]
    calc (10 : ℚ) ^ (k - 1) * den ≤ 10 ^ (k - 1) * 10 ^ ld := by
          gcongr
          exact_mod_cast hhigh'.le
      _ = 10 ^ (ln - 1) := by
          rw [← zpow_natCast, ← zpow_natCast, ← zpow_add₀ hten]
          congr 1
          omega
      _ ≤ num := by exact_mod_cast hlow
  have hgreatest : (num : ℚ) / den < 10 ^ (k + 1) := by
    rw [div_lt_iff₀ hd]
    calc (num : ℚ) < 10 ^ ln := by exact_mod_cast hhigh
      _ = 10 ^ (k + 1) * 10 ^ (ld - 1) := by
          rw [← zpow_natCast, ← zpow_natCast, ← zpow_add₀ hten]
          congr 1
          omega
      _ ≤ 10 ^ (k + 1) * den := by
          gcongr
          exact_mod_cast hlow'
  obtain ⟨hpos, hvalue⟩ := scaled_value (show 0 < 10 by decide) hden num (-k)
  simp only [hk]
  have hscaled : (scaled 10 num den (-k)).2 ≤ (scaled 10 num den (-k)).1 ↔ (10 : ℚ) ^ k ≤ num / den := by
    have hscale : (0 : ℚ) < (scaled 10 num den (-k)).2 := by exact_mod_cast hpos
    have hone : (scaled 10 num den (-k)).2 ≤ (scaled 10 num den (-k)).1 ↔
        (1 : ℚ) ≤ (scaled 10 num den (-k)).1 / (scaled 10 num den (-k)).2 := by
      rw [le_div_iff₀ hscale, one_mul]
      exact_mod_cast Iff.rfl
    rw [hone, hvalue, Nat.cast_ofNat, zpow_neg, ← div_eq_mul_inv, le_div_iff₀ (by positivity), one_mul]
  split
  · rename_i hle
    rw [add_sub_cancel_right]
    exact ⟨hscaled.1 hle, hgreatest⟩
  · rename_i hlt
    exact ⟨hleast, not_le.1 (mt hscaled.2 hlt)⟩

/-! ## Digits with zeros behind them -/

theorem toDigits_mul_ten {n : ℕ} (hn : 0 < n) : Nat.toDigits 10 (n * 10) = Nat.toDigits 10 n ++ ['0'] := by
  have h := Nat.toDigits_append_toDigits (show 1 < 10 by decide) hn (show 0 < 10 by decide)
  rw [Nat.add_zero, mul_comm, Nat.toDigits_zero] at h
  exact h.symm

theorem toDigits_mul_pow {n : ℕ} (hn : 0 < n) (j : ℕ) :
    Nat.toDigits 10 (n * 10 ^ j) = Nat.toDigits 10 n ++ List.replicate j '0' := by
  induction j with
  | zero => simp
  | succ j ih =>
    rw [pow_succ, ← mul_assoc, toDigits_mul_ten (by positivity), ih, List.append_assoc, ← List.replicate_succ']

/-- Zeros behind an integer do not matter when the point stays. -/
theorem of_mul_pow {n : ℕ} (hn : 0 < n) (j : ℕ) (p : ℤ) : Digits.of (n * 10 ^ j) (p - j) = Digits.of n p := by
  have hne : n * 10 ^ j ≠ 0 := by positivity
  unfold Digits.of
  rw [if_neg hne, if_neg hn.ne', toDigits_mul_pow hn]
  simp only [Digits.mk.injEq]
  constructor
  · rw [List.reverse_append, List.reverse_replicate, List.dropWhile_append_of_pos]
    intro c hc
    rw [List.eq_of_mem_replicate hc]
    rfl
  · rw [List.length_append, List.length_replicate]
    push_cast
    ring

/-! ## Thousandths -/

/-- The double of thousandths of one lies next to them on any grid that doubles can hold. -/
theorem hasValue_thousandths {k : ℕ} (hk : k ≤ 1000) :
    ∃ v, HasValue (ofRatio false k 1000) v ∧ |v - k / 1000| ≤ 1 / 2 ^ 50 := by
  obtain ⟨v, hv⟩ := exists_hasValue
    (isFinite_of_unit (ofRatio_nonneg k (by norm_num)) (ofRatio_le_one hk))
  refine ⟨v, hv, ?_⟩
  obtain ⟨a, hlow, hhigh⟩ : ∃ a, a * 1000 ≤ k * 2 ^ 50 ∧ k * 2 ^ 50 ≤ (a + 1) * 1000 :=
    ⟨k * 2 ^ 50 / 1000, by omega, by omega⟩
  have hfit : a + 1 < 2 ^ 53 := by omega
  have hle := (hasValue_dyadic (s := 50) (show a < 2 ^ 53 by omega) (by decide)).le hv
    (ofRatio_mono (by positivity) (by norm_num) hlow)
  have hge := hv.le (hasValue_dyadic (s := 50) hfit (by decide)) (ofRatio_mono (by norm_num) (by positivity) hhigh)
  have hlow' : (a : ℚ) / 2 ^ 50 ≤ k / 1000 := by
    rw [div_le_div_iff₀ (by positivity) (by norm_num)]
    exact_mod_cast hlow
  have hhigh' : (k : ℚ) / 1000 ≤ (a + 1 : ℕ) / 2 ^ 50 := by
    rw [div_le_div_iff₀ (by norm_num) (by positivity)]
    exact_mod_cast hhigh
  have hstep : ((a + 1 : ℕ) : ℚ) / 2 ^ 50 = a / 2 ^ 50 + 1 / 2 ^ 50 := by
    push_cast
    rw [add_div]
  rw [hstep] at hge hhigh'
  rw [abs_le]
  constructor <;> linarith

theorem RoundsSigned.eq_zero {n : ℤ} (h : RoundsSigned id 0 n) : n = 0 :=
  have hzero : RoundsSigned id 0 0 := .zero strictMono_id rfl
  le_antisymm (h.mono strictMono_id rfl hzero le_rfl) (hzero.mono strictMono_id rfl h le_rfl)

/-- A double between zero and one is rounded to thousandths of one; without a sign, unless they are none. -/
theorem exists_thousandths {x : Float} (hlow : 0 ≤ x) (hhigh : x ≤ 1) :
    ∃ neg u, roundTo 3 x = ofRatio neg u 1000 ∧ u ≤ 1000 ∧ (neg = true → u = 0) := by
  obtain ⟨neg, t, m, hx⟩ := isFinite_iff.1 (isFinite_of_unit hlow hhigh)
  obtain ⟨u, hu, hrounds⟩ := units_rounds hx 3
  have hsign : neg = false ∨ u = 0 := by
    refine ((notNegative_of_le hlow).sign hx).imp_right fun hm => ?_
    rw [hm, unitsOf_zero, zero_div, zero_mul] at hrounds
    have := hrounds.eq_zero
    cases neg <;> simp only [withSign] at this <;> omega
  refine ⟨neg, u, hu, ?_, fun h => hsign.resolve_left (by simp [h])⟩
  rcases hsign with rfl | rfl
  · have hvalue : HasValue x (unitsOf false t m / 2 ^ 1074) :=
      ⟨false, t, m, hx, (div_mul_cancel₀ _ (by positivity)).symm⟩
    generalize unitsOf false t m / 2 ^ 1074 = v at hrounds hvalue
    have hmost : RoundsSigned id 1000 (withSign false 1000) :=
      ⟨false, 1000, rfl, by simpa using RoundsTo.self strictMono_id 1000, by norm_num⟩
    have hle : withSign false u ≤ withSign false 1000 :=
      hrounds.mono strictMono_id rfl hmost (by linarith [hvalue.le hasValue_one hhigh])
    simpa [withSign] using hle
  · exact Nat.zero_le _

/-- Six significant digits of a fraction next to thousandths are those of the thousandths. -/
theorem sixDigits_near {num den k : ℕ} (hden : 0 < den) (hpos : 0 < k) (hk : k ≤ 1000)
    (hnear : |(num : ℚ) / den - k / 1000| ≤ 1 / 2 ^ 50) : sixDigits num den = Digits.of k (-3) := by
  obtain ⟨hleast, hgreatest⟩ := abs_le.1 hnear
  have hone : (1 : ℚ) ≤ k := by exact_mod_cast hpos
  have hmost : (k : ℚ) ≤ 1000 := by exact_mod_cast hk
  have hnum : 0 < num := by
    refine Nat.pos_of_ne_zero ?_
    rintro rfl
    norm_num at hleast
    linarith
  obtain ⟨hlow, hhigh⟩ := pointOf_spec hnum hden
  -- the point is before the thousandths and behind the tens
  have hbelow : pointOf num den ≤ 1 := by
    by_contra hlt
    have : (10 : ℚ) ^ (1 : ℤ) ≤ 10 ^ (pointOf num den - 1) := zpow_le_zpow_right₀ (by norm_num) (by omega)
    norm_num at this hgreatest
    linarith
  have habove : -3 ≤ pointOf num den := by
    by_contra hlt
    have : (10 : ℚ) ^ pointOf num den ≤ 10 ^ (-4 : ℤ) := zpow_le_zpow_right₀ (by norm_num) (by omega)
    norm_num at this hleast
    linarith
  obtain ⟨j, hj⟩ : ∃ j : ℕ, pointOf num den - 6 = -3 - j := ⟨(3 - pointOf num den).toNat, by omega⟩
  have hsix : j ≤ 6 := by omega
  have hexp : -(-3 - (j : ℤ)) = (3 + j : ℕ) := by omega
  obtain ⟨hscale, hvalue⟩ := scaled_value (show 0 < 10 by decide) hden num (-(-3 - (j : ℤ)))
  unfold sixDigits
  simp only [hj]
  have hrounds := nearest_rounds (scaled 10 num den (-(-3 - (j : ℤ)))).1 hscale
  rw [hvalue, hexp, zpow_natCast] at hrounds
  have hscaled : |(num : ℚ) / den * (10 : ℕ) ^ (3 + j) - (k * 10 ^ j : ℕ)| < 1 / 2 := by
    have hpow : (10 : ℚ) ^ (3 + j) ≤ 10 ^ 9 := pow_le_pow_right₀ (by norm_num) (by omega)
    have hfactor : (num : ℚ) / den * (10 : ℕ) ^ (3 + j) - (k * 10 ^ j : ℕ) =
        (num / den - k / 1000) * 10 ^ (3 + j) := by
      push_cast
      rw [pow_add]
      ring
    rw [hfactor, abs_mul, abs_of_pos (show (0 : ℚ) < 10 ^ (3 + j) by positivity)]
    calc |(num : ℚ) / den - k / 1000| * 10 ^ (3 + j) ≤ 1 / 2 ^ 50 * 10 ^ 9 := by gcongr
      _ < 1 / 2 := by norm_num
  obtain ⟨hbelow', habove'⟩ := abs_lt.1 hscaled
  have hnearest := hrounds.unique (rounds_near (m := k * 10 ^ j) (by linarith) (by linarith))
  rw [hexp, hnearest]
  exact of_mul_pow hpos j (-3)

theorem brief_thousandths {k : ℕ} (hpos : 0 < k) (hk : k ≤ 1000) :
    brief (ofRatio false k 1000) = (Digits.of k (-3)).text Layout.brief := by
  obtain ⟨v, hv, hnear⟩ := hasValue_thousandths hk
  have hvpos : 0 < v := by
    have hone : (1 : ℚ) ≤ k := by exact_mod_cast hpos
    have := (abs_le.1 hnear).1
    norm_num at this
    linarith
  obtain ⟨t, m, hfinite, hm, hunits⟩ := hv.decoded_of_pos hvpos
  obtain ⟨hden, hvalue⟩ := magnitude_spec t m
  have hsame : ((magnitude m (t - 1074)).1 : ℚ) / (magnitude m (t - 1074)).2 = v :=
    mul_right_cancel₀ (show (2 : ℚ) ^ 1074 ≠ 0 by positivity) (hvalue.trans hunits)
  obtain ⟨m, rfl⟩ := Nat.exists_eq_succ_of_ne_zero hm
  unfold brief
  rw [hfinite.decoded]
  show signed false ((sixDigits (magnitude _ _).1 (magnitude _ _).2).text Layout.brief) = _
  rw [sixDigits_near hden hpos hk (by rwa [hsame])]
  rfl

/-! ## Written and read -/

theorem natOf_append_zeros (ds : List Char) (z : ℕ) :
    natOf (ds ++ List.replicate z '0') = natOf ds * 10 ^ z := by
  rw [natOf_eq, Nat.ofDigitChars_append, Nat.ofDigitChars_replicate_zero, mul_comm]
  rfl

theorem natOf_zeros_append (ds : List Char) (z : ℕ) : natOf (List.replicate z '0' ++ ds) = natOf ds := by
  rw [natOf_eq, Nat.ofDigitChars_append, Nat.ofDigitChars_replicate_zero, mul_zero]
  rfl

/-- The digits of an integer are followed by zeros, if they are cut off. -/
theorem exists_stripped {k : ℕ} (hpos : 0 < k) (p : ℤ) :
    ∃ ds z, Nat.toDigits 10 k = ds ++ List.replicate z '0' ∧ ds ≠ [] ∧
      Digits.of k p = ⟨ds, (Nat.toDigits 10 k).length + p⟩ := by
  have hsplit := List.takeWhile_append_dropWhile (p := (· == '0')) (l := (Nat.toDigits 10 k).reverse)
  have hzeros := List.eq_replicate_iff.2 ⟨rfl, fun c hc => beq_iff_eq.1
    (List.mem_takeWhile_imp (p := (· == '0')) (l := (Nat.toDigits 10 k).reverse) hc)⟩
  rw [hzeros] at hsplit
  have hdigits := congrArg List.reverse hsplit
  rw [List.reverse_append, List.reverse_replicate, List.reverse_reverse] at hdigits
  refine ⟨_, _, hdigits.symm, ?_, by rw [Digits.of, if_neg hpos.ne']⟩
  intro hempty
  rw [hempty, List.nil_append] at hdigits
  have hvalue : natOf (Nat.toDigits 10 k) = k := Nat.ofDigitChars_ten_toDigits
  rw [← hdigits, natOf_eq, Nat.ofDigitChars_replicate_zero, mul_zero] at hvalue
  exact hpos.ne hvalue

/-- Thousandths are written with digits that spell them. -/
theorem exists_pointed {k : ℕ} (hpos : 0 < k) (hk : k ≤ 1000) :
    ∃ whole frac, (Digits.of k (-3)).text Layout.brief = String.ofList (pointed whole frac) ∧ whole ≠ [] ∧
      AreDigits whole ∧ AreDigits frac ∧ (whole ++ frac).length ≤ 400 ∧
      natOf (whole ++ frac) * 1000 = k * 10 ^ frac.length := by
  rcases hk.eq_or_lt with rfl | hlt
  · exact ⟨['1'], [], rfl, List.cons_ne_nil _ _, fun c hc => List.mem_singleton.1 hc ▸ rfl,
      fun _ hc => (List.not_mem_nil hc).elim, by decide, rfl⟩
  · obtain ⟨ds, z, hsplit, hne, hdigits⟩ := exists_stripped hpos (-3)
    have hlength : (Nat.toDigits 10 k).length ≤ 3 := (Nat.length_toDigits_le_iff (by decide) (by decide)).2 hlt
    have hall : AreDigits ds := (areDigits_toDigits k).of_subset (hsplit ▸ List.subset_append_left _ _)
    have hvalue : natOf ds * 10 ^ z = k := by
      rw [← natOf_append_zeros, ← hsplit]
      exact Nat.ofDigitChars_ten_toDigits
    have hcount : (Nat.toDigits 10 k).length = ds.length + z := by
      rw [hsplit, List.length_append, List.length_replicate]
    have hspace : 0 < ds.length := List.length_pos_iff.2 hne
    obtain ⟨gap, hgap⟩ : ∃ gap, gap + (ds.length + z) = 3 := ⟨3 - (ds.length + z), by omega⟩
    refine ⟨['0'], List.replicate gap '0' ++ ds, ?_, List.cons_ne_nil _ _, areDigits_zeros 1,
      (areDigits_zeros gap).append hall, ?_, ?_⟩
    · have hpoint : ((ds.length + z : ℕ) : ℤ) + -3 = -gap := by omega
      have hzeros : (List.replicate gap '0' ++ ds).isEmpty = false := by simp [hne]
      rw [hdigits, hcount, hpoint, Digits.text, if_neg (by simpa using hne),
        if_pos (by simp only [Layout.brief]; omega), Digits.positional]
      have hleft : -(gap : ℤ) ≤ 0 := by omega
      simp only [hleft, if_true, neg_neg, Int.toNat_natCast, hzeros, Bool.false_eq_true, if_false, pointed]
      rw [show ['0'] ++ '.' :: (List.replicate gap '0' ++ ds) =
        ['0'] ++ (['.'] ++ (List.replicate gap '0' ++ ds)) from rfl]
      simp only [String.ofList_append]
    · simp only [List.length_append, List.length_replicate, List.length_singleton]
      omega
    · rw [← List.append_assoc, show ['0'] ++ List.replicate gap '0' = List.replicate (gap + 1) '0' from rfl,
        natOf_zeros_append, List.length_append, List.length_replicate, ← hvalue, mul_assoc, ← pow_add,
        show z + (gap + ds.length) = 3 by omega]
      rfl

/-- The double next to thousandths is read back from what it is written as. -/
theorem looseDouble?_brief {k : ℕ} (hpos : 0 < k) (hk : k ≤ 1000) :
    looseDouble? (brief (ofRatio false k 1000)) = some (ofRatio false k 1000) := by
  obtain ⟨whole, frac, htext, hne, hwhole, hfrac, hlength, hvalue⟩ := exists_pointed hpos hk
  rw [brief_thousandths hpos hk, htext, looseDouble?_pointed hne hwhole hfrac hlength,
    ofRatio_congr false (by positivity) (by norm_num) hvalue]

/-- A double between zero and one that is rounded to thousandths is read back from what it is written as. -/
theorem looseDouble?_roundTo {x : Float} (hlow : 0 ≤ x) (hhigh : x ≤ 1) :
    looseDouble? (brief (roundTo 3 x)) = some (roundTo 3 x) ∧ isFinite (roundTo 3 x) = true := by
  obtain ⟨neg, u, hu, hle, hsign⟩ := exists_thousandths hlow hhigh
  rw [hu]
  rcases Nat.eq_zero_or_pos u with rfl | hpos
  · cases neg <;> exact ⟨rfl, rfl⟩
  · cases neg with
    | false =>
      obtain ⟨v, hv, -⟩ := hasValue_thousandths hle
      exact ⟨looseDouble?_brief hpos hle, hv.isFinite⟩
    | true => exact absurd (hsign rfl) hpos.ne'

end Maquette.Decimal
