/-
When keys of tables are the same. Keys are told by a code: texts by themselves, and numbers by their value,
whatever their kind. So keys that are the same as a third are the same, and what is set under a key is found
under every key that is the same.
-/
import Maquette.Proofs.Decimal.Integral
import Maquette.Proofs.Datum

namespace Maquette

open Decimal

/-! ## Codes -/

/-- What tells a key apart from all other keys. -/
inductive KeyCode where
  | null
  | text (s : String)
  | number (value : ℚ)
  | infinite (neg : Bool)
  | nan

/-- The code of a double. -/
def floatCode (x : Float) : KeyCode :=
  match decode x with
  | .finite neg m e => .number (withSign neg m * 2 ^ e)
  | .infinite neg => .infinite neg
  | .nan => .nan

/-- The code of a key; other values have none. -/
def Datum.keyCode : Datum → Option KeyCode
  | .null => some .null
  | .bool b => some (.number (if b then 1 else 0))
  | .int n => some (.number n)
  | .float x => some (floatCode x)
  | .text s => some (.text s)
  | _ => none

section Codes

variable {x y : Float}

/-- Doubles have one rank exactly if they have one value. -/
theorem rank_eq_iff {neg neg' : Bool} {t t' m m' : ℕ} (hx : IsFinite x neg t m) (hy : IsFinite y neg' t' m') :
    rank x = rank y ↔ unitsOf neg t m = unitsOf neg' t' m' := by
  constructor
  · intro h
    refine le_antisymm (unitsOf_le hx hy (le_iff.2 ⟨_, _, hx.ranked, hy.ranked, ?_⟩))
      (unitsOf_le hy hx (le_iff.2 ⟨_, _, hy.ranked, hx.ranked, ?_⟩))
    · exact le_of_eq (Option.some.inj (hx.ranked.symm.trans (h.trans hy.ranked)))
    · exact le_of_eq (Option.some.inj (hy.ranked.symm.trans (h.symm.trans hx.ranked)))
  · intro h
    have hself : RanksAs (unitsOf neg t m) _ := ranksAs_self hx.canonical hx.below
    rw [h] at hself
    rw [hx.ranked, hy.ranked, hself.unique (ranksAs_self hy.canonical hy.below)]

theorem unitsOf_eq (neg : Bool) (t m : ℕ) :
    unitsOf neg t m = withSign neg m * 2 ^ ((t : ℤ) - 1074) * 2 ^ (1074 : ℤ) := by
  rw [unitsOf, mul_assoc, ← zpow_add₀ two_ne_zero, sub_add_cancel, zpow_natCast]

/-- The values of finite doubles differ where their ranks do. -/
theorem finite_code_iff {neg neg' : Bool} {m m' : ℕ} {e e' : ℤ} (hx : decode x = .finite neg m e)
    (hy : decode y = .finite neg' m' e') :
    (withSign neg m * 2 ^ e : ℚ) = withSign neg' m' * 2 ^ e' ↔ rank x = rank y := by
  obtain ⟨t, hx'⟩ := IsFinite.of_decode hx
  obtain ⟨t', hy'⟩ := IsFinite.of_decode hy
  obtain ⟨-, -, rfl⟩ := Decoded.finite.inj (hx.symm.trans hx'.decoded)
  obtain ⟨-, -, rfl⟩ := Decoded.finite.inj (hy.symm.trans hy'.decoded)
  rw [rank_eq_iff hx' hy', unitsOf_eq, unitsOf_eq]
  exact (mul_left_inj' (by positivity)).symm

theorem isNaN_iff : x.isNaN = true ↔ decode x = .nan := by
  show x.toModel.unpack.isNaN = true ↔ _
  rw [unpack_eq]
  cases decode x with
  | nan => simp [Decoded.unpacked, Float.Model.UnpackedFloat.isNaN]
  | infinite neg => simp [Decoded.unpacked, Float.Model.UnpackedFloat.isNaN]
  | finite neg m e =>
    by_cases hm : m = 0
    · rw [hm, Decoded.unpacked_zero]
      simp [Float.Model.UnpackedFloat.isNaN]
    · rw [Decoded.unpacked_finite neg hm]
      simp [Float.Model.UnpackedFloat.isNaN]

/-- Doubles are the same, as keys are, exactly if they have one code. -/
theorem sameFloat_iff : (x == y || (x.isNaN && y.isNaN)) = true ↔ floatCode x = floatCode y := by
  rw [Bool.or_eq_true, Bool.and_eq_true, isNaN_iff, isNaN_iff, beq_iff]
  -- an infinity has a rank beyond those of all finite doubles
  have hapart : ∀ {neg neg' : Bool} {t m : ℕ}, t * leastMantissa + m < infinityBits →
      withSign neg infinityBits ≠ withSign neg' (t * leastMantissa + m) := by
    intro neg neg' t m hlt heq
    cases neg <;> cases neg' <;> simp only [withSign] at heq <;> omega
  unfold floatCode
  cases hx : decode x with
  | nan =>
    rw [rank_of_nan hx]
    cases hy : decode y <;> simp
  | infinite neg =>
    rw [rank_of_infinite hx]
    cases hy : decode y with
    | nan => simp [rank_of_nan hy]
    | infinite neg' =>
      rw [rank_of_infinite hy]
      cases neg <;> cases neg' <;> simp [withSign, infinityBits, leastMantissa]
    | finite neg' m e =>
      obtain ⟨t, hy'⟩ := IsFinite.of_decode hy
      simp [hy'.ranked, (hapart hy'.below).symm]
  | finite neg m e =>
    cases hy : decode y with
    | nan => simp [rank_of_nan hy]
    | infinite neg' =>
      obtain ⟨t, hx'⟩ := IsFinite.of_decode hx
      simp [hx'.ranked, rank_of_infinite hy, hapart hx'.below]
    | finite neg' m' e' =>
      obtain ⟨t, hx'⟩ := IsFinite.of_decode hx
      rw [KeyCode.number.injEq, finite_code_iff hx hy, hx'.ranked]
      simp [eq_comm]

/-- An integer is a fraction with a sign exactly if their magnitudes are the same and so are their signs, if it is not zero. -/
theorem eq_withSign_iff (p : ℤ) (neg : Bool) (k : ℕ) :
    p = withSign neg k ↔ p.natAbs = k ∧ (k = 0 ∨ decide (p < 0) = neg) := by
  cases neg <;> simp only [withSign, decide_eq_true_iff, decide_eq_false_iff_not] <;> omega

/-- An integer is the same as a double exactly if it is the double's value. -/
theorem intEqFloat_iff {n : ℤ} : intEqFloat n x = true ↔ KeyCode.number n = floatCode x := by
  unfold intEqFloat floatCode
  cases hx : decode x with
  | nan => simp
  | infinite neg => simp
  | finite neg m e =>
    obtain ⟨hden, hvalue⟩ : 0 < (magnitude m e).2 ∧
        ((magnitude m e).1 : ℚ) / (magnitude m e).2 = m / (1 : ℕ) * (2 : ℕ) ^ e := scaled_value two_pos one_pos m e
    obtain ⟨⟨num, den⟩, hfraction⟩ : ∃ fraction, magnitude m e = fraction := ⟨_, rfl⟩
    rw [hfraction] at hden hvalue
    simp only [hfraction, Nat.cast_one, div_one, Nat.cast_ofNat] at hden hvalue ⊢
    have hpos : (0 : ℚ) < den := by exact_mod_cast hden
    have hsign : (withSign neg m * 2 ^ e : ℚ) = withSign neg num / den := by
      cases neg
      · simp only [withSign, Int.cast_natCast, hvalue]
      · simp only [withSign, Int.cast_neg, Int.cast_natCast, neg_mul, neg_div, hvalue]
    have hneg : decide (n * den < 0) = decide (n < 0) := by
      have : (0 : ℤ) < den := by exact_mod_cast hden
      rw [decide_eq_decide]
      exact ⟨fun h => neg_of_mul_neg_left h this.le, fun h => mul_neg_of_neg_of_pos h this⟩
    have hcleared : (n : ℚ) = withSign neg num / den ↔ n * den = withSign neg num := by
      rw [eq_div_iff hpos.ne']
      exact_mod_cast Iff.rfl
    rw [KeyCode.number.injEq, hsign, hcleared, eq_withSign_iff, hneg, Int.natAbs_mul, Int.natAbs_natCast]
    simp

end Codes

/-! ## Keys -/

theorem floatCode_one : floatCode 1 = .number 1 := by
  rw [floatCode, show decode 1 = .finite false (2 ^ 52) (-52) from rfl]
  norm_num [withSign]

theorem floatCode_zero : floatCode 0 = .number 0 := by
  rw [floatCode, show decode 0 = .finite false 0 (-1074) from rfl]
  norm_num [withSign]

/-- A double is the same as a truth value exactly if its value is that of the truth value. -/
theorem sameTruth_iff (p : Bool) (x : Float) :
    (x == if p then 1 else 0) = true ↔ floatCode x = .number (if p then 1 else 0) := by
  have hnan : (if p then (1 : Float) else 0).isNaN = false := by cases p <;> rfl
  rw [← Bool.or_false (x == _), ← Bool.and_false x.isNaN, ← hnan, sameFloat_iff]
  cases p with
  | false => simp [floatCode_zero]
  | true => simp [floatCode_one]

theorem floatCode_ne (x : Float) : floatCode x ≠ .null ∧ ∀ s, floatCode x ≠ .text s := by
  unfold floatCode
  cases decode x <;> simp

namespace Datum

variable {a b : Datum}

theorem sameScalar_iff (h : a.isKey = true ∨ b.isKey = true) : a.sameScalar b = true ↔ a.keyCode = b.keyCode := by
  cases a with
  | list xs => cases b <;> simp [sameScalar, keyCode, isKey] at h ⊢
  | record fields => cases b <;> simp [sameScalar, keyCode, isKey] at h ⊢
  | null => cases b <;> simp [sameScalar, keyCode, (floatCode_ne _).1.symm]
  | text s => cases b <;> simp [sameScalar, keyCode, ((floatCode_ne _).2 _).symm]
  | bool p =>
    cases b with
    | bool q => cases p <;> cases q <;> simp [sameScalar, keyCode]
    | int n =>
      rw [sameScalar, keyCode, keyCode, Option.some.injEq, KeyCode.number.injEq, beq_iff_eq, eq_comm]
      cases p <;> norm_cast
    | float x => rw [sameScalar, sameTruth_iff, keyCode, keyCode, Option.some.injEq, eq_comm]
    | _ => simp [sameScalar, keyCode]
  | int n =>
    cases b with
    | bool q =>
      rw [sameScalar, keyCode, keyCode, Option.some.injEq, KeyCode.number.injEq, beq_iff_eq]
      cases q <;> norm_cast
    | int m => simp [sameScalar, keyCode]
    | float x => rw [sameScalar, intEqFloat_iff, keyCode, keyCode, Option.some.injEq]
    | _ => simp [sameScalar, keyCode]
  | float x =>
    cases b with
    | bool q => rw [sameScalar, sameTruth_iff, keyCode, keyCode, Option.some.injEq]
    | int n => rw [sameScalar, intEqFloat_iff, keyCode, keyCode, Option.some.injEq, eq_comm]
    | float y => rw [sameScalar, sameFloat_iff, keyCode, keyCode, Option.some.injEq]
    | null => simp [sameScalar, keyCode, (floatCode_ne x).1]
    | text s => simp [sameScalar, keyCode, (floatCode_ne x).2]
    | _ => simp [sameScalar, keyCode]

/-- A value is the same as a key exactly if they have one code. -/
theorem same_iff (h : a.isKey = true ∨ b.isKey = true) : (a == b) = true ↔ a.keyCode = b.keyCode := by
  rw [← sameScalar_iff h]
  show a.same b = true ↔ _
  cases a <;> cases b <;> first | rfl | simp [isKey] at h

end Datum

/-! ## Tables -/

/-- What is found under a key is found under every key that is the same. -/
theorem Table.lookup_same {α : Type} {key key' : Datum} (hkey : key.isKey = true) (hkey' : key'.isKey = true)
    (h : (key == key') = true) (t : Table Datum α) : t.lookup key = t.lookup key' := by
  induction t with
  | nil => rfl
  | cons row t ih =>
    have hrow : (key == row.1) = (key' == row.1) := by
      rw [Bool.eq_iff_iff, Datum.same_iff (.inl hkey), Datum.same_iff (.inl hkey'), (Datum.same_iff (.inl hkey)).1 h]
    rw [List.lookup_cons, List.lookup_cons, hrow, ih]

/-- What is set under a key is found under every key that is the same. -/
theorem Table.lookup_set_key {α : Type} {k key : Datum} (hk : k.isKey = true) (hkey : key.isKey = true) {v : α} :
    ∀ {t : Table Datum α}, (t.set k v).lookup key = if key == k then some v else t.lookup key
  | [] => by
    rw [Table.set_nil, List.lookup_cons, List.lookup_nil]
    cases key == k <;> rfl
  | (k', w) :: t => by
    have hcode : (key == k') = true → ((key == k) = true ↔ (k' == k) = true) := by
      intro hrow
      rw [Datum.same_iff (.inl hkey), Datum.same_iff (.inr hk), (Datum.same_iff (.inl hkey)).1 hrow]
    rw [Table.set_cons]
    split
    · rename_i hset
      have hsame : (key == k') = (key == k) := by
        rw [Bool.eq_iff_iff, Datum.same_iff (.inl hkey), Datum.same_iff (.inl hkey),
          (Datum.same_iff (.inr hk)).1 hset]
      rw [List.lookup_cons, List.lookup_cons, hsame]
      cases key == k <;> rfl
    · rename_i hset
      rw [List.lookup_cons, List.lookup_cons, lookup_set_key hk hkey]
      cases hrow : key == k' with
      | false => rfl
      | true => simp only [mt (hcode hrow).1 hset, Bool.false_eq_true, if_false]

end Maquette
