/-
Scores of tokens are numbers and never exceed one. A similarity is one minus something that is not
below zero, or a quotient that is at most one; weighted sums keep the order, so they are at most the
sums of their weights, which are one. A score can be missing only because a number is too large.
-/
import Maquette.Proofs.Decimal.Ratio
import Maquette.Proofs.Datum
import Maquette.Token.Match

namespace Maquette.Token

open Decimal

/-! ## Similarity of names -/

theorem quotient_le_one {m n : ℕ} (h : m ≤ n) : quotient m n ≤ 1 := ofRatio_le_one h

/-- One minus a quotient is at most one. -/
theorem one_sub_quotient_le (m : ℕ) {n : ℕ} (hn : 0 < n) : (1.0 : Float) - quotient m n ≤ 1 :=
  sub_le (by decide) (notNegative_of_le (ofRatio_nonneg m hn))
    (ne_none_of_le (ofRatio_nonneg m hn)).2

theorem nameSimilarity_le_one (a b : String) : nameSimilarity a b ≤ 1 := by
  unfold nameSimilarity
  simp only
  split
  · decide
  · have hlongest : 0 < max a.toList.length b.toList.length := by
      have hne : ¬ (a.toList.isEmpty || b.toList.isEmpty) = true := by assumption
      rw [Bool.or_eq_true, not_or, List.isEmpty_iff, ← ne_eq, ← List.length_pos_iff] at hne
      omega
    have hcontainment : (if (Text.occursIn a.toList b.toList || Text.occursIn b.toList a.toList) = true
        then quotient (min a.toList.length b.toList.length) (max a.toList.length b.toList.length)
        else 0.0) ≤ 1 := by
      split
      · exact quotient_le_one (min_le_max)
      · decide
    have hshared := quotient_le_one (((parts a.toList).length_filter_le (parts b.toList).contains).trans
      (le_max_left _ (parts b.toList).length))
    -- the weighted sum is at most the sum of the weights
    refine le_trans (y := (0.5 * 1 + 0.3 * 1 + 0.2 * 1 : Float)) ?_ (by decide)
    refine add_mono (by decide) (by decide) ?_ ?_
    · refine add_mono (by decide) (by decide) ?_ ?_
      · exact mul_mono (by decide) (by decide) (by decide)
          (one_sub_quotient_le _ hlongest)
      · exact mul_mono (by decide) (by decide) (by decide) hcontainment
    · exact mul_mono (by decide) (by decide) (by decide) hshared

/-! ## Similarity of values -/

theorem colorSimilarity_le_one {a b : Datum} {c : Float} (h : colorSimilarity a b = .ok (some c))
    (hc : rank c ≠ none) : c ≤ 1 := by
  unfold colorSimilarity at h
  obtain ⟨x, -, h⟩ := Outcome.bind_ok h
  obtain ⟨y, -, h⟩ := Outcome.bind_ok h
  split at h
  · obtain ⟨distance, hd, h⟩ := Outcome.bind_ok h
    cases h
    have hdistance : NotNegative distance := by
      unfold Color.distance at hd
      obtain ⟨sum, -, hd⟩ := Outcome.bind_ok hd
      obtain ⟨x, -, hd⟩ := Outcome.bind_ok hd
      cases hd
      exact sqrt_notNegative x
    have hone : isFinite 1 = true := by decide
    exact sub_le hone (div_notNegative hdistance (by decide +kernel))
      (mt (rank_sub_eq_none hone).2 hc)
  · cases h

theorem numericSimilarity_le_one {a b : Datum} {c : Float}
    (h : numericSimilarity a b = .ok (some c)) (hc : rank c ≠ none) : c ≤ 1 := by
  unfold numericSimilarity at h
  obtain ⟨x, -, h⟩ := Outcome.bind_ok h
  obtain ⟨y, -, h⟩ := Outcome.bind_ok h
  cases x with
  | none => cases h
  | some x =>
    obtain ⟨x, unit⟩ := x
    cases y with
    | none => cases h
    | some y =>
      obtain ⟨y, unit'⟩ := y
      simp only at h
      split at h
      · cases h
      · have hlargest : isNegative (if x.abs < y.abs then y.abs else x.abs) = false := by
          split
          · exact abs_positive y
          · exact abs_positive x
        generalize (if x.abs < y.abs then y.abs else x.abs) = largest at h hlargest
        cases h
        have hone : isFinite 1 = true := by decide
        by_cases hzero : (largest == 0) = true
        · rw [if_pos hzero]
          decide
        · rw [if_neg hzero] at hc ⊢
          exact sub_le hone (div_notNegative (notNegative_of_isNegative (abs_positive _)) hlargest)
            (mt (rank_sub_eq_none hone).2 hc)

/-! ## Scores -/

theorem better_le_one {a b : Float} (ha : a ≤ 1) (hb : b ≤ 1) : better a b ≤ 1 := by
  unfold better
  split
  · exact hb
  · exact ha

/-- A weighted sum of a similarity of names and one of values. -/
theorem weighted_le_one {v w x y : Float} (hv : 0 < v ∧ isFinite v = true)
    (hw : 0 < w ∧ isFinite w = true) (hproducts : isFinite (v * 1) = true ∧ isFinite (w * 1) = true)
    (hsum : v * 1 + w * 1 ≤ 1) (hx : x ≤ 1) (hy : y ≤ 1) : v * x + w * y ≤ 1 :=
  le_trans (add_mono hproducts.1 hproducts.2 (mul_mono hv.1 hv.2 (by decide) hx)
    (mul_mono hw.1 hw.2 (by decide) hy)) hsum

theorem score_le_one {var token : Datum} {variableName tokenName : String} {s : Float}
    (h : score var variableName token tokenName = .ok s) : s ≤ 1 := by
  have hname := nameSimilarity_le_one variableName tokenName
  unfold score at h
  simp only at h
  generalize nameSimilarity variableName tokenName = byName at hname h
  have hbase : (if 0.7 < byName then byName else 0.0) ≤ 1 := by
    split
    · exact hname
    · decide
  generalize (if 0.7 < byName then byName else 0.0) = base at hbase h
  obtain ⟨value, -, h⟩ := Outcome.bind_ok h
  obtain ⟨tokenValue, -, h⟩ := Outcome.bind_ok h
  obtain ⟨color, hcolor, h⟩ := Outcome.bind_ok h
  cases color with
  | some color =>
    cases h
    split
    · have hlt : 0.95 < color := by assumption
      have hle := colorSimilarity_le_one hcolor (ne_none_of_le (le_of_lt hlt)).2
      refine better_le_one (better_le_one hbase (weighted_le_one ?_ ?_ ?_ ?_ hname hle)) ?_
      · decide
      · decide
      · decide
      · decide
      · exact le_trans (mul_mono (by decide) (by decide) (by decide) hle)
          (by decide)
    · exact hbase
  | none =>
    obtain ⟨numeric, hnumeric, h⟩ := Outcome.bind_ok h
    cases numeric with
    | some numeric =>
      cases h
      split
      · have hlt : 0.99 < numeric := by assumption
        have hle := numericSimilarity_le_one hnumeric (ne_none_of_le (le_of_lt hlt)).2
        refine better_le_one (better_le_one hbase (weighted_le_one ?_ ?_ ?_ ?_ hname hle)) ?_
        · decide
        · decide
        · decide
        · decide
        · exact le_trans (mul_mono (by decide) (by decide) (by decide) hle)
            (by decide)
      · exact hbase
    | none =>
      cases h
      exact hbase

/-! ## Values without a score -/

section Faults

variable {f : Fault}

theorem toFloat_fault {n : Number} (h : n.toFloat = .error f) : f = .tooLarge := by
  cases n with
  | int n =>
    unfold Number.toFloat at h
    simp only at h
    split at h
    · cases h
    · cases h
      rfl
  | float x => cases h

theorem combine_fault {onInts : ℤ → ℤ → ℤ} {onFloats : Float → Float → Float} {m n : Number}
    (h : Number.combine onInts onFloats m n = .error f) : f = .tooLarge := by
  have hfloats : ∀ m n : Number, (do return Number.float (onFloats (← m.toFloat) (← n.toFloat))) =
      (.error f : Outcome Number) → f = .tooLarge := by
    intro m n h
    rcases Outcome.bind_error h with h | ⟨x, -, h⟩
    · exact toFloat_fault h
    · rcases Outcome.bind_error h with h | ⟨y, -, h⟩
      · exact toFloat_fault h
      · cases h
  unfold Number.combine at h
  split at h
  · cases h
  · exact hfloats _ _ h

theorem square_fault {n : Number} (h : n.square = .error f) : f = .tooLarge := by
  cases n with
  | int n => cases h
  | float x =>
    unfold Number.square at h
    simp only at h
    split at h
    · cases h
      rfl
    · cases h

theorem number_toDatum (n : Number) : n.toDatum.number = .ok n := by
  cases n <;> rfl

theorem distance_fault {x y : Color.Rgb} (h : Color.distance x.channels y.channels = .error f) :
    f = .tooLarge := by
  have hstep : ∀ (sum m n : Number), (do sum.add (← (← (← m.toDatum.minus n.toDatum).number).square)) =
      .error f → f = .tooLarge := by
    intro sum m n h
    unfold Datum.minus at h
    rw [number_toDatum, number_toDatum, Outcome.ok_bind, Outcome.ok_bind] at h
    rcases Outcome.bind_error h with h | ⟨d, hd, h⟩
    · rcases Outcome.bind_error h with h | ⟨n, -, h⟩
      · exact combine_fault h
      · cases h
    · obtain ⟨n, -, hd⟩ := Outcome.bind_ok hd
      cases hd
      rw [number_toDatum, Outcome.ok_bind] at h
      rcases Outcome.bind_error h with h | ⟨n, -, h⟩
      · exact square_fault h
      · exact combine_fault h
  unfold Color.distance Color.Rgb.channels at h
  rcases Outcome.bind_error h with h | ⟨sum, -, h⟩
  · rcases Outcome.bind_error h with h | ⟨sum, -, h⟩
    · exact hstep _ _ _ h
    · rcases Outcome.bind_error h with h | ⟨sum, -, h⟩
      · exact hstep _ _ _ h
      · rcases Outcome.bind_error h with h | ⟨sum, -, h⟩
        · exact hstep _ _ _ h
        · cases h
  · rcases Outcome.bind_error h with h | ⟨x, -, h⟩
    · exact toFloat_fault h
    · cases h

/-- A value that is no color record can be read. -/
theorem read_ok {d : Datum} (h : Color.isRecord d = false) : ∃ color, Color.read d = .ok color := by
  unfold Color.read
  rw [h]
  simp only [Bool.false_eq_true, if_false]
  split
  · split
    · exact ⟨_, rfl⟩
    · exact ⟨_, rfl⟩
  · exact ⟨_, rfl⟩

theorem quantity_fault {d : Datum} (h : quantity d = .error f) : f = .tooLarge := by
  unfold quantity at h
  split at h
  · rcases Outcome.bind_error h with h | ⟨x, -, h⟩
    · exact toFloat_fault h
    · cases h
  · cases h
  · cases h
  · cases h

/-- The only fault of a score of values that are no color records. -/
theorem score_fault {var token : Datum} {variableName tokenName : String}
    (hvar : var.isRecord = true) (htoken : token.isRecord = true)
    (hvalue : ∀ v, var.at? "value" = some v → Color.isRecord v = false)
    (hvalue' : ∀ v, token.at? "value" = some v → Color.isRecord v = false)
    (h : score var variableName token tokenName = .error f) : f = .tooLarge := by
  have hnone : ∀ d : Datum, (∀ v, d.at? "value" = some v → Color.isRecord v = false) →
      Color.isRecord ((d.at? "value").getD .null) = false := by
    intro d hd
    cases hv : d.at? "value" with
    | none => rfl
    | some v => exact hd v hv
  unfold score at h
  rw [Datum.get_eq hvar, Datum.get_eq htoken, Outcome.ok_bind, Outcome.ok_bind] at h
  obtain ⟨x, hx⟩ := read_ok (hnone var hvalue)
  obtain ⟨y, hy⟩ := read_ok (hnone token hvalue')
  rcases Outcome.bind_error h with h | ⟨color, -, h⟩
  · unfold colorSimilarity at h
    rw [hx, hy, Outcome.ok_bind, Outcome.ok_bind] at h
    split at h
    · rcases Outcome.bind_error h with h | ⟨d, -, h⟩
      · exact distance_fault h
      · cases h
    · cases h
  · cases color with
    | some color => cases h
    | none =>
      rcases Outcome.bind_error h with h | ⟨numeric, -, h⟩
      · unfold numericSimilarity at h
        rcases Outcome.bind_error h with h | ⟨a, -, h⟩
        · exact quantity_fault h
        · rcases Outcome.bind_error h with h | ⟨b, -, h⟩
          · exact quantity_fault h
          · split at h
            · split at h <;> cases h
            · cases h
      · cases numeric <;> cases h

end Faults

end Maquette.Token
