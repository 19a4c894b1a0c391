/-
Rounding to a grid of natural numbers, halves to the even place. The place that a fraction is rounded
to is told by the places it leaves behind, so that rounding keeps the order without any look at how it
is computed.

Two grids matter: the integers, and the magnitudes of doubles in units of the least positive one. A
fraction that is scaled to a mantissa and rounded to an integer is rounded on the grid of doubles.
-/
import Maquette.Decimal.Places
import Mathlib

namespace Maquette.Decimal

/-! ## Rounding to a grid -/

/-- A fraction is rounded to a place after `b`: it is nearer to the next place, or halfway to it and
`b` is odd. -/
def Passes (grid : ℕ → ℕ) (q : ℚ) (b : ℕ) : Prop :=
  (grid b + grid (b + 1) : ℚ) < 2 * q ∨ ((grid b + grid (b + 1) : ℚ) = 2 * q ∧ Odd b)

/-- The fraction is rounded to place `c` of the grid. -/
def RoundsTo (grid : ℕ → ℕ) (q : ℚ) (c : ℕ) : Prop := ∀ b, b < c ↔ Passes grid q b

section Grid

variable {grid : ℕ → ℕ} {q q' : ℚ} {b b' c c' : ℕ}

theorem Passes.mono (h : Passes grid q b) (hq : q ≤ q') : Passes grid q' b := by
  rcases h with h | ⟨h, hodd⟩
  · exact .inl (by linarith)
  · rcases hq.lt_or_eq with hlt | rfl
    · exact .inl (by linarith)
    · exact .inr ⟨h, hodd⟩

theorem Passes.of_le (hg : StrictMono grid) (h : Passes grid q b) (hb : b' ≤ b) :
    Passes grid q b' := by
  rcases hb.lt_or_eq with hlt | rfl
  · left
    have hfirst : (grid b' : ℚ) < grid b := by exact_mod_cast hg hlt
    have hsecond : (grid (b' + 1) : ℚ) < grid (b + 1) := by exact_mod_cast hg (by omega)
    rcases h with h | ⟨h, -⟩ <;> linarith
  · exact h

/-- Rounding keeps the order. -/
theorem RoundsTo.mono (h : RoundsTo grid q c) (h' : RoundsTo grid q' c') (hq : q ≤ q') : c ≤ c' := by
  by_contra hlt
  have hpass := ((h c').1 (by omega)).mono hq
  exact lt_irrefl c' ((h' c').2 hpass)

theorem RoundsTo.unique (h : RoundsTo grid q c) (h' : RoundsTo grid q c') : c = c' :=
  le_antisymm (h.mono h' le_rfl) (h'.mono h le_rfl)

/-- It is enough to look at the places next to the one that is rounded to. -/
theorem RoundsTo.intro (hg : StrictMono grid) (hbelow : ∀ b, b + 1 = c → Passes grid q b)
    (habove : ¬ Passes grid q c) : RoundsTo grid q c := by
  intro b
  constructor
  · intro hb
    obtain ⟨c, rfl⟩ : ∃ c', c = c' + 1 := ⟨c - 1, by omega⟩
    exact (hbelow c rfl).of_le hg (by omega)
  · intro hb
    by_contra hle
    exact habove (hb.of_le hg (by omega))

/-- A place of the grid is rounded to itself. -/
theorem RoundsTo.self (hg : StrictMono grid) (c : ℕ) : RoundsTo grid (grid c) c := by
  refine .intro hg ?_ ?_
  · rintro b rfl
    left
    have : (grid b : ℚ) < grid (b + 1) := by exact_mod_cast hg (Nat.lt_succ_self b)
    linarith
  · have : (grid c : ℚ) < grid (c + 1) := by exact_mod_cast hg (Nat.lt_succ_self c)
    rintro (h | ⟨h, -⟩) <;> linarith

end Grid

/-! ## Rounding to integers -/

/-- A quotient is rounded to an integer after `b`, told without the division. -/
theorem passes_quotient (num : ℕ) {den : ℕ} (hden : 0 < den) (b : ℕ) :
    Passes id ((num : ℚ) / den) b ↔
      (2 * b + 1) * den < 2 * num ∨ (2 * b + 1) * den = 2 * num ∧ Odd b := by
  have hd : (0 : ℚ) < den := by exact_mod_cast hden
  have hq : 2 * ((num : ℚ) / den) = 2 * num / den := by ring
  have hlt : (((b : ℕ) : ℚ) + ((b + 1 : ℕ) : ℚ)) * den < 2 * num ↔
      (2 * b + 1) * den < 2 * num := by
    rw [← Nat.cast_lt (α := ℚ)]
    push_cast
    constructor <;> intro h <;> linarith
  have heq : (((b : ℕ) : ℚ) + ((b + 1 : ℕ) : ℚ)) * den = 2 * num ↔
      (2 * b + 1) * den = 2 * num := by
    rw [← Nat.cast_inj (R := ℚ)]
    push_cast
    constructor <;> intro h <;> linarith
  unfold Passes
  rw [hq, lt_div_iff₀ hd, eq_div_iff hd.ne']
  exact or_congr hlt (and_congr heq Iff.rfl)

/-- `nearest` rounds a quotient to an integer. -/
theorem nearest_rounds (num : ℕ) {den : ℕ} (hden : 0 < den) :
    RoundsTo id ((num : ℚ) / den) (nearest num den) := by
  have hsum : den * (num / den) + num % den = num := Nat.div_add_mod num den
  have hrem : num % den < den := Nat.mod_lt num hden
  have hmul : ∀ b, (2 * b + 1) * den = 2 * (den * b) + den := fun b => by ring
  have hsucc : ∀ b, den * (b + 1) = den * b + den := fun b => by ring
  refine .intro strictMono_id ?_ ?_
  · intro b hb
    rw [passes_quotient num hden, hmul]
    unfold nearest at hb
    simp only at hb
    split at hb
    · rw [← hb, hsucc] at hsum
      exact .inl (by omega)
    · split at hb
      · obtain rfl : b = num / den := by omega
        exact .inl (by omega)
      · -- halfway between two integers
        rcases Nat.mod_two_eq_zero_or_one (num / den) with heven | hodd
        · rw [heven] at hb
          rw [← hb.trans (Nat.add_zero _), hsucc] at hsum
          exact .inl (by omega)
        · obtain rfl : b = num / den := by omega
          exact .inr ⟨by omega, Nat.odd_iff.2 hodd⟩
  · rw [passes_quotient num hden, hmul]
    unfold nearest
    simp only
    split
    · rintro (h | ⟨h, -⟩) <;> omega
    · split
      · rw [hsucc]
        rintro (h | ⟨h, -⟩) <;> omega
      · rcases Nat.mod_two_eq_zero_or_one (num / den) with heven | hodd
        · rw [heven, Nat.add_zero]
          rintro (h | ⟨-, h⟩)
          · omega
          · exact absurd h (by rw [Nat.odd_iff]; omega)
        · rw [hodd, hsucc]
          rintro (h | ⟨h, -⟩) <;> omega

/-! ## The grid of doubles -/

/-- The magnitude of the double with these bits behind the sign, in units of the least positive one.
The grid goes on beyond the greatest double. -/
def unitsAt (c : ℕ) : ℕ :=
  if c / leastMantissa = 0 then c % leastMantissa
  else (leastMantissa + c % leastMantissa) * 2 ^ (c / leastMantissa - 1)

section Units

variable {t r : ℕ}

/-- A mantissa and an exponent that is minimal for it give the bits and the magnitude. -/
theorem unitsAt_eq (ht : t = 0 ∨ leastMantissa ≤ r) (hr : r ≤ 2 * leastMantissa) :
    unitsAt (t * leastMantissa + r) = r * 2 ^ t := by
  have hL : 0 < leastMantissa := by decide
  unfold unitsAt
  by_cases hsmall : r < leastMantissa
  · obtain rfl : t = 0 := by omega
    rw [Nat.zero_mul, Nat.zero_add, Nat.div_eq_of_lt hsmall, if_pos rfl, Nat.mod_eq_of_lt hsmall,
      pow_zero, Nat.mul_one]
  · by_cases hfull : r = 2 * leastMantissa
    · have hsplit : t * leastMantissa + r = leastMantissa * (t + 2) := by rw [hfull]; ring
      rw [hsplit, Nat.mul_div_cancel_left _ hL, Nat.mul_mod_right, if_neg (by omega), hfull,
        Nat.add_sub_assoc (by omega), pow_add]
      ring
    · have hsplit : t * leastMantissa + r = (r - leastMantissa) + leastMantissa * (t + 1) := by
        obtain ⟨k, rfl⟩ : ∃ k, r = leastMantissa + k := ⟨r - leastMantissa, by omega⟩
        rw [Nat.add_sub_cancel_left]
        ring
      have hrest : r - leastMantissa < leastMantissa := by omega
      rw [hsplit, Nat.add_mul_div_left _ _ hL, Nat.div_eq_of_lt hrest, Nat.add_mul_mod_self_left,
        Nat.mod_eq_of_lt hrest, if_neg (by omega), Nat.add_sub_cancel' (by omega)]
      congr 2
      omega

/-- Every place of the grid has such a mantissa. -/
theorem exists_mantissa (c : ℕ) :
    ∃ t r, c = t * leastMantissa + r ∧ (t = 0 ∨ leastMantissa ≤ r) ∧ r < 2 * leastMantissa := by
  have hsum : leastMantissa * (c / leastMantissa) + c % leastMantissa = c := Nat.div_add_mod c _
  have hrem : c % leastMantissa < leastMantissa := Nat.mod_lt c (by decide)
  cases hd : c / leastMantissa with
  | zero => exact ⟨0, c, by omega, .inl rfl, by rw [hd] at hsum; omega⟩
  | succ t =>
    refine ⟨t, leastMantissa + c % leastMantissa, ?_, .inr (by omega), by omega⟩
    rw [hd] at hsum
    linarith [Nat.mul_comm leastMantissa t, Nat.mul_succ leastMantissa t]

theorem unitsAt_strictMono : StrictMono unitsAt := by
  refine strictMono_nat_of_lt_succ fun c => ?_
  obtain ⟨t, r, rfl, ht, hr⟩ := exists_mantissa c
  rw [unitsAt_eq ht hr.le, Nat.add_assoc, unitsAt_eq (by omega) (by omega)]
  exact Nat.mul_lt_mul_of_pos_right (Nat.lt_succ_self r) (by positivity)

end Units

/-- A fraction that is scaled so that its integer part is a mantissa and is rounded to an integer is
rounded on the grid of doubles. -/
theorem rounds_scaled {q : ℚ} {t r : ℕ} (h : RoundsTo id (q / 2 ^ t) r)
    (hlow : t = 0 ∨ (leastMantissa : ℚ) ≤ q / 2 ^ t) (hhigh : q / 2 ^ t < 2 * leastMantissa) :
    RoundsTo unitsAt q (t * leastMantissa + r) := by
  have hpow : (0 : ℚ) < 2 ^ t := by positivity
  have hL : Even leastMantissa := by decide
  have hpos : 0 < leastMantissa := by decide
  have hr : r ≤ 2 * leastMantissa := by
    refine h.mono (.self strictMono_id _) ?_
    push_cast [id]
    exact hhigh.le
  have ht : t = 0 ∨ leastMantissa ≤ r := hlow.imp_right fun hlow =>
    (RoundsTo.self strictMono_id _).mono h hlow
  -- a place with the same exponent is passed exactly when its mantissa is
  have hpass : ∀ m : ℕ, (t = 0 ∨ leastMantissa ≤ m) → m < 2 * leastMantissa →
      (Passes unitsAt q (t * leastMantissa + m) ↔ Passes id (q / 2 ^ t) m) := by
    intro m hm hlt
    have hodd : Odd (t * leastMantissa + m) ↔ Odd m := by
      rw [Nat.add_comm, Nat.odd_add, iff_true_right (hL.mul_left t)]
    unfold Passes
    rw [Nat.add_assoc, unitsAt_eq hm hlt.le, unitsAt_eq (by omega) (by omega), hodd]
    simp only [id]
    push_cast
    rw [← mul_div_assoc, lt_div_iff₀ hpow, eq_div_iff hpow.ne']
    have hsum : (m : ℚ) * 2 ^ t + (m + 1) * 2 ^ t = (m + (m + 1)) * 2 ^ t := by ring
    rw [hsum]
  refine .intro unitsAt_strictMono ?_ ?_
  · intro b hb
    by_cases hfirst : t = 0 ∨ leastMantissa < r
    · obtain ⟨m, rfl⟩ : ∃ m, r = m + 1 := by
        refine ⟨r - 1, ?_⟩
        rcases hfirst with rfl | hfirst
        · rw [Nat.zero_mul] at hb
          omega
        · omega
      obtain rfl : b = t * leastMantissa + m := by omega
      exact (hpass m (by omega) (by omega)).2 ((h m).1 (Nat.lt_succ_self m))
    · -- the place below is the last one with the exponent before
      push Not at hfirst
      obtain ⟨t, rfl⟩ : ∃ t', t = t' + 1 := ⟨t - 1, by omega⟩
      obtain rfl : r = leastMantissa := by omega
      have hplace : b = t * leastMantissa + (2 * leastMantissa - 1) := by
        have : (t + 1) * leastMantissa = t * leastMantissa + leastMantissa := by ring
        omega
      have hnext : b + 1 = t * leastMantissa + 2 * leastMantissa := by omega
      left
      rw [hnext, hplace, unitsAt_eq (by unfold leastMantissa; omega) (by omega),
        unitsAt_eq (by unfold leastMantissa; omega) le_rfl]
      have hq := hlow.resolve_left (by omega)
      rw [le_div_iff₀ hpow, pow_succ] at hq
      have hp : (0 : ℚ) < 2 ^ t := by positivity
      have hcast : ((2 * leastMantissa - 1 : ℕ) : ℚ) = 2 * leastMantissa - 1 := by
        rw [Nat.cast_sub (by decide)]
        push_cast
        rfl
      push_cast [hcast]
      nlinarith
  · by_cases hfull : r = 2 * leastMantissa
    · -- all mantissas with this exponent are passed, so the place has the next exponent
      have hplace : t * leastMantissa + r = (t + 1) * leastMantissa + leastMantissa := by
        rw [hfull]; ring
      have hp : (0 : ℚ) < 2 ^ t := hpow
      have hq := (div_lt_iff₀ hpow).1 hhigh
      unfold Passes
      rw [hplace, Nat.add_assoc, unitsAt_eq (.inr le_rfl) (by omega),
        unitsAt_eq (.inr (by omega)) (by unfold leastMantissa; omega)]
      push_cast [pow_succ]
      rintro (h | ⟨h, -⟩) <;> nlinarith
    · rw [hpass r ht (by omega)]
      exact fun hr => lt_irrefl r ((h r).2 hr)

end Maquette.Decimal
