/-
Confidence without rounding. In real numbers the similarity of names is one for equal names alone, and
a similarity of values is at most one, so what a token of another name scores is either nothing or
between the least threshold and one. The search keeps this of the best token, and it ends with full
confidence only at a token of the variable's own name.
-/
import Mathlib.Tactic.Linarith
import Mathlib.Tactic.Positivity
import Maquette.Proofs.Text
import Maquette.Proofs.Token.Edits
import Maquette.Proofs.Token.Reckoned
import Maquette.Proofs.Token.Usage

namespace Maquette.Token

/-! ## Real numbers -/

/-- A finite number as it is. -/
noncomputable def exactly (x : Number) : Outcome ℝ :=
  match x.ratio? with
  | some (num, den) => .ok (num / den)
  | none => .error .notANumber

/-- Real numbers, in which nothing is rounded. -/
noncomputable def reals : Reckoning ℝ where
  quotient m n := m / n
  ofNumber := exactly
  size x := |x|
  isZero x := decide (x = 0)
  distance x y := do
    let r := (← exactly x.r) - (← exactly y.r)
    let g := (← exactly x.g) - (← exactly y.g)
    let b := (← exactly x.b) - (← exactly y.b)
    return √(r ^ 2 + g ^ 2 + b ^ 2)
  maxDistance := √(3 * 255 ^ 2)

/-! ## Similarity of names -/

section Names

variable {a b : String}

theorem length_pos_of_ne {a : String} (h : a ≠ "") : 0 < a.toList.length :=
  List.length_pos_iff.2 (by simpa using h)

/-- The similarity of names that are not empty, by its three parts. -/
theorem namesIn_reals (ha : a ≠ "") (hb : b ≠ "") : namesIn reals a b =
    1 / 2 * (1 - (editDistance a.toList b.toList : ℝ) / (max a.toList.length b.toList.length : ℕ)) +
    3 / 10 * (if (Text.occursIn a.toList b.toList || Text.occursIn b.toList a.toList) = true then
      ((min a.toList.length b.toList.length : ℕ) : ℝ) / (max a.toList.length b.toList.length : ℕ)
      else 0) +
    1 / 5 * ((((parts a.toList).filter (parts b.toList).contains).length : ℝ) /
      (max (parts a.toList).length (parts b.toList).length : ℕ)) := by
  have hnonempty : ¬ (a.toList.isEmpty || b.toList.isEmpty) = true := by
    simp [ha, hb]
  unfold namesIn
  simp only
  rw [if_neg hnonempty]
  norm_num [reals]

/-- A share of a whole lies between nothing and one. -/
theorem share_bounds {m n : ℕ} (h : m ≤ n) : (0 : ℝ) ≤ m / n ∧ (m : ℝ) / n ≤ 1 := by
  have hcast : (m : ℝ) ≤ n := Nat.cast_le.2 h
  exact ⟨by positivity, div_le_one_of_le₀ hcast (Nat.cast_nonneg n)⟩

theorem parts_nodup (cs : List Char) : (parts cs).Nodup := by
  have h := nodup_eraseDups (Text.splitOn (· == '-') cs)
  rwa [lawful_beq_subsingleton (instBEqOfDecidableEq : BEq (List Char)) List.instBEq] at h

theorem shared_comm (x y : List Char) :
    ((parts x).filter (parts y).contains).length = ((parts y).filter (parts x).contains).length := by
  refine List.Perm.length_eq ((List.perm_ext_iff_of_nodup ((parts_nodup x).filter _)
    ((parts_nodup y).filter _)).2 ?_)
  intro part
  simp only [List.mem_filter, List.contains_iff_mem]
  exact and_comm

/-- The similarity of names does not depend on their order. -/
theorem namesIn_comm (a b : String) : namesIn reals a b = namesIn reals b a := by
  by_cases ha : a = ""
  · subst ha
    unfold namesIn
    simp
  · by_cases hb : b = ""
    · subst hb
      unfold namesIn
      simp
    · rw [namesIn_reals ha hb, namesIn_reals hb ha, editDistance_comm b.toList, shared_comm b.toList,
        max_comm b.toList.length, max_comm (parts b.toList).length, min_comm b.toList.length,
        Bool.or_comm]

theorem namesIn_empty (h : a = "" ∨ b = "") : namesIn reals a b = 0 := by
  have hempty : (a.toList.isEmpty || b.toList.isEmpty) = true := by simpa using h
  unfold namesIn
  rw [if_pos hempty]
  norm_num

/-- The similarity of names lies between nothing and one, and is one for equal names alone. -/
theorem namesIn_bounds (a b : String) : 0 ≤ namesIn reals a b ∧ namesIn reals a b ≤ 1 ∧
    (namesIn reals a b = 1 → a ≠ "" ∧ a = b) := by
  by_cases hempty : a = "" ∨ b = ""
  · rw [namesIn_empty hempty]
    norm_num
  · obtain ⟨ha, hb⟩ := not_or.1 hempty
    have hedit := share_bounds (editDistance_le a.toList b.toList)
    have hcontained : ∀ p : Prop, ∀ [Decidable p],
        0 ≤ (if p then ((min a.toList.length b.toList.length : ℕ) : ℝ) /
          (max a.toList.length b.toList.length : ℕ) else 0) ∧
        (if p then ((min a.toList.length b.toList.length : ℕ) : ℝ) /
          (max a.toList.length b.toList.length : ℕ) else 0) ≤ 1 := by
      intro p _
      split
      · exact share_bounds min_le_max
      · norm_num
    have hshared := share_bounds
      (((parts a.toList).length_filter_le (parts b.toList).contains).trans
        (le_max_left _ (parts b.toList).length))
    have hcontainment := hcontained
      ((Text.occursIn a.toList b.toList || Text.occursIn b.toList a.toList) = true)
    rw [namesIn_reals ha hb]
    refine ⟨by linarith, by linarith, fun hone => ⟨ha, ?_⟩⟩
    -- nothing is lost by edits
    have hzero : (editDistance a.toList b.toList : ℝ) /
        (max a.toList.length b.toList.length : ℕ) = 0 := by linarith
    have hlongest : ((max a.toList.length b.toList.length : ℕ) : ℝ) ≠ 0 := by
      have := length_pos_of_ne ha
      exact Nat.cast_ne_zero.2 (by omega)
    rw [div_eq_zero_iff, or_iff_left hlongest, Nat.cast_eq_zero, editDistance_eq_zero] at hzero
    exact String.toList_inj.1 hzero

theorem occursIn_self (cs : List Char) : Text.occursIn cs cs = true := by
  cases cs with
  | nil => rfl
  | cons c cs =>
    rw [Text.occursIn, Text.isSome_dropPrefix?.2 List.prefix_rfl, Bool.true_or]

theorem parts_pos (cs : List Char) : 0 < (parts cs).length := by
  obtain ⟨part, rest, hparts⟩ := Text.exists_splitOn (· == '-') cs
  rw [parts, hparts, List.eraseDups_cons]
  exact Nat.succ_pos _

theorem namesIn_self (ha : a ≠ "") : namesIn reals a a = 1 := by
  have hlength : ((a.toList.length : ℕ) : ℝ) ≠ 0 := Nat.cast_ne_zero.2 (length_pos_of_ne ha).ne'
  have hparts : (((parts a.toList).length : ℕ) : ℝ) ≠ 0 :=
    Nat.cast_ne_zero.2 (parts_pos a.toList).ne'
  have hshared : (parts a.toList).filter (parts a.toList).contains = parts a.toList :=
    List.filter_eq_self.2 fun part hpart => List.contains_iff_mem.2 hpart
  rw [namesIn_reals ha ha, (editDistance_eq_zero a.toList a.toList).2 rfl, max_self, min_self, max_self,
    hshared, occursIn_self, Bool.or_self, if_pos rfl, div_self hlength, div_self hparts]
  norm_num

end Names

/-! ## Similarity of values -/

section Values

variable {a b : Datum} {s : ℝ}

theorem colorsIn_le_one (h : colorsIn reals a b = .ok (some s)) : s ≤ 1 := by
  unfold colorsIn at h
  obtain ⟨x, -, h⟩ := Outcome.bind_ok h
  obtain ⟨y, -, h⟩ := Outcome.bind_ok h
  split at h
  · obtain ⟨distance, hd, h⟩ := Outcome.bind_ok h
    cases h
    have hdistance : 0 ≤ distance := by
      unfold reals at hd
      simp only at hd
      obtain ⟨r, -, hd⟩ := Outcome.bind_ok hd
      obtain ⟨r', -, hd⟩ := Outcome.bind_ok hd
      obtain ⟨g, -, hd⟩ := Outcome.bind_ok hd
      obtain ⟨g', -, hd⟩ := Outcome.bind_ok hd
      obtain ⟨b, -, hd⟩ := Outcome.bind_ok hd
      obtain ⟨b', -, hd⟩ := Outcome.bind_ok hd
      cases hd
      exact Real.sqrt_nonneg _
    have hmax : 0 ≤ reals.maxDistance := Real.sqrt_nonneg _
    exact sub_le_self _ (div_nonneg hdistance hmax)
  · cases h

theorem numbersIn_le_one (h : numbersIn reals a b = .ok (some s)) : s ≤ 1 := by
  unfold numbersIn at h
  obtain ⟨x, -, h⟩ := Outcome.bind_ok h
  obtain ⟨y, -, h⟩ := Outcome.bind_ok h
  cases x with
  | none => cases h
  | some x =>
    obtain ⟨x, unit⟩ := x
    cases y with
    | none => cases h
    | some y =>
      obtain ⟨y, unit'⟩ := y
      simp only at h
      split at h
      · cases h
      · have hlargest : 0 ≤ (if reals.size x < reals.size y then reals.size y else reals.size x) := by
          split
          · exact abs_nonneg y
          · exact abs_nonneg x
        generalize (if reals.size x < reals.size y then reals.size y else reals.size x) = largest
          at h hlargest
        cases h
        split
        · norm_num
        · exact sub_le_self _ (div_nonneg (abs_nonneg (x - y)) hlargest)

end Values

/-! ## Scores -/

theorem greater_eq_max (a b : ℝ) : greater a b = max a b := by
  unfold greater
  split
  · rename_i h
    exact (max_eq_right h.le).symm
  · rename_i h
    exact (max_eq_left (not_lt.1 h)).symm

/-- What is blended out of a similarity of names and one of values. -/
theorem blend_bounds {base name value v w u : ℝ} (hbase : base = 0 ∨ 0.7 < base ∧ base < 1)
    (hname : name < 1) (hvalue : value ≤ 1) (hv : 0 < v) (hw : 0 < w) (hvw : v + w = 1)
    (hlow : 0.7 < u * value) (hu : 0 ≤ u ∧ u < 1) :
    0.7 < greater (greater base (v * name + w * value)) (u * value) ∧
      greater (greater base (v * name + w * value)) (u * value) < 1 := by
  rw [greater_eq_max, greater_eq_max]
  refine ⟨lt_max_of_lt_right hlow, max_lt (max_lt ?_ ?_) ?_⟩
  · rcases hbase with rfl | ⟨-, hlt⟩
    · norm_num
    · exact hlt
  · nlinarith
  · nlinarith

/-- A token of another name scores nothing, or more than the least threshold and less than one. -/
theorem scoreIn_bounds {var token : Datum} {n m : String} {s : ℝ} (hname : namesIn reals n m < 1)
    (h : scoreIn reals var n token m = .ok s) : s = 0 ∨ 0.7 < s ∧ s < 1 := by
  unfold scoreIn at h
  simp only at h
  generalize namesIn reals n m = byName at hname h
  have hbase : (if 0.7 < byName then byName else 0.0) = 0 ∨
      0.7 < (if 0.7 < byName then byName else 0.0) ∧ (if 0.7 < byName then byName else 0.0) < 1 := by
    split
    · rename_i hlow
      exact .inr ⟨hlow, hname⟩
    · exact .inl (by norm_num)
  generalize (if 0.7 < byName then byName else 0.0) = base at hbase h
  obtain ⟨value, -, h⟩ := Outcome.bind_ok h
  obtain ⟨tokenValue, -, h⟩ := Outcome.bind_ok h
  obtain ⟨color, hcolor, h⟩ := Outcome.bind_ok h
  cases color with
  | some color =>
    cases h
    split
    · rename_i hlow
      have hcolor := colorsIn_le_one hcolor
      refine .inr (blend_bounds hbase hname hcolor ?_ ?_ ?_ ?_ ?_) <;> norm_num at hlow ⊢
      linarith
    · exact hbase
  | none =>
    obtain ⟨numeric, hnumeric, h⟩ := Outcome.bind_ok h
    cases numeric with
    | some numeric =>
      cases h
      split
      · rename_i hlow
        have hnumeric := numbersIn_le_one hnumeric
        refine .inr (blend_bounds hbase hname hnumeric ?_ ?_ ?_ ?_ ?_) <;> norm_num at hlow ⊢
        linarith
      · exact hbase
    | none =>
      cases h
      exact hbase

/-! ## Finite values -/

/-- A value that is null when it is not there. -/
def valueOf (d : Datum) : Datum := (d.at? "value").getD .null

/-- A variable or a token whose name and kind are texts or missing, and whose value is compared in
finite numbers. -/
structure IsMeasured (d : Datum) : Prop where
  record : d.isRecord = true
  name : ∃ name, ownName d = .ok name
  kind : ∃ kind, ownKind d = .ok kind
  color : ∃ color, Color.read (valueOf d) = .ok color ∧
    ∀ c ∈ color, c.r.ratio? ≠ none ∧ c.g.ratio? ≠ none ∧ c.b.ratio? ≠ none
  size : ∀ q ∈ measure? (valueOf d), q.1.ratio? ≠ none

section Finite

variable {var token : Datum}

theorem exactly_ok {x : Number} (h : x.ratio? ≠ none) : ∃ y, exactly x = .ok y := by
  obtain ⟨⟨num, den⟩, hx⟩ := Option.ne_none_iff_exists'.1 h
  exact ⟨num / den, by rw [exactly, hx]⟩

theorem distance_ok {x y : Color.Rgb}
    (hx : x.r.ratio? ≠ none ∧ x.g.ratio? ≠ none ∧ x.b.ratio? ≠ none)
    (hy : y.r.ratio? ≠ none ∧ y.g.ratio? ≠ none ∧ y.b.ratio? ≠ none) :
    ∃ d, reals.distance x y = .ok d := by
  obtain ⟨xr, hxr⟩ := exactly_ok hx.1
  obtain ⟨xg, hxg⟩ := exactly_ok hx.2.1
  obtain ⟨xb, hxb⟩ := exactly_ok hx.2.2
  obtain ⟨yr, hyr⟩ := exactly_ok hy.1
  obtain ⟨yg, hyg⟩ := exactly_ok hy.2.1
  obtain ⟨yb, hyb⟩ := exactly_ok hy.2.2
  refine ⟨√((xr - yr) ^ 2 + (xg - yg) ^ 2 + (xb - yb) ^ 2), ?_⟩
  simp only [reals, hxr, hxg, hxb, hyr, hyg, hyb, Outcome.ok_bind, Outcome.pure_eq]

theorem colorsIn_ok (hvar : IsMeasured var) (htoken : IsMeasured token) :
    ∃ s, colorsIn reals (valueOf var) (valueOf token) = .ok s := by
  obtain ⟨x, hx, hfinite⟩ := hvar.color
  obtain ⟨y, hy, hfinite'⟩ := htoken.color
  unfold colorsIn
  rw [hx, hy, Outcome.ok_bind, Outcome.ok_bind]
  cases x with
  | none => exact ⟨_, rfl⟩
  | some x =>
    cases y with
    | none => exact ⟨_, rfl⟩
    | some y =>
      obtain ⟨d, hd⟩ := distance_ok (hfinite x rfl) (hfinite' y rfl)
      simp only [hd, Outcome.ok_bind]
      exact ⟨_, rfl⟩

theorem quantityIn_ok (h : IsMeasured token) : ∃ q, quantityIn reals (valueOf token) = .ok q := by
  unfold quantityIn
  cases hq : measure? (valueOf token) with
  | none => exact ⟨_, rfl⟩
  | some q =>
    obtain ⟨x, hx⟩ := exactly_ok (h.size q hq)
    have hread : reals.ofNumber q.1 = .ok x := hx
    simp only [hread, Outcome.ok_bind]
    exact ⟨_, rfl⟩

theorem numbersIn_ok (hvar : IsMeasured var) (htoken : IsMeasured token) :
    ∃ s, numbersIn reals (valueOf var) (valueOf token) = .ok s := by
  obtain ⟨x, hx⟩ := quantityIn_ok hvar
  obtain ⟨y, hy⟩ := quantityIn_ok htoken
  unfold numbersIn
  rw [hx, hy, Outcome.ok_bind, Outcome.ok_bind]
  cases x with
  | none => exact ⟨_, rfl⟩
  | some x =>
    cases y with
    | none => exact ⟨_, rfl⟩
    | some y =>
      simp only
      split <;> exact ⟨_, rfl⟩

/-- Values that are finite can be scored. -/
theorem scoreIn_ok (hvar : IsMeasured var) (htoken : IsMeasured token) (n m : String) :
    ∃ s, scoreIn reals var n token m = .ok s := by
  obtain ⟨color, hcolor⟩ := colorsIn_ok hvar htoken
  obtain ⟨numeric, hnumeric⟩ := numbersIn_ok hvar htoken
  unfold valueOf at hcolor hnumeric
  unfold scoreIn
  rw [Datum.get_eq hvar.record, Datum.get_eq htoken.record, Outcome.ok_bind, Outcome.ok_bind, hcolor,
    Outcome.ok_bind]
  cases color with
  | some color => exact ⟨_, rfl⟩
  | none =>
    simp only [hnumeric, Outcome.ok_bind]
    cases numeric <;> exact ⟨_, rfl⟩

end Finite

/-! ## The search -/

/-- A token that has the variable's normalized name, which is not empty. -/
def IsNamed (n : String) (token : Datum) : Prop :=
  ∃ name, ownName token = .ok name ∧ normalized name ≠ "" ∧ normalized name = n

/-- What a search can have found: nothing, a token of another name with a score between the least
threshold and one, or one of the variable's name with full confidence. -/
inductive Graded (n : String) (tokens : List Datum) : Option Datum × ℝ → Prop
  | nothing : Graded n tokens (none, 0)
  | scored {token : Datum} {s : ℝ} : token ∈ tokens → ¬ IsNamed n token → 0.7 < s → s < 1 →
      Graded n tokens (some token, s)
  | same {token : Datum} : token ∈ tokens → IsNamed n token → Graded n tokens (some token, 1)

section Search

variable {var token : Datum} {n name : String} {tokens : List Datum} {best : Option Datum × ℝ}

theorem Graded.nonneg (h : Graded n tokens best) : 0 ≤ best.2 := by
  cases h with
  | nothing => exact le_refl _
  | scored _ _ hlow _ => exact (lt_trans (by norm_num) hlow).le
  | same _ _ => exact zero_le_one

/-- A token of another name takes the place of what was found, or leaves it there. -/
theorem Graded.step {s : ℝ} (h : Graded n tokens best) (hmem : token ∈ tokens)
    (hname : ownName token = .ok name) (hother : ¬ IsNamed n token)
    (hscore : scoreIn reals var n token (normalized name) = .ok s) :
    Graded n tokens (if best.2 < s then (some token, s) else best) := by
  have hless : namesIn reals n (normalized name) < 1 := by
    obtain ⟨-, hle, hone⟩ := namesIn_bounds n (normalized name)
    refine lt_of_le_of_ne hle fun heq => ?_
    obtain ⟨hne, rfl⟩ := hone heq
    exact hother ⟨name, hname, hne, rfl⟩
  split
  · rename_i hlt
    rcases scoreIn_bounds hless hscore with rfl | ⟨hlow, hhigh⟩
    · exact absurd hlt (not_lt.2 h.nonneg)
    · exact .scored hmem hother hlow hhigh
  · exact h

theorem searchIn_graded (hvar : IsMeasured var) (h : Graded n tokens best) (rest : List Datum)
    (hrest : ∀ t ∈ rest, t ∈ tokens ∧ IsMeasured t) :
    ∃ found, searchIn reals var n best rest = .ok found ∧ Graded n tokens found := by
  induction rest generalizing best with
  | nil => exact ⟨best, rfl, h⟩
  | cons token rest ih =>
    obtain ⟨⟨hmem, htoken⟩, hrest⟩ := List.forall_mem_cons.1 hrest
    obtain ⟨kind, hkind⟩ := hvar.kind
    obtain ⟨tokenKind, htokenKind⟩ := htoken.kind
    obtain ⟨name, hname⟩ := htoken.name
    rw [searchIn, hkind, htokenKind]
    simp only [Outcome.ok_bind]
    split
    · exact ih h hrest
    · rw [hname, Outcome.ok_bind]
      split
      · rename_i hsame
        rw [Bool.and_eq_true, bne_iff_ne, beq_iff_eq] at hsame
        refine ⟨(some token, 1), ?_, .same hmem ⟨name, hname, hsame⟩⟩
        norm_num [Outcome.pure_eq]
      · rename_i hsame
        rw [Bool.and_eq_true, bne_iff_ne, beq_iff_eq] at hsame
        have hother : ¬ IsNamed n token := by
          rintro ⟨name', hname', hnamed⟩
          obtain rfl := Except.ok.inj (hname.symm.trans hname')
          exact hsame hnamed
        obtain ⟨s, hs⟩ := scoreIn_ok hvar htoken n (normalized name)
        rw [hs, Outcome.ok_bind]
        exact ih (h.step hmem hname hother hs) hrest

theorem bestMatch_graded (hvar : IsMeasured var) (hname : ownName var = .ok name)
    (htokens : ∀ t ∈ tokens, IsMeasured t) :
    ∃ best, bestMatch reals var tokens = .ok best ∧ Graded (normalized name) tokens best := by
  obtain ⟨sorted, hsorted, horder⟩ := byNames_inNameOrder fun t ht => (htokens t ht).record
  have hstart : Graded (normalized name) tokens (none, (0.0 : ℝ)) := by
    have hzero : (0.0 : ℝ) = 0 := by norm_num
    rw [hzero]
    exact .nothing
  unfold bestMatch
  rw [hname, hsorted, Outcome.ok_bind, Outcome.ok_bind]
  refine searchIn_graded hvar hstart sorted fun t ht => ?_
  have ht := horder.perm.mem_iff.1 ht
  exact ⟨ht, htokens t ht⟩

/-- What the confidence tells of a match. -/
theorem Graded.tells (h : Graded n tokens best) : 0 ≤ best.2 ∧ best.2 ≤ 1 ∧
    (best.2 = 0 ↔ best.1 = none) ∧ (best.1 ≠ none → 0.7 < best.2) ∧
    (best.2 = 1 ↔ ∃ token ∈ best.1, IsNamed n token) := by
  have hnonneg := h.nonneg
  cases h with
  | nothing =>
    refine ⟨hnonneg, zero_le_one, ⟨fun _ => rfl, fun _ => rfl⟩, fun h => absurd rfl h, ?_⟩
    refine ⟨fun h => absurd h zero_ne_one, ?_⟩
    rintro ⟨token, htoken, -⟩
    cases htoken
  | scored _ hother hlow hhigh =>
    have hpositive : (0 : ℝ) < _ := lt_trans (by norm_num) hlow
    refine ⟨hnonneg, hhigh.le, ⟨fun h => absurd h hpositive.ne', nofun⟩, fun _ => hlow, ?_⟩
    refine ⟨fun h => absurd h hhigh.ne, ?_⟩
    rintro ⟨token, htoken, hnamed⟩
    cases htoken
    exact absurd hnamed hother
  | same _ hnamed =>
    refine ⟨zero_le_one, le_refl _, ⟨fun h => absurd h one_ne_zero, nofun⟩, fun _ => by norm_num,
      fun _ => ⟨_, rfl, hnamed⟩, fun _ => rfl⟩

end Search

/-! ## Confidence -/

/-- Names are compared by the least number of edits, and in exact numbers the confidence of a match is
zero where nothing is matched, one where the names are equal, and between the least threshold and one
in all other cases. A match is made by the same search in doubles. -/
theorem bestMatch_confidence :
    (∀ a b : String, IsLeast {n | Edits n a.toList b.toList} (editDistance a.toList b.toList)) ∧
    (∀ a b : String, namesIn reals a b = namesIn reals b a ∧
      0 ≤ namesIn reals a b ∧ namesIn reals a b ≤ 1 ∧
      (a ≠ "" → b ≠ "" → (namesIn reals a b = 1 ↔ a = b))) ∧
    ∀ (var : Datum) (n : String) (tokens : List Datum), IsMeasured var → ownName var = .ok n →
      (∀ t ∈ tokens, IsMeasured t) →
      matchVariable var (.ok tokens) = (fun best => report var best.1 (Decimal.roundTo 4 best.2)) <$>
        bestMatch doubles var tokens ∧
      ∃ best, bestMatch reals var tokens = .ok best ∧ (∀ token ∈ best.1, token ∈ tokens) ∧
        0 ≤ best.2 ∧ best.2 ≤ 1 ∧ (best.2 = 0 ↔ best.1 = none) ∧ (best.1 ≠ none → 0.7 < best.2) ∧
        (best.2 = 1 ↔ ∃ token ∈ best.1, IsNamed (normalized n) token) := by
  refine ⟨fun a b => editDistance_isLeast _ _, fun a b => ?_, fun var n tokens hvar hname htokens => ?_⟩
  · obtain ⟨hnonneg, hle, hone⟩ := namesIn_bounds a b
    refine ⟨namesIn_comm a b, hnonneg, hle, fun ha _ => ⟨fun h => (hone h).2, ?_⟩⟩
    rintro rfl
    exact namesIn_self ha
  · obtain ⟨best, hbest, hgraded⟩ := bestMatch_graded hvar hname htokens
    refine ⟨matchVariable_bestMatch hname fun t ht => (htokens t ht).record, best, hbest, ?_,
      hgraded.tells⟩
    rintro token htoken
    cases hgraded with
    | nothing => cases htoken
    | scored hmem _ _ _ => cases htoken; exact hmem
    | same hmem _ => cases htoken; exact hmem

/-- A text of a color is compared in finite numbers. -/
theorem read_waters : ∃ color, Color.read (.text "#336699") = .ok color ∧
    ∀ c ∈ color, c.r.ratio? ≠ none ∧ c.g.ratio? ≠ none ∧ c.b.ratio? ≠ none := by
  refine ⟨some ⟨.int 51, .int 102, .int 153, .int 1⟩, rfl, ?_⟩
  rintro c ⟨⟩
  exact ⟨nofun, nofun, nofun⟩

/-- A color of another name. -/
theorem bestMatch_confidence_ocean :
    IsMeasured primary ∧ (∀ t ∈ [waters "ocean"], IsMeasured t) ∧
    ∃ best, bestMatch reals primary [waters "ocean"] = .ok best ∧ 0 ≤ best.2 ∧ best.2 < 1 ∧
      (best.2 = 0 ↔ best.1 = none) ∧ (best.1 ≠ none → 0.7 < best.2) := by
  have hprimary : IsMeasured primary := {
    record := rfl
    name := ⟨"Brand/Primary", rfl⟩
    kind := ⟨"color", rfl⟩
    color := read_waters
    size := nofun }
  have hocean : ∀ t ∈ [waters "ocean"], IsMeasured t := by
    intro t ht
    obtain rfl := List.mem_singleton.1 ht
    exact {
      record := rfl
      name := ⟨"ocean", rfl⟩
      kind := ⟨"color", rfl⟩
      color := read_waters
      size := nofun }
  obtain ⟨-, -, hmatches⟩ := bestMatch_confidence
  obtain ⟨-, best, hbest, hmem, hnonneg, hle, hzero, hlow, hone⟩ :=
    hmatches primary "Brand/Primary" [waters "ocean"] hprimary rfl hocean
  refine ⟨hprimary, hocean, best, hbest, hnonneg, lt_of_le_of_ne hle fun h => ?_, hzero, hlow⟩
  obtain ⟨token, htoken, name, hname, -, hequal⟩ := hone.1 h
  obtain rfl := List.mem_singleton.1 (hmem token htoken)
  cases hname
  revert hequal
  decide

end Maquette.Token
