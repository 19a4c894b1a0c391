/-
The characters of names. Type names, value names and hyphenated names consist of letters and numerals,
and of underscores and hyphens between them: no ASCII mark, blank or line break of the text that a
name is made from is left in it. The words of a name are letters and numerals, and neither the
capitals nor the small letters of such a character hold an ASCII mark.
-/
import Maquette.Proofs.Naming
import Maquette.Proofs.Text

namespace Maquette.Text

/-! ## Lettered characters -/

/-- An ASCII letter, digit or underscore, or a character beyond ASCII. -/
def isLettered (c : Char) : Bool := 128 ≤ c.toNat || c.isAlphanum || c == '_'

/-- What is lettered in the ASCII range is one of these characters. -/
theorem isLettered_ascii : ∀ n < 128, alphanumericRanges.has n = true →
    isLettered (Char.ofNat n) = true := by decide +kernel

theorem isLettered_of_alphanumeric {c : Char} (h : isAlphanumeric c = true) : isLettered c = true := by
  by_cases hc : c.toNat < 128
  · rw [← Char.ofNat_toNat c]
    exact isLettered_ascii _ hc h
  · rw [isLettered, Bool.or_eq_true, Bool.or_eq_true]
    exact .inl (.inl (decide_eq_true (by omega)))

theorem isLettered_of_isDigit {c : Char} (h : c.isDigit = true) : isLettered c = true := by
  rw [isLettered, Char.isAlphanum, h, Bool.or_true, Bool.or_true, Bool.true_or]

/-- A number is written in digits. -/
theorem isDigit_of_mem_nat {n : Nat} {c : Char} (h : c ∈ (toString n).toList) : c.isDigit = true := by
  rw [Nat.toString_eq_repr, Nat.toList_repr] at h
  exact Nat.isDigit_of_mem_toDigits (by decide) (by decide) h

/-- The code points of a run are moved to lettered characters: to code points beyond ASCII, or to
letters within it. -/
def CaseRun.keepsLettered (run : CaseRun) : Bool :=
  if (128 : Int) ≤ run.first + run.shift then
    decide ((run.last : Int) + run.shift < 0xd800) ||
      (decide ((0xdfff : Int) < run.first + run.shift) &&
        decide ((run.last : Int) + run.shift < 0x110000))
  else
    (List.range' run.first (run.last + 1 - run.first)).all fun n =>
      isLettered (Char.ofNat ((n : Int) + run.shift).toNat)

theorem exists_run {n m : Nat} : ∀ {runs : List CaseRun}, CaseRun.apply? runs n = some m →
    ∃ run ∈ runs, run.first ≤ n ∧ n ≤ run.last ∧ (n - run.first) % run.step = 0 ∧
      m = ((n : Int) + run.shift).toNat
  | [], h => by cases h
  | run :: rest, h => by
    unfold CaseRun.apply? at h
    split at h
    · cases h
    · rename_i hfirst
      split at h
      · rename_i hlast
        cases h
        obtain ⟨hlast, hstep⟩ := Bool.and_eq_true_iff.1 hlast
        exact ⟨run, List.mem_cons_self, by omega, of_decide_eq_true hlast, eq_of_beq hstep, rfl⟩
      · obtain ⟨run', hrun, hbounds⟩ := exists_run h
        exact ⟨run', List.mem_cons_of_mem _ hrun, hbounds⟩

/-- A valid code point beyond ASCII is that of a lettered character. -/
theorem isLettered_ofNat {n : Nat} (h : 128 ≤ n) (hv : n < 0xd800 ∨ 0xdfff < n ∧ n < 0x110000) :
    isLettered (Char.ofNat n) = true := by
  have hn : (Char.ofNat n).toNat = n := by
    rw [Char.ofNat, dif_pos (show n.isValidChar from hv)]
    rfl
  rw [isLettered, hn, Bool.or_eq_true, Bool.or_eq_true]
  exact .inl (.inl (decide_eq_true h))

theorem isLettered_apply {runs : List CaseRun} (hr : ∀ run ∈ runs, run.keepsLettered = true)
    {n m : Nat} (h : CaseRun.apply? runs n = some m) : isLettered (Char.ofNat m) = true := by
  obtain ⟨run, hrun, hfirst, hlast, -, rfl⟩ := exists_run h
  have hkeeps := hr run hrun
  unfold CaseRun.keepsLettered at hkeeps
  split at hkeeps
  · simp only [Bool.or_eq_true, Bool.and_eq_true, decide_eq_true_eq] at hkeeps
    refine isLettered_ofNat (by omega) ?_
    rcases hkeeps with h | h <;> omega
  · refine List.all_eq_true.1 hkeeps n (List.mem_range'_1.2 ⟨hfirst, ?_⟩)
    omega

/-- A mapping whose runs and expansions end up at lettered characters. -/
theorem mapCase_lettered {runs : List CaseRun} {expansions : List (Nat × List Nat)}
    (hr : ∀ run ∈ runs, run.keepsLettered = true)
    (he : ∀ row ∈ expansions, ∀ n ∈ row.2, isLettered (Char.ofNat n) = true) {c : Char}
    (hc : isLettered c = true) : ∀ d ∈ mapCase runs expansions c, isLettered d = true := by
  unfold mapCase
  split
  · rename_i m hm
    exact List.forall_mem_singleton.2 (isLettered_apply hr hm)
  · split
    · rename_i ns hns
      obtain ⟨k, -, hm⟩ := Table.mem_of_lookup hns
      exact List.forall_mem_map.2 (he _ hm)
    · exact List.forall_mem_singleton.2 hc

theorem capitalChar_lettered {c : Char} (hc : isLettered c = true) :
    ∀ d ∈ capitalChar c, isLettered d = true :=
  mapCase_lettered (by decide +kernel) (by decide +kernel) hc

theorem smallFrom_lettered {cs : List Char} (before : List Char)
    (h : ∀ c ∈ cs, isLettered c = true) : ∀ d ∈ smallFrom before cs, isLettered d = true := by
  induction cs generalizing before with
  | nil => simp [smallFrom]
  | cons c cs ih =>
    obtain ⟨hc, hcs⟩ := List.forall_mem_cons.1 h
    rw [smallFrom, List.forall_mem_append]
    refine ⟨?_, ih _ hcs⟩
    split
    · split <;> exact List.forall_mem_singleton.2 (by decide)
    · exact mapCase_lettered (by decide +kernel) (by decide +kernel) hc

end Maquette.Text

namespace Maquette.Naming

open Text (isLettered)

/-! ## Lettered names -/

/-- A text of letters, numerals and underscores. -/
def Lettered (cs : List Char) : Prop := ∀ c ∈ cs, isLettered c = true

instance (cs : List Char) : Decidable (Lettered cs) := inferInstanceAs (Decidable (∀ c ∈ cs, _))

theorem Lettered.append {cs ds : List Char} (hc : Lettered cs) (hd : Lettered ds) :
    Lettered (cs ++ ds) := List.forall_mem_append.2 ⟨hc, hd⟩

/-- An ASCII mark does not occur in a lettered text. -/
theorem Lettered.not_mem {cs : List Char} (h : Lettered cs) {c : Char} (hc : isLettered c = false) :
    c ∉ cs := fun hm => by
  rw [h c hm] at hc
  cases hc

theorem lettered_word {p : List Char} (h : isWord p = true) : Lettered p := fun _ hc =>
  Text.isLettered_of_alphanumeric (List.all_eq_true.1 (Bool.and_eq_true_iff.1 h).2 _ hc)

/-- The words of a name are letters and numerals. -/
theorem runs_lettered (ps : Pieces) : ∀ w ∈ runs ps, Lettered w := by
  intro w hw c hc
  obtain ⟨hblank, hmem⟩ := (Text.mem_words hw).2 c hc
  obtain ⟨p, -, hp⟩ := List.mem_flatMap.1 hmem
  split at hp
  · rename_i hword
    exact lettered_word hword c hp
  · rw [List.mem_singleton.1 hp] at hblank
    cases hblank

theorem joined_lettered (ps : Pieces) : Lettered (joined ps) := by
  intro d hd
  obtain ⟨w, hw, hd⟩ := List.mem_flatMap.1 hd
  have hword := runs_lettered ps w hw
  cases w with
  | nil => cases hd
  | cons c rest =>
    obtain ⟨hc, hrest⟩ := List.forall_mem_cons.1 hword
    rcases List.mem_append.1 hd with hd | hd
    · exact Text.capitalChar_lettered hc d hd
    · exact hrest d hd

theorem lowered_lettered {cs : List Char} (h : Lettered cs) : Lettered (lowered cs) := by
  cases cs with
  | nil => exact h
  | cons c rest =>
    obtain ⟨hc, hrest⟩ := List.forall_mem_cons.1 h
    exact Lettered.append (Text.smallFrom_lettered _ (List.forall_mem_singleton.2 hc)) hrest

theorem digitGuard_lettered {fallback : String} (hf : Lettered fallback.toList) :
    Lettered (digitGuard fallback) := by
  unfold digitGuard
  split
  · rename_i c rest hc
    split
    · rwa [hc] at hf
    · exact List.forall_mem_singleton.2 rfl
  · exact List.forall_mem_singleton.2 rfl

/-- The name of a type is lettered if its fallback is. -/
theorem pascal_lettered {fallback : String} (hf : Lettered fallback.toList) (ps : Pieces) :
    Lettered (pascal fallback ps).toList := by
  have hj := joined_lettered ps
  unfold pascal
  generalize joined ps = out at hj ⊢
  cases out with
  | nil => exact hf
  | cons c rest =>
    rw [String.toList_ofList]
    split
    · exact (digitGuard_lettered hf).append hj
    · exact hj

/-- The name of a value is lettered if its fallback is. -/
theorem camel_lettered {fallback : String} (hf : Lettered fallback.toList) (ps : Pieces) :
    Lettered (camel fallback ps).toList := by
  have hj := joined_lettered ps
  have hunreserved : ∀ {name : String}, Lettered name.toList → Lettered (unreserved name).toList := by
    intro name h
    unfold unreserved
    split
    · rw [String.toList_append]
      exact h.append (by simp [Lettered, isLettered])
    · exact h
  unfold camel
  generalize joined ps = out at hj ⊢
  cases out with
  | nil => exact hf
  | cons c rest =>
    refine hunreserved ?_
    rw [String.toList_ofList]
    split
    · exact (digitGuard_lettered hf).append hj
    · exact lowered_lettered hj

/-! ## Hyphenated names -/

/-- A text of letters, numerals, underscores and hyphens. -/
def Hyphenated (cs : List Char) : Prop := ∀ c ∈ cs, isLettered c = true ∨ c = '-'

theorem Lettered.hyphenated {cs : List Char} (h : Lettered cs) : Hyphenated cs := fun c hc =>
  .inl (h c hc)

/-- A hyphenated text has no marks in it but hyphens. -/
theorem Hyphenated.ne {cs : List Char} (h : Hyphenated cs) {c : Char} (hc : c ∈ cs) {mark : Char}
    (hm : isLettered mark = false) (hne : mark ≠ '-') : c ≠ mark := by
  rintro rfl
  rcases h c hc with hlettered | rfl
  · rw [hm] at hlettered; cases hlettered
  · exact hne rfl

theorem Hyphenated.append {as bs : List Char} (ha : Hyphenated as) (hb : Hyphenated bs) :
    Hyphenated (as ++ bs) := List.forall_mem_append.2 ⟨ha, hb⟩

theorem hyphenated_spec (ps : Pieces) (afterSmall : Bool) : Hyphenated (hyphenated afterSmall ps) := by
  induction ps generalizing afterSmall with
  | nil => exact fun c hc => absurd hc List.not_mem_nil
  | cons p rest ih =>
    rw [hyphenated]
    split
    · rename_i hword
      have hsmall : Hyphenated (Text.smallFrom [] p) :=
        Lettered.hyphenated (Text.smallFrom_lettered [] (lettered_word hword))
      refine List.forall_mem_append.2 ⟨List.forall_mem_append.2 ⟨?_, hsmall⟩, ih _⟩
      split <;> simp
    · exact List.forall_mem_cons.2 ⟨.inr rfl, ih _⟩

/-- The characters of a hyphenated name. -/
theorem kebab_hyphenated (ps : Pieces) : Hyphenated (kebab ps).toList := by
  unfold kebab
  split
  · exact Lettered.hyphenated (by simp [Lettered, isLettered])
  · rw [String.toList_ofList]
    exact fun c hc => hyphenated_spec ps false c (Text.mem_trim (Text.mem_squeeze hc))

end Maquette.Naming
