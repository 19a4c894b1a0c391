/-
Type names begin with no small letter of the ASCII alphabet: every word of a name has its first
character in capitals, no character has such a letter at the front of its capitals, and the fallback
names begin with none. The name of a value begins like the text that it is made from, where this begins
with a small letter.
-/
import Maquette.Proofs.Datum
import Maquette.Proofs.Text
import Maquette.Naming

namespace Maquette.Text

/-! ## Capitals -/

/-- A small letter of the ASCII alphabet. -/
def isSmallAscii (c : Char) : Bool := 97 ≤ c.toNat && c.toNat ≤ 122

/-- No code point of a run is moved to a small ASCII letter. -/
def CaseRun.avoidsSmall (run : CaseRun) : Bool :=
  decide ((run.last : Int) + run.shift < 97 ∨ 122 < (run.first : Int) + run.shift)

theorem apply_avoidsSmall {n m : Nat} : ∀ {runs : List CaseRun},
    (∀ run ∈ runs, run.avoidsSmall = true) → CaseRun.apply? runs n = some m → m < 97 ∨ 122 < m
  | [], _, h => by cases h
  | run :: rest, hr, h => by
    unfold CaseRun.apply? at h
    split at h
    · cases h
    · rename_i hfirst
      split at h
      · rename_i hlast
        have hrun := of_decide_eq_true (hr run List.mem_cons_self)
        have hle := of_decide_eq_true (Bool.and_eq_true_iff.1 hlast).1
        cases h
        omega
      · exact apply_avoidsSmall (fun run hm => hr run (List.mem_cons_of_mem _ hm)) h

theorem capitalRuns_avoidSmall : ∀ run ∈ capitalRuns, run.avoidsSmall = true := by decide +kernel

/-- Every small ASCII letter is moved by some run. -/
theorem capitalRuns_moveSmall : ∀ n < 26, CaseRun.apply? capitalRuns (97 + n) ≠ none := by
  decide +kernel

theorem capitalExpansions_avoidSmall : ∀ row ∈ capitalExpansions,
    (row.2.map Char.ofNat).head?.any (!isSmallAscii ·) = true := by decide +kernel

/-- What is no code point counts as zero. -/
theorem toNat_ofNat (n : Nat) : (Char.ofNat n).toNat = n ∨ (Char.ofNat n).toNat = 0 := by
  by_cases hv : n.isValidChar
  · exact .inl (by rw [Char.ofNat, dif_pos hv]; rfl)
  · exact .inr (by rw [Char.ofNat, dif_neg hv]; rfl)

theorem isSmallAscii_ofNat {n : Nat} (h : n < 97 ∨ 122 < n) : isSmallAscii (Char.ofNat n) = false := by
  have hn := toNat_ofNat n
  rw [isSmallAscii, ← Bool.not_eq_true, Bool.and_eq_true, decide_eq_true_eq, decide_eq_true_eq]
  omega

/-- The capitals of a character are there and do not begin with a small ASCII letter. -/
theorem capitalChar_head (c : Char) : (capitalChar c).head?.any (!isSmallAscii ·) = true := by
  unfold capitalChar mapCase
  cases hr : CaseRun.apply? capitalRuns c.toNat with
  | some n =>
    have := isSmallAscii_ofNat (apply_avoidsSmall capitalRuns_avoidSmall hr)
    simp [this]
  | none =>
    cases he : capitalExpansions.lookup c.toNat with
    | some ns =>
      obtain ⟨k, -, hm⟩ := Table.mem_of_lookup he
      exact capitalExpansions_avoidSmall _ hm
    | none =>
      -- a small ASCII letter would have been moved by a run
      have hc : isSmallAscii c = false := by
        rw [← Bool.not_eq_true]
        intro hc
        obtain ⟨h97, h122⟩ := Bool.and_eq_true_iff.1 hc
        have h97 := of_decide_eq_true h97
        have h122 := of_decide_eq_true h122
        have := capitalRuns_moveSmall (c.toNat - 97) (by omega)
        rw [show 97 + (c.toNat - 97) = c.toNat by omega] at this
        exact this hr
      simp [hc]

end Maquette.Text

namespace Maquette.Naming

/-! ## Type names -/

/-- A text that begins with no small ASCII letter, or not at all. -/
def BeginsLarge (cs : List Char) : Prop := ∀ c ∈ cs.head?, Text.isSmallAscii c = false

theorem joined_large (ps : Pieces) : BeginsLarge (joined ps) := by
  unfold joined
  induction runs ps with
  | nil => simp [BeginsLarge]
  | cons w ws ih =>
    rw [List.flatMap_cons]
    cases w with
    | nil => exact ih
    | cons c rest =>
      have hhead := Text.capitalChar_head c
      have hcap : capitalized (c :: rest) = Text.capitalChar c ++ rest := rfl
      rw [hcap]
      cases hc : Text.capitalChar c with
      | nil => rw [hc] at hhead; cases hhead
      | cons d ds =>
        rw [hc] at hhead
        intro e he
        cases he
        simpa using hhead

/-- The name of a type begins with no small ASCII letter if its fallback does not. -/
theorem pascal_large {fallback : String} (hf : BeginsLarge fallback.toList) (ps : Pieces) :
    BeginsLarge (pascal fallback ps).toList := by
  have hj := joined_large ps
  unfold pascal
  generalize joined ps = out at hj ⊢
  cases out with
  | nil => exact hf
  | cons c rest =>
    simp only [String.toList_ofList]
    split
    · have hguard : ∃ d ds, digitGuard fallback = d :: ds ∧ Text.isSmallAscii d = false := by
        unfold digitGuard
        cases hl : fallback.toList with
        | nil => exact ⟨_, _, rfl, rfl⟩
        | cons d ds =>
          rw [hl] at hf
          dsimp only
          split
          · exact ⟨d, ds, rfl, hf d rfl⟩
          · exact ⟨_, _, rfl, rfl⟩
      obtain ⟨d, ds, hd, hlarge⟩ := hguard
      rw [hd]
      intro e he
      cases he
      exact hlarge
    · exact hj

/-! ## Value names -/

/-- A small letter of the ASCII alphabet that words begin with, and that its only capital goes back to. -/
structure IsSmall (c : Char) : Prop where
  ascii : Text.isSmallAscii c = true
  word : isWord [c] = true
  digit : Text.isDigit c = false
  single : (Text.capitalChar c).length = 1
  back : Text.smallFrom [] (Text.capitalChar c) = [c]

instance (c : Char) : Decidable (IsSmall c) :=
  decidable_of_iff (Text.isSmallAscii c = true ∧ isWord [c] = true ∧ Text.isDigit c = false ∧
      (Text.capitalChar c).length = 1 ∧ Text.smallFrom [] (Text.capitalChar c) = [c])
    ⟨fun ⟨ascii, word, digit, single, back⟩ => ⟨ascii, word, digit, single, back⟩,
     fun ⟨ascii, word, digit, single, back⟩ => ⟨ascii, word, digit, single, back⟩⟩

/-- A text that begins with such a letter. -/
def BeginsSmall (cs : List Char) : Prop := ∃ c ∈ cs.head?, IsSmall c

theorem BeginsSmall.append {cs : List Char} (h : BeginsSmall cs) (ds : List Char) :
    BeginsSmall (cs ++ ds) := by
  obtain ⟨c, hc, hsmall⟩ := h
  exact ⟨c, by rw [List.head?_append, Option.mem_def.1 hc]; rfl, hsmall⟩

theorem BeginsLarge.append {cs ds : List Char} (h : BeginsLarge cs) (h' : BeginsLarge ds) :
    BeginsLarge (cs ++ ds) := by
  cases cs with
  | nil => exact h'
  | cons c cs => exact h

/-- No text begins in both ways. -/
theorem BeginsSmall.not_large {cs : List Char} (h : BeginsSmall cs) : ¬ BeginsLarge cs := by
  obtain ⟨c, hc, hsmall⟩ := h
  intro hlarge
  have := hlarge c hc
  rw [hsmall.ascii] at this
  cases this

/-- The name of a value begins with a small letter if its text does. -/
theorem camel_small {s : String} (h : BeginsSmall s.toList) (fallback : String) :
    BeginsSmall (camel fallback (.ofString s)).toList := by
  obtain ⟨c, hc, hsmall⟩ := h
  obtain ⟨cs, hs⟩ := List.head?_eq_some_iff.1 hc
  obtain ⟨d, hd⟩ := List.length_eq_one_iff.1 hsmall.single
  have hback := hsmall.back
  rw [hd] at hback
  have hblank : (c == ' ') = false := by
    rw [beq_eq_false_iff_ne]
    rintro rfl
    exact absurd hsmall.word (by decide)
  obtain ⟨w, ws, hwords⟩ := Text.words_begins (p := (· == ' ')) hblank
    ((Pieces.ofString (String.ofList cs)).flatMap fun p => if isWord p then p else [' '])
  have hruns : runs (.ofString s) = (c :: w) :: ws := by
    rw [runs, Pieces.ofString, hs, List.map_cons, List.flatMap_cons, if_pos hsmall.word]
    simpa [Pieces.ofString] using hwords
  have hjoined : joined (.ofString s) = d :: (w ++ ws.flatMap capitalized) := by
    rw [joined, hruns, List.flatMap_cons, capitalized, hd]
    rfl
  have hlowered : lowered (d :: (w ++ ws.flatMap capitalized)) = c :: (w ++ ws.flatMap capitalized) := by
    rw [lowered, hback]
    rfl
  have hname : BeginsSmall (c :: (w ++ ws.flatMap capitalized)) := ⟨c, rfl, hsmall⟩
  unfold camel
  rw [hjoined]
  simp only [hlowered, startsWithDigit, hsmall.digit, Bool.false_eq_true, ↓reduceIte]
  -- a reserved word gets an ending
  unfold unreserved
  split
  · rw [String.toList_append, String.toList_ofList]
    exact hname.append _
  · rwa [String.toList_ofList]

end Maquette.Naming
