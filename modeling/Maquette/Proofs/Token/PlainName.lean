/-
What normalization comes to. Normalized names are the empty text and the plain names, which are words
of small letters and digits with single hyphens between them, and a plain name is normalized to itself.
Which separators stand between two parts of a name makes no difference, nor does their number: what
is kept of a name is its own small letter, and a separator is no part of a word.
-/
import Mathlib.Computability.Language
import Maquette.Proofs.Token.NormalName

namespace Maquette.Token

open scoped Computability

/-! ## Plain names -/

/-- One character of `[a-z0-9]`. -/
def letterOrDigit : Language Char :=
  {cs | ∃ c, ('a' ≤ c ∧ c ≤ 'z' ∨ '0' ≤ c ∧ c ≤ '9') ∧ cs = [c]}

/-- The words of `[a-z0-9]+`. -/
def plainWord : Language Char := letterOrDigit * letterOrDigit∗

/-- The words of `[a-z0-9]+(-[a-z0-9]+)*`. -/
def plainName : Language Char := plainWord * ({['-']} * plainWord)∗

theorem mem_letterOrDigit {cs : List Char} :
    cs ∈ letterOrDigit ↔ ∃ c, Css.isSegmentChar c = true ∧ cs = [c] := by
  have hmem : cs ∈ letterOrDigit ↔
      ∃ c, ('a' ≤ c ∧ c ≤ 'z' ∨ '0' ≤ c ∧ c ≤ '9') ∧ cs = [c] := Iff.rfl
  simp only [hmem, Css.isSegmentChar, Bool.or_eq_true, Bool.and_eq_true, decide_eq_true_eq]

theorem mem_plainWord {cs : List Char} :
    cs ∈ plainWord ↔ cs ≠ [] ∧ ∀ c ∈ cs, Css.isSegmentChar c = true := by
  rw [plainWord, Language.mem_mul]
  constructor
  · rintro ⟨first, hfirst, rest, hrest, rfl⟩
    obtain ⟨c, hc, rfl⟩ := mem_letterOrDigit.1 hfirst
    obtain ⟨pieces, rfl, hpieces⟩ := Language.mem_kstar.1 hrest
    refine ⟨by simp, List.forall_mem_cons.2 ⟨hc, fun d hd => ?_⟩⟩
    obtain ⟨piece, hpiece, hd⟩ := List.mem_flatten.1 hd
    obtain ⟨e, he, rfl⟩ := mem_letterOrDigit.1 (hpieces piece hpiece)
    rwa [List.mem_singleton.1 hd]
  · rintro ⟨hne, hchars⟩
    cases cs with
    | nil => exact absurd rfl hne
    | cons c cs =>
      obtain ⟨hc, hcs⟩ := List.forall_mem_cons.1 hchars
      refine ⟨[c], mem_letterOrDigit.2 ⟨c, hc, rfl⟩, cs, ?_, rfl⟩
      refine Language.mem_kstar.2
        ⟨cs.map ([·]), (List.flatMap_singleton' cs).symm, List.forall_mem_map.2 fun d hd => ?_⟩
      exact mem_letterOrDigit.2 ⟨d, hcs d hd, rfl⟩

/-- Words with a mark between them are the first word and the others with the mark in front. -/
theorem intercalate_flatten (m : Char) (w : List Char) (ws : List (List Char)) :
    [m].intercalate (w :: ws) = w ++ (ws.map (m :: ·)).flatten := by
  induction ws generalizing w with
  | nil => simp
  | cons next ws ih => rw [List.intercalate_cons_cons, ih]; simp

theorem mem_plainName {cs : List Char} :
    cs ∈ plainName ↔ ∃ ws, ws ≠ [] ∧ (∀ w ∈ ws, w ∈ plainWord) ∧ cs = ['-'].intercalate ws := by
  rw [plainName, Language.mem_mul]
  constructor
  · rintro ⟨w, hw, rest, hrest, rfl⟩
    obtain ⟨pieces, rfl, hpieces⟩ := Language.mem_kstar.1 hrest
    have hpiece : ∀ piece ∈ pieces, ∃ v ∈ plainWord, piece = '-' :: v := by
      intro piece hp
      obtain ⟨hyphen, hhyphen, v, hv, rfl⟩ := Language.mem_mul.1 (hpieces piece hp)
      exact ⟨v, hv, by rw [show hyphen = ['-'] from hhyphen]; rfl⟩
    refine ⟨w :: pieces.map List.tail, by simp, List.forall_mem_cons.2 ⟨hw, ?_⟩, ?_⟩
    · refine List.forall_mem_map.2 fun piece hp => ?_
      obtain ⟨v, hv, rfl⟩ := hpiece piece hp
      exact hv
    · -- each word but the first gets its hyphen back
      have htails : (pieces.map List.tail).map ('-' :: ·) = pieces := by
        rw [List.map_map]
        refine (List.map_congr_left fun piece hp => ?_).trans (List.map_id pieces)
        obtain ⟨v, -, rfl⟩ := hpiece piece hp
        rfl
      rw [intercalate_flatten, htails]
  · rintro ⟨ws, hne, hws, rfl⟩
    cases ws with
    | nil => exact absurd rfl hne
    | cons w ws =>
      obtain ⟨hw, hws⟩ := List.forall_mem_cons.1 hws
      refine ⟨w, hw, _, ?_, (intercalate_flatten '-' w ws).symm⟩
      refine Language.mem_kstar.2 ⟨ws.map ('-' :: ·), rfl, List.forall_mem_map.2 fun v hv => ?_⟩
      exact Language.mem_mul.2 ⟨['-'], rfl, v, hws v hv, rfl⟩

/-! ## What is left of a character -/

/-- What a character leaves of itself in a name: its small letters as far as they are kept. A capital
sigma leaves nothing, whichever of its small letters it has. -/
def spelled (c : Char) : List Char :=
  if c == 'Σ' then [] else (Text.smallChar c).filter fun d => isSeparator d || isNameMark d

theorem filter_smallFrom (before cs : List Char) :
    (Text.smallFrom before cs).filter (fun d => isSeparator d || isNameMark d) =
      cs.flatMap spelled := by
  induction cs generalizing before with
  | nil => rfl
  | cons c cs ih =>
    rw [Text.smallFrom, List.filter_append, ih, List.flatMap_cons, spelled]
    congr 1
    by_cases hc : (c == 'Σ') = true
    · -- neither of the two small letters of a sigma is kept
      rw [if_pos hc, if_pos hc]
      split <;> rfl
    · rw [if_neg hc, if_neg hc]

theorem nameWords_eq (name : String) :
    nameWords name = Text.words isBoundary (name.toList.flatMap spelled) := by
  rw [nameWords, filter_smallFrom]

/-- The code points among which all separators and all marks of names are. -/
def keptCodes : List Nat := List.range 256 ++ List.range' 8192 96 ++ [5760, 12288]

theorem mem_keptCodes {c : Char} (h : (isSeparator c || isNameMark c) = true) :
    c.toNat ∈ keptCodes := by
  simp only [keptCodes, List.mem_append, List.mem_range, List.mem_range'_1, List.mem_cons,
    List.not_mem_nil, or_false]
  simp only [isSeparator, isNameMark, Text.isBlank, Bool.or_eq_true, Bool.and_eq_true,
    decide_eq_true_eq, beq_iff_eq] at h
  rcases h with (((rfl | rfl) | rfl) | hblank) | (⟨-, hz⟩ | ⟨-, hnine⟩) | rfl
  · decide
  · decide
  · decide
  · omega
  · have hz : c.toNat ≤ 122 := hz
    omega
  · have hnine : c.toNat ≤ 57 := hnine
    omega
  · decide

theorem keptCodes_spelled : ∀ n ∈ keptCodes,
    (isSeparator (Char.ofNat n) || isNameMark (Char.ofNat n)) = true →
      spelled (Char.ofNat n) = [Char.ofNat n] := by decide +kernel

/-- What is kept of a name is its own small letter. -/
theorem spelled_kept {c : Char} (h : (isSeparator c || isNameMark c) = true) : spelled c = [c] := by
  have hspelled := keptCodes_spelled c.toNat (mem_keptCodes h)
  rw [Char.ofNat_toNat] at hspelled
  exact hspelled h

theorem flatMap_spelled {cs : List Char} (h : ∀ c ∈ cs, (isSeparator c || isNameMark c) = true) :
    cs.flatMap spelled = cs := by
  rw [List.flatMap_congr fun c hc => spelled_kept (h c hc), List.flatMap_singleton']

/-! ## Plain names are kept -/

theorem isNameMark_of_segmentChar {c : Char} (h : Css.isSegmentChar c = true) :
    isNameMark c = true := by
  rw [isNameMark, Bool.or_eq_true]
  exact .inl h

theorem not_isBoundary_of_segmentChar {c : Char} (h : Css.isSegmentChar c = true) :
    isBoundary c = false := by
  refine Bool.eq_false_iff.2 fun hboundary => ?_
  simp only [isBoundary, isSeparator, Text.isBlank, Bool.or_eq_true, Bool.and_eq_true,
    decide_eq_true_eq, beq_iff_eq] at hboundary
  -- a separator is one of three marks, white space or a hyphen
  rcases hboundary with (((rfl | rfl) | rfl) | hblank) | rfl
  · exact absurd h (by decide)
  · exact absurd h (by decide)
  · exact absurd h (by decide)
  · simp only [Css.isSegmentChar, Bool.or_eq_true, Bool.and_eq_true, decide_eq_true_eq] at h
    rcases h with ⟨ha, hz⟩ | ⟨hzero, hnine⟩
    · have ha : 97 ≤ c.toNat := ha
      have hz : c.toNat ≤ 122 := hz
      omega
    · have hzero : 48 ≤ c.toNat := hzero
      have hnine : c.toNat ≤ 57 := hnine
      omega
  · exact absurd h (by decide)

/-- The words of a plain name are the parts between its hyphens. -/
theorem nameWords_plain {ws : List (List Char)} (h : ∀ w ∈ ws, w ∈ plainWord) :
    nameWords (String.ofList (['-'].intercalate ws)) = ws := by
  have hkept : ∀ c ∈ ['-'].intercalate ws, (isSeparator c || isNameMark c) = true := by
    intro c hc
    rw [Bool.or_eq_true]
    rcases Text.mem_intercalate hc with rfl | ⟨w, hw, hcw⟩
    · exact .inr rfl
    · exact .inr (isNameMark_of_segmentChar ((mem_plainWord.1 (h w hw)).2 c hcw))
  rw [nameWords_eq, String.toList_ofList, flatMap_spelled hkept]
  refine Text.words_intercalate (by decide) fun w hw => ?_
  obtain ⟨hne, hchars⟩ := mem_plainWord.1 (h w hw)
  exact ⟨hne, fun c hc => not_isBoundary_of_segmentChar (hchars c hc)⟩

theorem normalized_plain {name : String} (h : name.toList ∈ plainName) : normalized name = name := by
  obtain ⟨ws, -, hws, hname⟩ := mem_plainName.1 h
  have hofList : name = String.ofList (['-'].intercalate ws) := by
    rw [← hname, String.ofList_toList]
  rw [← String.toList_inj, toList_normalized, hname, hofList, nameWords_plain hws]

/-- A normalized name is empty or plain. -/
theorem normalized_cases (name : String) :
    normalized name = "" ∨ (normalized name).toList ∈ plainName := by
  by_cases hwords : nameWords name = []
  · exact .inl (normalized_eq_empty.2 hwords)
  · refine .inr (mem_plainName.2 ⟨nameWords name, hwords, fun w hw => ?_, toList_normalized name⟩)
    obtain ⟨hne, hchars⟩ := mem_nameWords hw
    exact mem_plainWord.2 ⟨hne, fun c hc => (hchars c hc).2⟩

/-! ## Separators -/

/-- One or more separators or hyphens. -/
def IsRun (s : String) : Prop := s ≠ "" ∧ ∀ c ∈ s.toList, isBoundary c = true

theorem kept_of_boundary {c : Char} (h : isBoundary c = true) :
    (isSeparator c || isNameMark c) = true := by
  rw [isBoundary, Bool.or_eq_true, beq_iff_eq] at h
  rcases h with hsep | rfl
  · rw [hsep, Bool.true_or]
  · rfl

/-- A run of separators parts the words before it from those behind it. -/
theorem nameWords_run {s : String} (h : IsRun s) (x y : String) :
    nameWords (x ++ s ++ y) = nameWords x ++ nameWords y := by
  obtain ⟨hne, hchars⟩ := h
  have hspelled := flatMap_spelled fun c hc => kept_of_boundary (hchars c hc)
  rw [nameWords_eq, nameWords_eq, nameWords_eq, String.toList_append, String.toList_append,
    List.flatMap_append, List.flatMap_append, hspelled, List.append_assoc]
  exact Text.words_run (by simpa using hne) hchars _ _

/-! ## Normalization -/

/-- The normalized names are the empty text and the plain names. Each of them is normalized to itself,
and a run of separators or hyphens in a name counts as any other one. -/
theorem normalized_canonical :
    (∀ name, normalized name = "" ∨ (normalized name).toList ∈ plainName) ∧
    (∀ name, name.toList ∈ plainName → normalized name = name) ∧
    (∀ name, normalized (normalized name) = normalized name) ∧
    (∀ x y s s', IsRun s → IsRun s' → normalized (x ++ s ++ y) = normalized (x ++ s' ++ y)) := by
  refine ⟨normalized_cases, fun name => normalized_plain, fun name => ?_, fun x y s s' hs hs' => ?_⟩
  · rcases normalized_cases name with hempty | hplain
    · rw [hempty]
      decide
    · exact normalized_plain hplain
  · rw [normalized_inj, nameWords_run hs, nameWords_run hs']

/-- A plain name, and a name with different runs of separators. -/
theorem normalized_canonical_spacing :
    "color-primary-500".toList ∈ plainName ∧ normalized "color-primary-500" = "color-primary-500" ∧
    IsRun "/ _" ∧ IsRun "." ∧
    normalized ("Spacing" ++ "/ _" ++ "MD") = normalized ("Spacing" ++ "." ++ "MD") := by
  obtain ⟨-, hkept, -, hruns⟩ := normalized_canonical
  have hplain : "color-primary-500".toList ∈ plainName := by
    refine mem_plainName.2 ⟨["color".toList, "primary".toList, "500".toList], by simp,
      fun w hw => ?_, by decide⟩
    have hwords : ["color".toList, "primary".toList, "500".toList].all
        (fun w => !w.isEmpty && w.all Css.isSegmentChar) = true := by decide
    simpa [mem_plainWord] using List.all_eq_true.1 hwords w hw
  have hrun : IsRun "/ _" := ⟨by decide, List.all_eq_true.1 (by decide)⟩
  have hdot : IsRun "." := ⟨by decide, List.all_eq_true.1 (by decide)⟩
  exact ⟨hplain, hkept _ hplain, hrun, hdot, hruns "Spacing" "MD" _ _ hrun hdot⟩

end Maquette.Token
