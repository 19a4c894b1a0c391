/-
Searching and splitting texts: what `dropPrefix?` finds is a beginning of the text, `cut?` parts a text
at the first separator, and the words of a text are what is left of it when separators are trimmed and
their runs are shortened to one.
-/
import Maquette.Text.Basic
import Mathlib

namespace Maquette.Text

/-! ## Searching -/

theorem dropPrefix?_eq_some {start rest : List Char} :
    ∀ {cs : List Char}, dropPrefix? start cs = some rest ↔ cs = start ++ rest := by
  induction start with
  | nil => intro cs; simp [dropPrefix?]
  | cons p ps ih =>
    intro cs
    cases cs with
    | nil => simp [dropPrefix?]
    | cons c cs =>
      rw [dropPrefix?]
      split
      · rename_i h; subst h; simp [ih]
      · rename_i h
        simp only [reduceCtorEq, List.cons_append, List.cons.injEq, false_iff, not_and]
        exact fun hc => absurd hc.symm h

theorem isSome_dropPrefix? {start cs : List Char} :
    (dropPrefix? start cs).isSome ↔ start <+: cs := by
  rw [Option.isSome_iff_exists]
  constructor
  · rintro ⟨rest, h⟩
    exact ⟨rest, (dropPrefix?_eq_some.1 h).symm⟩
  · rintro ⟨rest, rfl⟩
    exact ⟨rest, dropPrefix?_eq_some.2 rfl⟩

theorem occursIn_iff {piece cs : List Char} : occursIn piece cs = true ↔ piece <:+: cs := by
  induction cs with
  | nil => rw [occursIn, List.isEmpty_iff, List.infix_nil]
  | cons c cs ih => rw [occursIn, Bool.or_eq_true, isSome_dropPrefix?, ih, List.infix_cons_iff]

theorem cut?_append {sep : Char} {a b : List Char} (h : sep ∉ a) :
    cut? sep (a ++ sep :: b) = some (a, b) := by
  induction a with
  | nil => simp [cut?]
  | cons c a ih =>
    rw [List.mem_cons, not_or] at h
    rw [List.cons_append, cut?, if_neg (Ne.symm h.1), ih h.2]
    rfl

theorem cut?_eq_none {sep : Char} {cs : List Char} (h : sep ∉ cs) : cut? sep cs = none := by
  induction cs with
  | nil => rfl
  | cons c cs ih =>
    rw [List.mem_cons, not_or] at h
    rw [cut?, if_neg (Ne.symm h.1), ih h.2]
    rfl

/-! ## Splitting -/

section Splitting

variable {p : Char → Bool} {c : Char} {cs piece : List Char} {pieces : List (List Char)}

theorem splitOn_sep (h : p c = true) : splitOn p (c :: cs) = [] :: splitOn p cs := by
  rw [splitOn, if_pos h]

theorem splitOn_char (h : p c = false) (hs : splitOn p cs = piece :: pieces) :
    splitOn p (c :: cs) = (c :: piece) :: pieces := by
  rw [splitOn, if_neg (by rw [h]; exact Bool.false_ne_true), hs]

theorem exists_splitOn (p : Char → Bool) (cs : List Char) :
    ∃ piece pieces, splitOn p cs = piece :: pieces := by
  induction cs with
  | nil => exact ⟨[], [], rfl⟩
  | cons c cs ih =>
    obtain ⟨piece, pieces, hs⟩ := ih
    cases hc : p c with
    | true => exact ⟨[], _, splitOn_sep hc⟩
    | false => exact ⟨_, _, splitOn_char hc hs⟩

/-- A piece has no separators, and its characters are those of the text. -/
theorem mem_splitOn : ∀ piece ∈ splitOn p cs, ∀ c ∈ piece, p c = false ∧ c ∈ cs := by
  induction cs with
  | nil => simp [splitOn]
  | cons c cs ih =>
    obtain ⟨first, pieces, hs⟩ := exists_splitOn p cs
    rw [hs] at ih
    obtain ⟨hfirst, hpieces⟩ := List.forall_mem_cons.1 ih
    have hlater : ∀ piece ∈ pieces, ∀ d ∈ piece, p d = false ∧ d ∈ c :: cs := fun piece hmem d hd =>
      ⟨(hpieces piece hmem d hd).1, List.mem_cons_of_mem _ (hpieces piece hmem d hd).2⟩
    have hhead : ∀ d ∈ first, p d = false ∧ d ∈ c :: cs := fun d hd =>
      ⟨(hfirst d hd).1, List.mem_cons_of_mem _ (hfirst d hd).2⟩
    cases hc : p c with
    | true =>
      rw [splitOn_sep hc, hs]
      exact List.forall_mem_cons.2 ⟨by simp, List.forall_mem_cons.2 ⟨hhead, hlater⟩⟩
    | false =>
      rw [splitOn_char hc hs]
      refine List.forall_mem_cons.2 ⟨List.forall_mem_cons.2 ⟨⟨hc, ?_⟩, hhead⟩, hlater⟩
      exact List.mem_cons_self

theorem splitOn_word (h : ∀ c ∈ cs, p c = false) : splitOn p cs = [cs] := by
  induction cs with
  | nil => rfl
  | cons c cs ih =>
    obtain ⟨hc, hcs⟩ := List.forall_mem_cons.1 h
    exact splitOn_char hc (ih hcs)

/-- A separator parts the pieces before it from those behind it. -/
theorem splitOn_append_sep {m : Char} (hm : p m = true) (as bs : List Char) :
    splitOn p (as ++ m :: bs) = splitOn p as ++ splitOn p bs := by
  induction as with
  | nil => exact splitOn_sep hm
  | cons c as ih =>
    rw [List.cons_append]
    by_cases hc : p c = true
    · rw [splitOn_sep hc, splitOn_sep hc, ih, List.cons_append]
    · obtain ⟨piece, pieces, hs⟩ := exists_splitOn p as
      have hc : p c = false := by simpa using hc
      rw [splitOn_char hc hs, splitOn_char hc (by rw [ih, hs, List.cons_append]), List.cons_append]

theorem splitOn_append (h : ∀ c ∈ cs, p c = false) {m : Char} (hm : p m = true) (rest : List Char) :
    splitOn p (cs ++ m :: rest) = cs :: splitOn p rest := by
  rw [splitOn_append_sep hm, splitOn_word h, List.singleton_append]

theorem exists_mem_splitOn (hc : c ∈ cs) (hp : p c = false) : ∃ piece ∈ splitOn p cs, c ∈ piece := by
  induction cs with
  | nil => cases hc
  | cons d cs ih =>
    by_cases hd : p d = true
    · rw [splitOn_sep hd]
      rcases List.mem_cons.1 hc with rfl | hc
      · rw [hp] at hd
        cases hd
      · obtain ⟨piece, hpiece, hc⟩ := ih hc
        exact ⟨piece, List.mem_cons_of_mem _ hpiece, hc⟩
    · obtain ⟨piece, pieces, hs⟩ := exists_splitOn p cs
      rw [splitOn_char (by simpa using hd) hs]
      rcases List.mem_cons.1 hc with rfl | hc
      · exact ⟨c :: piece, List.mem_cons_self, List.mem_cons_self⟩
      · obtain ⟨found, hfound, hc⟩ := ih hc
        rw [hs] at hfound
        rcases List.mem_cons.1 hfound with rfl | hfound
        · exact ⟨d :: found, List.mem_cons_self, List.mem_cons_of_mem _ hc⟩
        · exact ⟨found, List.mem_cons_of_mem _ hfound, hc⟩

/-! ## Words -/

theorem words_sep (h : p c = true) : words p (c :: cs) = words p cs := by
  rw [words, splitOn_sep h]
  rfl

/-- A character in front of a separator is a word of its own. -/
theorem words_char (h : p c = false) (hcs : ∀ d ∈ cs.head?, p d = true) :
    words p (c :: cs) = [c] :: words p cs := by
  have hs : ∃ pieces, splitOn p cs = [] :: pieces := by
    cases cs with
    | nil => exact ⟨[], rfl⟩
    | cons d cs => exact ⟨_, splitOn_sep (hcs d rfl)⟩
  obtain ⟨pieces, hs⟩ := hs
  rw [words, words, splitOn_char h hs, hs]
  rfl

/-- A character in front of another one begins the word of that one. -/
theorem words_char_char (cs : List Char) {d : Char} (h : p c = false) (hd : p d = false) :
    ∃ w ws, words p (d :: cs) = w :: ws ∧ words p (c :: d :: cs) = (c :: w) :: ws := by
  obtain ⟨piece, pieces, hs⟩ := exists_splitOn p cs
  have hsd := splitOn_char hd hs
  refine ⟨d :: piece, pieces.filter (!·.isEmpty), ?_, ?_⟩
  · rw [words, hsd]
    rfl
  · rw [words, splitOn_char h hsd]
    rfl

/-- A text that does not begin with a separator begins with the first of its words. -/
theorem words_begins (h : p c = false) (cs : List Char) :
    ∃ w ws, words p (c :: cs) = (c :: w) :: ws := by
  cases cs with
  | nil => exact ⟨[], _, words_char h (by simp)⟩
  | cons d cs =>
    cases hd : p d with
    | true => exact ⟨[], _, words_char h (by simpa using hd)⟩
    | false =>
      obtain ⟨w, ws, -, hw⟩ := words_char_char cs h hd
      exact ⟨w, ws, hw⟩

/-- A character goes on with the words behind it in one text as in another one, if both begin with a
separator or neither does. -/
theorem words_cons_congr {p' : Char → Bool} {cs' : List Char} (h : p c = false) (h' : p' c = false)
    (hwords : words p cs = words p' cs')
    (hheads : (∀ d ∈ cs.head?, p d = true) ↔ ∀ d ∈ cs'.head?, p' d = true) :
    words p (c :: cs) = words p' (c :: cs') := by
  by_cases hhead : ∀ d ∈ cs.head?, p d = true
  · rw [words_char h hhead, words_char h' (hheads.1 hhead), hwords]
  · have hhead' := fun hall => hhead (hheads.2 hall)
    cases cs with
    | nil => exact absurd (by simp) hhead
    | cons d cs =>
      cases cs' with
      | nil => exact absurd (by simp) hhead'
      | cons d' cs' =>
        obtain ⟨w, ws, hw, hcw⟩ := words_char_char cs h (by simpa using hhead : p d = false)
        obtain ⟨w', ws', hw', hcw'⟩ :=
          words_char_char cs' h' (by simpa using hhead' : p' d' = false)
        rw [hw, hw'] at hwords
        obtain ⟨rfl, rfl⟩ := List.cons.inj hwords
        rw [hcw, hcw']

theorem mem_words {w : List Char} (h : w ∈ words p cs) :
    w ≠ [] ∧ ∀ c ∈ w, p c = false ∧ c ∈ cs := by
  obtain ⟨hmem, hw⟩ := List.mem_filter.1 h
  exact ⟨by simpa using hw, mem_splitOn w hmem⟩

/-- A character that is no separator stands in some word. -/
theorem exists_mem_words (hc : c ∈ cs) (hp : p c = false) : ∃ w ∈ words p cs, c ∈ w := by
  obtain ⟨piece, hpiece, hc⟩ := exists_mem_splitOn hc hp
  refine ⟨piece, List.mem_filter.2 ⟨hpiece, ?_⟩, hc⟩
  cases piece with
  | nil => cases hc
  | cons d piece => rfl

theorem words_append_sep {m : Char} (hm : p m = true) (as bs : List Char) :
    words p (as ++ m :: bs) = words p as ++ words p bs := by
  rw [words, splitOn_append_sep hm, List.filter_append]
  rfl

/-- However many separators stand between two texts, the words are those of the texts. -/
theorem words_run {ms : List Char} (hne : ms ≠ []) (h : ∀ m ∈ ms, p m = true) (as bs : List Char) :
    words p (as ++ (ms ++ bs)) = words p as ++ words p bs := by
  have hdropped : words p (ms ++ bs) = words p bs := by
    clear hne
    induction ms with
    | nil => rfl
    | cons m ms ih =>
      obtain ⟨hm, hms⟩ := List.forall_mem_cons.1 h
      rw [List.cons_append, words_sep hm, ih hms]
  cases ms with
  | nil => exact absurd rfl hne
  | cons m ms =>
    have hm := h m List.mem_cons_self
    rw [List.cons_append] at hdropped ⊢
    rw [words_append_sep hm, ← hdropped, words_sep hm]

/-- Words that are joined by a separator are the words of what they are joined to. -/
theorem words_intercalate {m : Char} (hm : p m = true) {ws : List (List Char)}
    (h : ∀ w ∈ ws, w ≠ [] ∧ ∀ c ∈ w, p c = false) : words p ([m].intercalate ws) = ws := by
  induction ws with
  | nil => rfl
  | cons w ws ih =>
    obtain ⟨⟨hw, hchars⟩, hws⟩ := List.forall_mem_cons.1 h
    have hkept : ∀ pieces : List (List Char), (w :: pieces).filter (!·.isEmpty) =
        w :: pieces.filter (!·.isEmpty) := fun pieces => List.filter_cons_of_pos (by simpa using hw)
    cases ws with
    | nil =>
      rw [List.intercalate_singleton, words, splitOn_word hchars, hkept]
      rfl
    | cons next ws =>
      rw [List.intercalate_cons_cons, List.append_assoc, List.singleton_append, words,
        splitOn_append hchars hm, hkept]
      exact congrArg (w :: ·) (ih hws)

theorem mem_intercalate {m : Char} {ws : List (List Char)} (h : c ∈ [m].intercalate ws) :
    c = m ∨ ∃ w ∈ ws, c ∈ w := by
  induction ws with
  | nil => cases h
  | cons w ws ih =>
    cases ws with
    | nil =>
      rw [List.intercalate_singleton] at h
      exact .inr ⟨w, List.mem_cons_self, h⟩
    | cons next ws =>
      rw [List.intercalate_cons_cons, List.mem_append, List.mem_append, List.mem_singleton] at h
      rcases h with (h | h) | h
      · exact .inr ⟨w, List.mem_cons_self, h⟩
      · exact .inl h
      · obtain hm | ⟨v, hv, hc⟩ := ih h
        · exact .inl hm
        · exact .inr ⟨v, List.mem_cons_of_mem _ hv, hc⟩

theorem intercalate_eq_nil {m : Char} {ws : List (List Char)} (h : ∀ w ∈ ws, w ≠ []) :
    [m].intercalate ws = [] ↔ ws = [] := by
  cases ws with
  | nil => simp
  | cons w ws =>
    have hw : w ≠ [] := h w List.mem_cons_self
    cases ws with
    | nil => simpa using hw
    | cons next ws => simp [List.intercalate_cons_cons]

end Splitting

/-! ## Trimming -/

theorem dropEnd_cons (p : Char → Bool) (c : Char) (cs : List Char) :
    dropEnd p (c :: cs) = if dropEnd p cs = [] ∧ p c = true then [] else c :: dropEnd p cs := by
  rw [dropEnd, dropEnd, List.reverse_cons, List.dropWhile_append]
  by_cases h : List.dropWhile p cs.reverse = []
  · rw [h]
    cases hc : p c <;> simp [hc]
  · simp [h]

/-- It does not matter which end is trimmed first. -/
theorem dropEnd_dropWhile (p : Char → Bool) (cs : List Char) :
    dropEnd p (cs.dropWhile p) = (dropEnd p cs).dropWhile p := by
  induction cs with
  | nil => rfl
  | cons c cs ih =>
    by_cases hc : p c = true
    · rw [List.dropWhile_cons_of_pos hc, ih, dropEnd_cons]
      by_cases h : dropEnd p cs = []
      · rw [if_pos ⟨h, hc⟩, h]
      · rw [if_neg fun hboth => h hboth.1, List.dropWhile_cons_of_pos hc]
    · rw [List.dropWhile_cons_of_neg hc, dropEnd_cons, if_neg fun hboth => hc hboth.2,
        List.dropWhile_cons_of_neg hc]

theorem dropWhile_eq_self_iff {p : Char → Bool} {cs : List Char} :
    cs.dropWhile p = cs ↔ ∀ c ∈ cs.head?, p c = false := by
  cases cs with
  | nil => simp
  | cons c cs => simp [List.dropWhile_eq_self_iff]

theorem dropEnd_eq_self_iff {p : Char → Bool} {cs : List Char} :
    dropEnd p cs = cs ↔ ∀ c ∈ cs.getLast?, p c = false := by
  rw [dropEnd, List.reverse_eq_iff, dropWhile_eq_self_iff, List.head?_reverse]

/-- Nothing is trimmed exactly if neither end has anything to trim. -/
theorem trim_eq_self_iff {p : Char → Bool} {cs : List Char} :
    trim p cs = cs ↔ (∀ c ∈ cs.head?, p c = false) ∧ ∀ c ∈ cs.getLast?, p c = false := by
  rw [← dropWhile_eq_self_iff, ← dropEnd_eq_self_iff]
  constructor
  · intro h
    -- what is left after both is no longer than what is left after the first
    have hlength := (List.rdropWhile_prefix p (cs.dropWhile p)).length_le
    have htrim : List.rdropWhile p (cs.dropWhile p) = cs := h
    rw [htrim] at hlength
    have hfront := (List.dropWhile_suffix p).eq_of_length_le hlength
    rw [trim, hfront] at h
    exact ⟨hfront, h⟩
  · rintro ⟨hfront, hback⟩
    rw [trim, hfront, hback]

theorem head?_squeeze (m : Char) (cs : List Char) : (squeeze m cs).head? = cs.head? := by
  cases cs with
  | nil => rfl
  | cons c cs =>
    rw [squeeze]
    split
    · rfl
    · split
      · rename_i hboth
        rw [hboth.1, hboth.2]
        rfl
      · rfl

theorem squeeze_cons (m c : Char) (cs : List Char) :
    squeeze m (c :: cs) = if c = m ∧ cs.head? = some m then squeeze m cs else c :: squeeze m cs := by
  rw [squeeze]
  cases hs : squeeze m cs with
  | nil =>
    have hnil : cs.head? = none := by rw [← head?_squeeze m, hs]; rfl
    rw [hnil, if_neg (by simp)]
  | cons d tail =>
    have hd : cs.head? = some d := by rw [← head?_squeeze m, hs]; rfl
    simp only [hd, Option.some.injEq]

theorem mem_trim {p : Char → Bool} {cs : List Char} {c : Char} (h : c ∈ trim p cs) : c ∈ cs := by
  rw [trim, dropEnd, List.mem_reverse] at h
  have h := (List.dropWhile_sublist _).mem h
  exact (List.dropWhile_sublist _).mem (List.mem_reverse.1 h)

theorem mem_squeeze {m c : Char} {cs : List Char} (h : c ∈ squeeze m cs) : c ∈ cs := by
  induction cs with
  | nil => exact h
  | cons d cs ih =>
    rw [squeeze_cons] at h
    split at h
    · exact List.mem_cons_of_mem _ (ih h)
    · rcases List.mem_cons.1 h with rfl | h
      · exact List.mem_cons_self
      · exact List.mem_cons_of_mem _ (ih h)

/-- What is left when the runs of a mark are shortened and the end is trimmed: the words with a mark
between them, and in front of them if the text begins with one. -/
theorem dropEnd_squeeze (m : Char) (cs : List Char) :
    dropEnd (· == m) (squeeze m cs) =
      if cs.head? = some m ∧ words (· == m) cs ≠ [] then m :: [m].intercalate (words (· == m) cs)
      else [m].intercalate (words (· == m) cs) := by
  induction cs with
  | nil => rfl
  | cons c cs ih =>
    have hnil : [m].intercalate (words (· == m) cs) = [] ↔ words (· == m) cs = [] :=
      intercalate_eq_nil fun w hw => (mem_words hw).1
    simp only [squeeze_cons, List.head?_cons, Option.some.injEq]
    by_cases hc : c = m
    · subst hc
      have hsep : words (· == c) (c :: cs) = words (· == c) cs := words_sep (by simp)
      rw [hsep]
      by_cases hhead : cs.head? = some c
      · rw [if_pos ⟨rfl, hhead⟩, ih]
        simp only [hhead]
      · have hrest : dropEnd (· == c) (squeeze c cs) = [c].intercalate (words (· == c) cs) := by
          rw [ih, if_neg fun h => hhead h.1]
        rw [if_neg fun h => hhead h.2, dropEnd_cons, hrest]
        simp only [hnil]
        by_cases hwords : words (· == c) cs = []
        · simp [hwords]
        · simp [hwords]
    · have hchar : (c == m) = false := by simpa using hc
      rw [if_neg fun h => hc h.1, dropEnd_cons, if_neg (by simp [hc]), if_neg fun h => hc h.1, ih]
      by_cases hhead : ∀ d ∈ cs.head?, (d == m) = true
      · rw [words_char (p := (· == m)) hchar hhead]
        by_cases hwords : words (· == m) cs = []
        · simp [hwords]
        · -- a word is left, so the text behind the character begins with a mark
          have hmark : cs.head? = some m := by
            cases cs with
            | nil => exact absurd rfl hwords
            | cons d cs => rw [List.head?_cons, eq_of_beq (hhead d rfl)]
          rw [if_pos ⟨hmark, hwords⟩, List.intercalate_cons_of_ne_nil hwords]
          rfl
      · cases cs with
        | nil => exact absurd (by simp) hhead
        | cons d cs =>
          have hd : (d == m) = false := by simpa using hhead
          obtain ⟨w, ws, hw, hcw⟩ := words_char_char (p := (· == m)) cs hchar hd
          have hne : ¬ (d :: cs).head? = some m := by simpa using hd
          rw [hw, hcw, if_neg fun h => hne h.1]
          cases ws <;> simp [List.intercalate_cons_cons]

/-- A text whose runs of a mark are shortened to one, with none left at its ends, is its words with the
mark between them. -/
theorem trim_squeeze (m : Char) (cs : List Char) :
    trim (· == m) (squeeze m cs) = [m].intercalate (words (· == m) cs) := by
  have hwords : ∀ w ∈ words (· == m) cs, w ≠ [] ∧ ∀ c ∈ w, (c == m) = false := fun w hw =>
    ⟨(mem_words hw).1, fun c hc => ((mem_words hw).2 c hc).1⟩
  have hfront : ([m].intercalate (words (· == m) cs)).dropWhile (· == m) =
      [m].intercalate (words (· == m) cs) := by
    cases hws : words (· == m) cs with
    | nil => rfl
    | cons w ws =>
      obtain ⟨hne, hchars⟩ := hwords w (by rw [hws]; exact List.mem_cons_self)
      cases w with
      | nil => exact absurd rfl hne
      | cons c w =>
        have hc : (c == m) = false := hchars c List.mem_cons_self
        cases ws with
        | nil => simp [hc]
        | cons next ws =>
          rw [List.intercalate_cons_cons, List.cons_append, List.cons_append,
            List.dropWhile_cons_of_neg (by rw [hc]; exact Bool.false_ne_true)]
  rw [trim, dropEnd_dropWhile, dropEnd_squeeze]
  split
  · rw [List.dropWhile_cons_of_pos (by simp), hfront]
  · exact hfront

end Maquette.Text
