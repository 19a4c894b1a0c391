/-
Names of style classes. Whatever a class is named after, its name is not empty and is made of letters,
numerals and single hyphens between them, so that it stands unquoted as a class, in a template and in an
id. Doubled hyphens are replaced by single ones in rounds: each round shortens the text and leaves its
ends as they are, and what is left when no round applies is the text with its runs of hyphens squeezed.
-/
import Maquette.Markup.Basic
import Maquette.Proofs.Naming.IdentifierChar
import Maquette.Proofs.Script.ClassList

namespace Maquette.Text

/-! ## Rounds of replacing -/

/-- A text with every two marks `m` that stand next to each other replaced by one, from its front on. -/
def halved (m : Char) : List Char → List Char
  | c :: d :: rest => if c = m ∧ d = m then m :: halved m rest else c :: halved m (d :: rest)
  | cs => cs

section Rounds

variable {m c : Char} {cs : List Char}

theorem doubled_cons : [m, m] <:+: c :: cs ↔ c = m ∧ cs.head? = some m ∨ [m, m] <:+: cs := by
  rw [List.infix_cons_iff, List.cons_prefix_cons]
  cases cs with
  | nil => simp
  | cons d cs => simp [List.cons_prefix_cons, eq_comm]

theorem getLast?_squeeze (cs : List Char) : (squeeze m cs).getLast? = cs.getLast? := by
  induction cs with
  | nil => rfl
  | cons c cs ih =>
    have hnil : squeeze m cs = [] ↔ cs = [] := by
      rw [← List.head?_eq_none_iff, head?_squeeze, List.head?_eq_none_iff]
    rw [squeeze_cons]
    by_cases hcs : cs = []
    · subst hcs
      simp [squeeze]
    · have hlast : ∀ ds : List Char, ds ≠ [] → (c :: ds).getLast? = ds.getLast? := fun ds hds => by
        rw [List.getLast?_cons_of_ne_nil hds]
      rw [hlast cs hcs]
      split
      · exact ih
      · rw [hlast _ (mt hnil.1 hcs), ih]

theorem not_doubled_squeeze (m : Char) (cs : List Char) : ¬ [m, m] <:+: squeeze m cs := by
  induction cs with
  | nil => simp [squeeze]
  | cons c cs ih =>
    rw [squeeze_cons]
    split
    · exact ih
    · rename_i hapart
      rw [doubled_cons, head?_squeeze]
      exact fun h => h.elim hapart ih

theorem squeeze_of_not_doubled (h : ¬ [m, m] <:+: cs) : squeeze m cs = cs := by
  induction cs with
  | nil => rfl
  | cons c cs ih =>
    rw [doubled_cons, not_or] at h
    rw [squeeze_cons, if_neg h.1, ih h.2]

theorem head?_halved : ∀ cs : List Char, (halved m cs).head? = cs.head?
  | [] => rfl
  | [_] => rfl
  | c :: d :: rest => by
    rw [halved]
    split
    · rename_i hboth
      rw [hboth.1]
      rfl
    · rfl

/-- A round does not change what is left when runs are squeezed. -/
theorem squeeze_halved (cs : List Char) : squeeze m (halved m cs) = squeeze m cs := by
  fun_induction halved m cs with
  | case1 c d rest hboth ih =>
    obtain ⟨rfl, rfl⟩ := hboth
    have hpair : squeeze d (d :: d :: rest) = squeeze d (d :: rest) := by
      rw [squeeze_cons, if_pos ⟨rfl, rfl⟩]
    rw [hpair, squeeze_cons, squeeze_cons, head?_halved, ih]
  | case2 c d rest hapart ih => rw [squeeze_cons, squeeze_cons, head?_halved, ih]
  | case3 => rfl

/-- A round shortens a text with a doubled mark. -/
theorem length_halved (cs : List Char) :
    (halved m cs).length ≤ cs.length ∧ ([m, m] <:+: cs → (halved m cs).length < cs.length) := by
  fun_induction halved m cs with
  | case1 c d rest hboth ih =>
    simp only [List.length_cons]
    exact ⟨by omega, fun _ => by omega⟩
  | case2 c d rest hapart ih =>
    rw [doubled_cons, List.head?_cons, Option.some.injEq]
    simp only [List.length_cons] at ih ⊢
    refine ⟨by omega, fun h => ?_⟩
    have := ih.2 (h.resolve_left hapart)
    omega
  | case3 cs hshort =>
    refine ⟨le_rfl, fun h => ?_⟩
    obtain ⟨front, back, rfl⟩ := h
    cases front with
    | nil => exact absurd rfl (hshort m m back)
    | cons c front =>
      cases front with
      | nil => exact absurd rfl (hshort c m (m :: back))
      | cons d front => exact absurd rfl (hshort c d (front ++ [m, m] ++ back))

/-- Rounds go on as long as a mark is doubled; they end, and leave the text with its runs squeezed. -/
theorem exists_rounds (m : Char) (cs : List Char) :
    ∃ n ≤ cs.length, (∀ k < n, [m, m] <:+: (halved m)^[k] cs) ∧ (halved m)^[n] cs = squeeze m cs := by
  induction hlength : cs.length using Nat.strong_induction_on generalizing cs with
  | _ length ih =>
    subst hlength
    by_cases hdoubled : [m, m] <:+: cs
    · have hshort := (length_halved cs).2 hdoubled
      obtain ⟨n, hn, hrounds, hend⟩ := ih _ hshort (halved m cs) rfl
      refine ⟨n + 1, by omega, ?_, ?_⟩
      · rintro (_ | k) hk
        · exact hdoubled
        · rw [Function.iterate_succ_apply]
          exact hrounds k (by omega)
      · rw [Function.iterate_succ_apply, hend, squeeze_halved]
    · exact ⟨0, Nat.zero_le _, fun k hk => absurd hk (Nat.not_lt_zero k),
        (squeeze_of_not_doubled hdoubled).symm⟩

end Rounds

theorem head?_trim {p : Char → Bool} {cs : List Char} {c : Char} (h : c ∈ (trim p cs).head?) :
    p c = false := by
  rw [trim, dropEnd_dropWhile] at h
  have hfirst := List.head?_dropWhile_not p (dropEnd p cs)
  rw [h] at hfirst
  exact hfirst

theorem getLast?_trim {p : Char → Bool} {cs : List Char} {c : Char} (h : c ∈ (trim p cs).getLast?) :
    p c = false := by
  rw [trim, dropEnd, List.getLast?_reverse] at h
  have hfirst := List.head?_dropWhile_not p (cs.dropWhile p).reverse
  rw [h] at hfirst
  exact hfirst

/-! ## Small letters of letters and numerals -/

/-- A letter or numeral is a character, not a code point without one. -/
theorem isValidChar_of_alphanumeric {n : ℕ} (h : alphanumericRanges.has n = true) : n.isValidChar := by
  have hvalid : ∀ r ∈ alphanumericRanges, r.2 < 0xd800 ∨ 0xdfff < r.1 ∧ r.2 < 0x110000 := by
    decide +kernel
  obtain ⟨r, hr, hlo, hhi⟩ := Ranges.exists_of_has h
  unfold Nat.isValidChar
  rcases hvalid r hr with h | h <;> omega

/-- The code points of a run are no letters or numerals, or they are moved to such. -/
def CaseRun.keepsAlphanumeric (run : CaseRun) : Bool :=
  Ranges.apart [(run.first, run.last)] alphanumericRanges ||
    alphanumericRanges.covers (run.first + run.shift).toNat (run.last + run.shift).toNat

/-- The dot above that stays behind when a capital I loses its own. -/
def dotAbove : Char := '\u0307'

theorem smallChar_alphanumeric {c : Char} (hc : isAlphanumeric c = true) :
    ∀ d ∈ smallChar c, isAlphanumeric d = true ∨ d = dotAbove := by
  have hruns : ∀ run ∈ smallRuns, run.keepsAlphanumeric = true := by decide +kernel
  have hexpansions : ∀ row ∈ smallExpansions, ∀ n ∈ row.2,
      isAlphanumeric (Char.ofNat n) = true ∨ Char.ofNat n = dotAbove := by decide +kernel
  unfold smallChar mapCase
  split
  · rename_i m hm
    obtain ⟨run, hrun, hfirst, hlast, -, rfl⟩ := exists_run hm
    refine List.forall_mem_singleton.2 (.inl ?_)
    rcases Bool.or_eq_true_iff.1 (hruns run hrun) with hapart | hcovers
    · have hother := Ranges.not_has_of_span hapart hfirst hlast
      rw [isAlphanumeric, hother] at hc
      cases hc
    · have hmoved := Ranges.has_of_covers hcovers (n := (c.toNat + run.shift).toNat) (by omega) (by omega)
      rw [isAlphanumeric, Char.toNat_ofNat, if_pos (isValidChar_of_alphanumeric hmoved)]
      exact hmoved
  · split
    · rename_i ns hns
      obtain ⟨k, -, hrow⟩ := Table.mem_of_lookup hns
      exact List.forall_mem_map.2 (hexpansions _ hrow)
    · exact List.forall_mem_singleton.2 (.inl hc)

theorem smallFrom_alphanumeric {cs : List Char} (before : List Char)
    (h : ∀ c ∈ cs, isAlphanumeric c = true) :
    ∀ d ∈ smallFrom before cs, isAlphanumeric d = true ∨ d = dotAbove := by
  induction cs generalizing before with
  | nil => simp [smallFrom]
  | cons c cs ih =>
    obtain ⟨hc, hcs⟩ := List.forall_mem_cons.1 h
    rw [smallFrom, List.forall_mem_append]
    refine ⟨?_, ih _ hcs⟩
    split
    · split <;> exact List.forall_mem_singleton.2 (.inl (by decide +kernel))
    · exact smallChar_alphanumeric hc

/-! ## Blanks -/

/-- The code points of blanks. -/
def blankRanges : Ranges :=
  [(0x9, 0xd), (0x1c, 0x20), (0x85, 0x85), (0xa0, 0xa0), (0x1680, 0x1680), (0x2000, 0x200a),
   (0x2028, 0x2029), (0x202f, 0x202f), (0x205f, 0x205f), (0x3000, 0x3000)]

theorem exists_of_isBlank {c : Char} (h : isBlank c = true) :
    ∃ r ∈ blankRanges, r.1 ≤ c.toNat ∧ c.toNat ≤ r.2 := by
  simp only [isBlank, Bool.or_eq_true, Bool.and_eq_true, decide_eq_true_eq, beq_iff_eq] at h
  simp only [blankRanges, List.exists_mem_cons_iff, List.not_mem_nil, false_and, exists_false, or_false]
  omega

theorem not_isBlank_of_alphanumeric {c : Char} (h : isAlphanumeric c = true) : isBlank c = false := by
  have hapart : ∀ r ∈ blankRanges, Ranges.apart [r] alphanumericRanges = true := by decide +kernel
  by_contra hblank
  obtain ⟨r, hr, hlo, hhi⟩ := exists_of_isBlank (by simpa using hblank)
  have hother := Ranges.not_has_of_span (hapart r hr) hlo hhi
  rw [isAlphanumeric, hother] at h
  cases h

end Maquette.Text

namespace Maquette.Naming

open Text (isAlphanumeric isBlank)

/-! ## Characters of class names -/

/-- What class names are made of. -/
def isClassChar (c : Char) : Bool := isAlphanumeric c || c == '-' || c == Text.dotAbove

/-- The marks that would end a quotation, a template or a tag, or begin something else in it. -/
def marks : List Char := ['"', '\'', '\x60', '\\', '$', '\x7b', '\x7d', '<', '>']

theorem isClassChar_of_small {c : Char} (h : isAlphanumeric c = true ∨ c = Text.dotAbove) :
    isClassChar c = true := by
  unfold isClassChar
  rcases h with h | rfl
  · rw [h, Bool.true_or, Bool.true_or]
  · rw [beq_self_eq_true, Bool.or_true]

theorem hyphenated_classChar (ps : Pieces) (afterSmall : Bool) :
    ∀ c ∈ hyphenated afterSmall ps, isClassChar c = true := by
  induction ps generalizing afterSmall with
  | nil => exact fun c hc => absurd hc List.not_mem_nil
  | cons p rest ih =>
    rw [hyphenated]
    split
    · rename_i hword
      have hsmall := Text.smallFrom_alphanumeric [] (List.all_eq_true.1 (Bool.and_eq_true_iff.1 hword).2)
      refine List.forall_mem_append.2 ⟨List.forall_mem_append.2 ⟨?_, ?_⟩, ih _⟩
      · split <;> simp [isClassChar]
      · exact fun c hc => isClassChar_of_small (hsmall c hc)
    · exact List.forall_mem_cons.2 ⟨by simp [isClassChar], ih _⟩

theorem classChar_bare {c : Char} (h : isClassChar c = true) : isBlank c = false ∧ c ∉ marks := by
  have hmarks : marks.all (!isClassChar ·) = true := by decide +kernel
  refine ⟨?_, fun hmark => ?_⟩
  · rcases Bool.or_eq_true_iff.1 h with h | h
    · rcases Bool.or_eq_true_iff.1 h with h | h
      · exact Text.not_isBlank_of_alphanumeric h
      · rw [eq_of_beq h]
        rfl
    · rw [eq_of_beq h]
      rfl
  · have hother := List.all_eq_true.1 hmarks c hmark
    rw [h] at hother
    cases hother

/-! ## Class names -/

/-- A name of letters, numerals and single hyphens between them. -/
structure IsClassName (name : String) : Prop where
  ne_empty : name ≠ ""
  first : name.toList.head? ≠ some '-'
  last : name.toList.getLast? ≠ some '-'
  single : ¬ ['-', '-'] <:+: name.toList
  chars : ∀ c ∈ name.toList, isClassChar c = true

/-- A text that stands for itself wherever a class name is written: as an attribute and as the only class
of it, in a literal, at the beginning of a template, and in the markup of a graphic. -/
structure StandsUnquoted (name : String) : Prop where
  asAttribute : ∀ key, (Markup.Attribute.text key name).toCode = [.raw (key ++ "=\"" ++ name ++ "\"")]
  classes : Script.classes name = [name]
  literal : Script.literal name = "'" ++ name ++ "'"
  template : ∀ scope helper rest, Script.template? scope helper none (name.toList ++ rest) =
    (Script.template? scope helper none rest).map fun (value, rest) => (name.toList ++ value, rest)
  escaped : Script.escaped name = name

section ClassNames

variable {name : String}

theorem IsClassName.ne_of_mem (h : IsClassName name) {c : Char} (hc : c ∈ name.toList) (mark : Char)
    (hmark : isClassChar mark = false) : c ≠ mark := by
  rintro rfl
  rw [h.chars c hc] at hmark
  cases hmark

theorem IsClassName.unquoted (h : IsClassName name) : StandsUnquoted name where
  asAttribute key := by
    have hplain : Markup.Attribute.needsLiteral name = false := by
      refine List.any_eq_false.2 fun c hc => ?_
      have hquote := h.ne_of_mem hc '"' (by decide +kernel)
      have hfeed := h.ne_of_mem hc '\n' (by decide +kernel)
      simp [hquote, hfeed]
    rw [Markup.Attribute.toCode, hplain, if_neg Bool.false_ne_true]
  classes := by
    have hspaceless : ∀ c ∈ name.toList, (c == ' ') = false := fun c hc =>
      beq_eq_false_iff_ne.2 (h.ne_of_mem hc _ (by decide +kernel))
    rw [Script.classes, Text.words, Text.splitOn_word hspaceless,
      List.filter_cons_of_pos (by simpa using h.ne_empty)]
    simp
  literal := by
    have hself : name.toList.flatMap Script.literalChar = name.toList.flatMap ([·]) := by
      refine List.flatMap_congr fun c hc => ?_
      have hslash := h.ne_of_mem hc '\\' (by decide +kernel)
      have hquote := h.ne_of_mem hc '\'' (by decide +kernel)
      have hfeed := h.ne_of_mem hc '\n' (by decide +kernel)
      have hreturn := h.ne_of_mem hc '\r' (by decide +kernel)
      rw [Script.literalChar, if_neg hslash, if_neg hquote, if_neg hfeed, if_neg hreturn]
    rw [Script.literal, hself, List.flatMap_singleton', ← String.toList_inj]
    simp
  template scope helper rest := Script.template?_words fun c hc =>
    ⟨h.ne_of_mem hc _ (by decide +kernel), h.ne_of_mem hc _ (by decide +kernel),
      h.ne_of_mem hc _ (by decide +kernel)⟩
  escaped := by
    have hself : name.toList.flatMap Script.entity = name.toList.flatMap ([·]) := by
      refine List.flatMap_congr fun c hc => ?_
      have hand := h.ne_of_mem hc '&' (by decide +kernel)
      have hless := h.ne_of_mem hc '<' (by decide +kernel)
      have hgreater := h.ne_of_mem hc '>' (by decide +kernel)
      have hquote := h.ne_of_mem hc '"' (by decide +kernel)
      have hsingle := h.ne_of_mem hc '\'' (by decide +kernel)
      rw [Script.entity, if_neg hand, if_neg hless, if_neg hgreater, if_neg hquote, if_neg hsingle]
    rw [Script.escaped, Text.substitute, hself, List.flatMap_singleton', String.ofList_toList]

end ClassNames

/-! ## Names in hyphens -/

/-- The words of a name with hyphens between them, of which several may stand next to each other. -/
def slug (ps : Pieces) : List Char := Text.trim (· == '-') (hyphenated false ps)

/-- The class name that a slug becomes; where no word is left, there is a name for that. -/
def ofSlug : List Char → String
  | [] => "unnamed"
  | out => String.ofList out

theorem kebab_eq (ps : Pieces) : kebab ps = ofSlug (Text.squeeze '-' (slug ps)) := rfl

theorem ofSlug_isClassName {cs : List Char} (hfirst : cs.head? ≠ some '-')
    (hlast : cs.getLast? ≠ some '-') (hsingle : ¬ ['-', '-'] <:+: cs)
    (hchars : ∀ c ∈ cs, isClassChar c = true) : IsClassName (ofSlug cs) := by
  cases cs with
  | nil =>
    have hchars : "unnamed".toList.all isClassChar = true := by decide +kernel
    exact ⟨by decide, by decide, by decide, by decide, List.all_eq_true.1 hchars⟩
  | cons c cs =>
    have hlist : (ofSlug (c :: cs)).toList = c :: cs := String.toList_ofList
    exact {
      ne_empty := fun h => by
        rw [h] at hlist
        cases hlist
      first := by rwa [hlist]
      last := by rwa [hlist]
      single := by rwa [hlist]
      chars := by rwa [hlist] }

theorem kebab_isClassName (ps : Pieces) : IsClassName (kebab ps) := by
  rw [kebab_eq]
  refine ofSlug_isClassName ?_ ?_ (Text.not_doubled_squeeze _ _) ?_
  · rw [Text.head?_squeeze]
    exact fun h => absurd (Text.head?_trim (p := (· == '-')) h) (by decide)
  · rw [Text.getLast?_squeeze]
    exact fun h => absurd (Text.getLast?_trim (p := (· == '-')) h) (by decide)
  · exact fun c hc => hyphenated_classChar ps false c (Text.mem_trim (Text.mem_squeeze hc))

/-- The rounds in which doubled hyphens of a name are replaced come to an end, and the name is what they
leave: it is never empty, no hyphen stands at its ends or next to another one, no blank and no mark of
code is in it, and it stands for itself wherever a class name is written. -/
theorem kebab_unquoted (ps : Pieces) :
    (∃ n ≤ (slug ps).length, (∀ k < n, ['-', '-'] <:+: (Text.halved '-')^[k] (slug ps)) ∧
      ¬ ['-', '-'] <:+: (Text.halved '-')^[n] (slug ps) ∧
      kebab ps = ofSlug ((Text.halved '-')^[n] (slug ps))) ∧
    IsClassName (kebab ps) ∧
    (∀ c ∈ (kebab ps).toList, isBlank c = false ∧ c ∉ marks) ∧
    StandsUnquoted (kebab ps) := by
  have hname := kebab_isClassName ps
  obtain ⟨n, hn, hrounds, hend⟩ := Text.exists_rounds '-' (slug ps)
  refine ⟨⟨n, hn, hrounds, ?_, ?_⟩, hname, fun c hc => classChar_bare (hname.chars c hc), hname.unquoted⟩
  · rw [hend]
    exact Text.not_doubled_squeeze _ _
  · rw [hend, kebab_eq]

example : kebab (.ofString " --Card / itemRow-- ") = "card-item-row" := by decide +kernel

end Maquette.Naming
