/-
Names as identifiers of a script. A name is an identifier exactly if all letters and numerals of the
text that it is made from go on with one: the first of them begins one or is a digit, which has a fallback
name before it. The name of a value is a word that cannot be bound exactly if it is one that the reserved
words lack.
-/
import Maquette.Proofs.Naming.Distinct
import Maquette.Proofs.Naming.IdentifierChar

namespace Maquette.Naming

open Text (isAlphanumeric isDigit isIdStart isIdContinue)

/-! ## Identifiers -/

/-- An identifier of a script: a character that can begin one, an underscore or a dollar sign, and then
characters that it can go on with. -/
def IsIdentifier : List Char → Prop
  | [] => False
  | c :: rest => (isIdStart c = true ∨ c = '_' ∨ c = '$') ∧ ∀ d ∈ rest, isIdContinue d = true

instance : (cs : List Char) → Decidable (IsIdentifier cs)
  | [] => inferInstanceAs (Decidable False)
  | _ :: rest => decidable_of_iff (_ ∧ rest.all isIdContinue = true)
      (and_congr_right' List.all_eq_true)

/-- Words that no binding of a module can have as its name: the reserved words, those that are reserved
in strict code or in modules, and the two names that strict code does not bind. -/
def unbindable : List String :=
  ["await", "break", "case", "catch", "class", "const", "continue", "debugger", "default", "delete",
   "do", "else", "enum", "export", "extends", "false", "finally", "for", "function", "if", "import",
   "in", "instanceof", "new", "null", "return", "super", "switch", "this", "throw", "true", "try",
   "typeof", "var", "void", "while", "with", "yield",
   "implements", "interface", "let", "package", "private", "protected", "public", "static",
   "arguments", "eval"]

/-- Those of them that the reserved words lack. -/
def unguarded : List String :=
  ["await", "debugger", "enum", "false", "null", "true", "implements", "interface", "package",
   "private", "protected", "public", "static", "arguments", "eval"]

theorem mem_unguarded {w : String} : w ∈ unguarded ↔ w ∈ unbindable ∧ w ∉ reserved := by
  have hfilter : unguarded = unbindable.filter (· ∉ reserved) := by decide
  rw [hfilter, List.mem_filter, decide_eq_true_eq]

section Identifiers

variable {cs ds : List Char}

theorem isIdentifier_append (hne : cs ≠ []) :
    IsIdentifier (cs ++ ds) ↔ IsIdentifier cs ∧ ∀ d ∈ ds, isIdContinue d = true := by
  cases cs with
  | nil => exact absurd rfl hne
  | cons c rest =>
    rw [List.cons_append, IsIdentifier, IsIdentifier, List.forall_mem_append, and_assoc]

/-- What begins an identifier, other than a dollar sign, also goes on with one. -/
theorem IsIdentifier.continues (h : IsIdentifier cs) (hl : Lettered cs) :
    ∀ d ∈ cs, isIdContinue d = true := by
  cases cs with
  | nil => cases h
  | cons c rest =>
    obtain ⟨hc, hrest⟩ := h
    refine List.forall_mem_cons.2 ⟨?_, hrest⟩
    rcases hc with hc | rfl | rfl
    · exact Text.isIdContinue_of_isIdStart hc
    · decide
    · exact absurd List.mem_cons_self (hl.not_mem rfl)

/-- What stands before a digit begins an identifier if the fallback is one. -/
theorem digitGuard_identifier {fallback : String} (hf : IsIdentifier fallback.toList) :
    IsIdentifier (digitGuard fallback) := by
  have hunderscore : IsIdentifier ['_'] := ⟨.inr (.inl rfl), nofun⟩
  unfold digitGuard
  split
  · rename_i c rest hc
    split
    · rwa [hc] at hf
    · exact hunderscore
  · exact hunderscore

end Identifiers

/-! ## Words of names -/

/-- A name whose letters and numerals all go on with an identifier. -/
def Continues (ps : Pieces) : Prop := ∀ p ∈ ps, isWord p = true → ∀ c ∈ p, isIdContinue c = true

section Words

variable {ps : Pieces} {c : Char}

/-- The characters of the words of a name are those of its pieces. -/
theorem mem_runs : (∃ w ∈ runs ps, c ∈ w) ↔ ∃ p ∈ ps, isWord p = true ∧ c ∈ p := by
  constructor
  · rintro ⟨w, hw, hc⟩
    obtain ⟨hblank, hmem⟩ := (Text.mem_words hw).2 c hc
    obtain ⟨p, hp, hc⟩ := List.mem_flatMap.1 hmem
    split at hc
    · rename_i hword
      exact ⟨p, hp, hword, hc⟩
    · rw [List.mem_singleton.1 hc] at hblank
      cases hblank
  · rintro ⟨p, hp, hword, hc⟩
    refine Text.exists_mem_words (List.mem_flatMap.2 ⟨p, hp, by rwa [if_pos hword]⟩) ?_
    rw [beq_eq_false_iff_ne]
    rintro rfl
    exact absurd (List.all_eq_true.1 (Bool.and_eq_true_iff.1 hword).2 _ hc) (by decide)

theorem alphanumeric_of_mem_runs {w : List Char} (hw : w ∈ runs ps) (hc : c ∈ w) :
    isAlphanumeric c = true := by
  obtain ⟨p, -, hword, hc⟩ := mem_runs.1 ⟨w, hw, hc⟩
  exact List.all_eq_true.1 (Bool.and_eq_true_iff.1 hword).2 c hc

theorem capitalized_continues {w : List Char} (h : ∀ c ∈ w, isAlphanumeric c = true) :
    (∀ d ∈ capitalized w, isIdContinue d = true) ↔ ∀ c ∈ w, isIdContinue c = true := by
  cases w with
  | nil => exact Iff.rfl
  | cons c rest =>
    rw [capitalized, List.forall_mem_append, List.forall_mem_cons,
      (Text.capitalChar_keeps (.inl (h c List.mem_cons_self))).continue_iff]

/-- The words that are run together go on with an identifier exactly if those of the name do. -/
theorem joined_continues (ps : Pieces) :
    (∀ d ∈ joined ps, isIdContinue d = true) ↔ Continues ps := by
  have hwords : (∀ d ∈ joined ps, isIdContinue d = true) ↔
      ∀ w ∈ runs ps, ∀ c ∈ w, isIdContinue c = true := by
    rw [joined, List.forall_mem_flatMap]
    exact forall₂_congr fun w hw => capitalized_continues fun c hc => alphanumeric_of_mem_runs hw hc
  rw [hwords]
  constructor
  · intro h p hp hword c hc
    obtain ⟨w, hw, hc⟩ := mem_runs.2 ⟨p, hp, hword, hc⟩
    exact h w hw c hc
  · intro h w hw c hc
    obtain ⟨p, hp, hword, hc⟩ := mem_runs.1 ⟨w, hw, hc⟩
    exact h p hp hword c hc

/-- The first character of words that are run together. -/
theorem joined_head {d : Char} {rest : List Char} (h : joined ps = d :: rest) :
    (isAlphanumeric d = true ∨ isIdContinue d = true) ∧
      (isIdContinue d = true → isIdStart d = true ∨ isDigit d = true) := by
  cases hruns : runs ps with
  | nil =>
    rw [joined, hruns] at h
    cases h
  | cons w ws =>
    have hw : w ∈ runs ps := by
      rw [hruns]
      exact List.mem_cons_self
    cases w with
    | nil => exact absurd rfl (Text.mem_words hw).1
    | cons c cs =>
      have hc := alphanumeric_of_mem_runs hw List.mem_cons_self
      obtain ⟨d', ds, hds, hd⟩ := (Text.capitalChar_keeps (.inl hc)).head
      rw [joined, hruns, List.flatMap_cons, capitalized, hds] at h
      obtain ⟨rfl, -⟩ := List.cons.inj h
      rcases hd with rfl | ⟨-, hstart⟩
      · exact ⟨.inl hc, Text.isIdStart_or_isDigit hc⟩
      · exact ⟨.inr (Text.isIdContinue_of_isIdStart hstart), fun _ => .inl hstart⟩

end Words

/-! ## Names -/

section Names

variable {fallback : String} {ps : Pieces}

/-- A name with something before it if it begins with a digit. -/
theorem guarded_identifier {d : Char} {rest out : List Char} (hf : IsIdentifier fallback.toList)
    (hl : Lettered (d :: rest)) (hd : isIdContinue d = true → isIdStart d = true ∨ isDigit d = true)
    (hout : (∀ e ∈ out, isIdContinue e = true) ↔ ∀ e ∈ d :: rest, isIdContinue e = true) :
    IsIdentifier (if startsWithDigit (d :: rest) then digitGuard fallback ++ out else d :: rest) ↔
      ∀ e ∈ d :: rest, isIdContinue e = true := by
  split
  · have hguard := digitGuard_identifier hf
    have hne : digitGuard fallback ≠ [] := by
      intro hnil
      rw [hnil] at hguard
      exact hguard
    rw [isIdentifier_append hne, hout]
    exact and_iff_right hguard
  · rename_i hdigit
    refine ⟨fun h => h.continues hl, fun h => ?_⟩
    obtain ⟨hcontinue, hrest⟩ := List.forall_mem_cons.1 h
    rcases hd hcontinue with hstart | hd
    · exact ⟨.inl hstart, hrest⟩
    · exact absurd hd hdigit

theorem pascal_identifier (hf : IsIdentifier fallback.toList) (ps : Pieces) :
    IsIdentifier (pascal fallback ps).toList ↔ Continues ps := by
  have hl := joined_lettered ps
  rw [← joined_continues]
  unfold pascal
  cases hj : joined ps with
  | nil => simpa using hf
  | cons d rest =>
    rw [hj] at hl
    simp only [String.toList_ofList]
    exact guarded_identifier hf hl (joined_head hj).2 Iff.rfl

theorem unreserved_identifier {name : String} :
    IsIdentifier (unreserved name).toList ↔ IsIdentifier name.toList := by
  unfold unreserved
  split
  · rename_i hreserved
    have hne : name.toList ≠ [] := by
      rw [ne_eq, String.toList_eq_nil_iff]
      rintro rfl
      exact absurd hreserved (by decide)
    rw [String.toList_append, isIdentifier_append hne]
    exact and_iff_left (List.all_eq_true.1 (by decide))
  · exact Iff.rfl

theorem camel_identifier (hf : IsIdentifier fallback.toList) (ps : Pieces) :
    IsIdentifier (camel fallback ps).toList ↔ Continues ps := by
  have hl := joined_lettered ps
  rw [← joined_continues]
  unfold camel
  cases hj : joined ps with
  | nil => simpa using hf
  | cons d rest =>
    obtain ⟨hd, hstart⟩ := joined_head hj
    have hkeeps := Text.smallFrom_keeps hd
    obtain ⟨e, es, hes, he⟩ := hkeeps.head
    rw [hj] at hl
    have hlow : lowered (d :: rest) = e :: (es ++ rest) := by
      rw [lowered, hes, List.cons_append]
    have hlettered := lowered_lettered hl
    have hsame : (∀ c ∈ d :: rest, isIdContinue c = true) ↔
        ∀ c ∈ e :: (es ++ rest), isIdContinue c = true := by
      rw [← List.cons_append, List.forall_mem_append, List.forall_mem_cons, ← hes,
        hkeeps.continue_iff]
    have hhead : isIdContinue e = true → isIdStart e = true ∨ isDigit e = true := by
      rcases he with rfl | ⟨-, he⟩
      · exact hstart
      · exact fun _ => .inl he
    rw [hlow] at hlettered
    simp only [hlow, unreserved_identifier, String.toList_ofList]
    rw [guarded_identifier hf hlettered hhead hsame, hsame]

/-! ## Words that cannot be bound -/

/-- All reserved words and all that cannot be bound are in small letters. -/
theorem small_of_mem {w : String} (hw : w ∈ unbindable ++ reserved) :
    ∀ c ∈ w.toList, Text.isSmallAscii c = true := by
  have hall : ((unbindable ++ reserved).all fun w => w.toList.all Text.isSmallAscii) = true := by
    decide
  exact List.all_eq_true.1 (List.all_eq_true.1 hall w hw)

theorem isDigit_of_isSmallAscii {c : Char} (h : Text.isSmallAscii c = true) : isDigit c = false := by
  obtain ⟨hlo, hhi⟩ := Bool.and_eq_true_iff.1 h
  exact Text.Ranges.not_has_of_span (by decide) (of_decide_eq_true hlo) (of_decide_eq_true hhi)

theorem unreserved_unbindable {name : String} :
    unreserved name ∈ unbindable ↔ name ∈ unguarded := by
  rw [mem_unguarded]
  unfold unreserved
  split
  · rename_i hreserved
    refine iff_of_false (fun h => ?_) fun h => h.2 (by simpa using hreserved)
    -- the ending has a capital in it
    have hsmall := small_of_mem (List.mem_append_left reserved h) 'V' (by simp)
    cases hsmall
  · rename_i hfree
    exact (and_iff_left (by simpa using hfree)).symm

/-- The name of a value cannot be bound exactly if its words, with a small letter at their front, are a
word that the reserved words lack. -/
theorem camel_unbindable (hf : fallback ∉ unbindable) (ps : Pieces) :
    camel fallback ps ∈ unbindable ↔ String.ofList (lowered (joined ps)) ∈ unguarded := by
  unfold camel
  cases hj : joined ps with
  | nil => exact iff_of_false hf (by decide)
  | cons d rest =>
    simp only [unreserved_unbindable]
    split
    · rename_i hdigit
      obtain ⟨hd, -⟩ := joined_head hj
      obtain ⟨e, es, hes, he⟩ := (Text.smallFrom_keeps hd).head
      have hlow : lowered (d :: rest) = e :: (es ++ rest) := by
        rw [lowered, hes, List.cons_append]
      have hnone : ∀ {cs : List Char} {c : Char}, c ∈ cs → isDigit c = true →
          String.ofList cs ∉ unguarded := by
        intro cs c hc hdigit hmem
        have hsmall := small_of_mem (List.mem_append_left reserved (mem_unguarded.1 hmem).1) c
          (by rwa [String.toList_ofList])
        rw [isDigit_of_isSmallAscii hsmall] at hdigit
        cases hdigit
      rw [hlow] at hdigit ⊢
      -- a character that is not in small letters yet would give no digit
      obtain rfl : e = d := by
        rcases he with he | ⟨-, he⟩
        · exact he
        · have hdigit : isDigit e = true := hdigit
          rw [Text.isDigit_of_isIdStart he] at hdigit
          cases hdigit
      exact iff_of_false (hnone (List.mem_append_right _ List.mem_cons_self) hdigit)
        (hnone List.mem_cons_self hdigit)
    · exact Iff.rfl

/-! ## Shortened and numbered names -/

theorem take_identifier {cs : List Char} (h : IsIdentifier cs) (n : ℕ) :
    IsIdentifier (cs.take (n + 1)) := by
  cases cs with
  | nil => exact h
  | cons c rest => exact ⟨h.1, fun d hd => h.2 d (List.mem_of_mem_take hd)⟩

theorem unique_identifier {base : String} (h : IsIdentifier base.toList) (used : List String) :
    IsIdentifier (unique base used).toList := by
  rcases unique_spec base used with ⟨-, heq⟩ | ⟨-, n, -, heq, -⟩
  · rwa [heq]
  · have hne : base.toList ≠ [] := by
      intro hnil
      rw [hnil] at h
      exact h
    rw [heq, String.toList_append, isIdentifier_append hne]
    exact ⟨h, fun c hc => Text.isIdContinue_of_isDigit (Text.isDigit_of_mem_nat hc)⟩

theorem unique_unbindable {base : String} {used : List String} (h : unique base used ∈ unbindable) :
    base ∈ unbindable := by
  rcases unique_spec base used with ⟨-, heq⟩ | ⟨-, n, -, heq, -⟩
  · rwa [heq] at h
  · rw [heq] at h
    have hdigits : (toString n).toList ≠ [] := by
      rw [Nat.toString_eq_repr, Nat.toList_repr]
      exact Nat.toDigits_ne_nil
    obtain ⟨c, cs, hc⟩ := List.exists_cons_of_ne_nil hdigits
    have hmem : c ∈ (toString n).toList := by
      rw [hc]
      exact List.mem_cons_self
    have hsmall := small_of_mem (List.mem_append_left reserved h) c
      (by rw [String.toList_append]; exact List.mem_append_right _ hmem)
    have hdigit := Text.isDigit_of_mem_nat hmem
    obtain ⟨-, hle⟩ := Bool.and_eq_true_iff.1 hdigit
    obtain ⟨hlo, -⟩ := Bool.and_eq_true_iff.1 hsmall
    have hle : c.toNat ≤ 57 := of_decide_eq_true hle
    have hlo := of_decide_eq_true hlo
    omega

end Names

/-! ## Names of texts -/

/-- The fallback names are identifiers that can be bound. Under such a fallback the names of types and
values that are made from a text are identifiers exactly if all letters and numerals of the text go on
with one, and the name of a value cannot be bound exactly if it is one of the words that the reserved
words lack. Shortening a name and telling it from others with a number makes it no worse. -/
theorem names_identifiers_iff (s : String) :
    (∀ fallback ∈ ["Unnamed", "Component", "Variant", "State", "value"],
      IsIdentifier fallback.toList ∧ fallback ∉ unbindable) ∧
    (∀ fallback : String, IsIdentifier fallback.toList →
      (IsIdentifier (pascal fallback (.ofString s)).toList ↔
        ∀ c ∈ s.toList, isAlphanumeric c = true → isIdContinue c = true) ∧
      (IsIdentifier (camel fallback (.ofString s)).toList ↔
        ∀ c ∈ s.toList, isAlphanumeric c = true → isIdContinue c = true)) ∧
    (∀ fallback ∉ unbindable, camel fallback (.ofString s) ∈ unbindable ↔
      String.ofList (lowered (joined (.ofString s))) ∈ unguarded) ∧
    ∀ (name : String) (used : List String),
      (IsIdentifier name.toList → ∀ n,
        IsIdentifier (unique (String.ofList (name.toList.take (n + 1))) used).toList) ∧
      (unique name used ∈ unbindable → name ∈ unbindable) := by
  have hpieces : Continues (.ofString s) ↔
      ∀ c ∈ s.toList, isAlphanumeric c = true → isIdContinue c = true := by
    unfold Continues Pieces.ofString
    rw [List.forall_mem_map]
    simp [isWord]
  refine ⟨?_, fun fallback hf => ?_, fun fallback hf => camel_unbindable hf _, fun name used => ?_⟩
  · have hall : (["Unnamed", "Component", "Variant", "State", "value"].all fun fallback =>
        decide (IsIdentifier fallback.toList ∧ fallback ∉ unbindable)) = true := by decide
    exact fun fallback h => of_decide_eq_true (List.all_eq_true.1 hall fallback h)
  · rw [pascal_identifier hf, camel_identifier hf, hpieces]
    exact ⟨Iff.rfl, Iff.rfl⟩
  · refine ⟨fun h n => unique_identifier ?_ used, unique_unbindable⟩
    rw [String.toList_ofList]
    exact take_identifier h n

/-- A name that begins with a digit, and a fallback before it. -/
theorem names_identifiers_large :
    IsIdentifier "Variant".toList ∧ "value" ∉ unbindable ∧
    IsIdentifier (pascal "Variant" (.ofString "16 large")).toList ∧
    camel "value" (.ofString "16 large") ∉ unbindable := by
  have hmade : ∀ c ∈ "16 large".toList, isAlphanumeric c = true → isIdContinue c = true := by
    have hall : ("16 large".toList.all fun c => !isAlphanumeric c || isIdContinue c) = true := by
      decide
    intro c hc h
    simpa [h] using List.all_eq_true.1 hall c hc
  obtain ⟨hfallbacks, hlegal, hunbindable, -⟩ := names_identifiers_iff "16 large"
  have hvariant := hfallbacks "Variant" (by decide)
  have hvalue := hfallbacks "value" (by decide)
  refine ⟨hvariant.1, hvalue.2, ((hlegal "Variant" hvariant.1).1).2 hmade, ?_⟩
  rw [hunbindable "value" hvalue.2]
  decide

/-- A word that the reserved words lack, and a numeral that is no part of an identifier. -/
theorem names_not_identifiers :
    camel "value" (.ofString "Enum") = "enum" ∧ "enum" ∈ unbindable ∧
    pascal "Unnamed" (.ofString "Size½") = "Size½" ∧ ¬ IsIdentifier "Size½".toList := by
  decide

end Maquette.Naming
