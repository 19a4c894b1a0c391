/-
The text of an element as it is read. Between two tags, the lines of a text are trimmed where they meet
and joined by a blank, those that are left empty go, and the character references in what is left stand
for characters; between braces stands a literal.

A text that is written as an expression is carried as it is. One that is written bare has nothing in it
that a reader would take for something else, but that it may have a carriage return: only a line feed
was thought of as the end of a line. Such a text is read without it, so exactly the others are carried.
-/
import Maquette.Proofs.Markup.CharacterReference

namespace Maquette.Reader

open Script (charsUnits charsUnits_injective codeUnits literal?)

/-! ## Lines of a text -/

/-- Whether a character ends a line. -/
def isBreak (c : Char) : Bool := c = '\n' || c = '\r'

section Folding

variable (blank : Char → Bool)

/-- Lines without the white space around the ends of lines between them; the flag says whether the text
begins with the first of them. -/
def trimmedLines : Bool → List (List Char) → List (List Char)
  | _, [] => []
  | begins, [line] => [if begins then line else line.dropWhile blank]
  | begins, line :: next :: rest =>
    Text.dropEnd blank (if begins then line else line.dropWhile blank) :: trimmedLines false (next :: rest)

/-- A text between tags on one line. -/
def folded (cs : List Char) : List Char :=
  [' '].intercalate ((trimmedLines blank true (Text.splitOn isBreak cs)).filter (!·.isEmpty))

end Folding

example : folded Text.isBlank " a \r\n\t\n  b c \r d ".toList = " a b c d ".toList := by decide +kernel

section Children

variable (names : List (List Char × Char)) (blank : Char → Bool)

/-- The value of a text between tags. -/
def textValue? (cs : List Char) : Option (List Nat) :=
  if cs.any fun c => c = '\x7b' || c = '\x7d' || c = '<' || c = '>' then none
  else decode? names (folded blank cs)

/-- What an element is read with that holds text and at most one literal in braces. -/
def childValue? (cs : List Char) : Option (List Nat) :=
  match Text.cut? '\x7b' cs with
  | none => textValue? names blank cs
  | some (before, rest) =>
    match literal? rest with
    | some (units, '\x7d' :: after) => do
      return (← textValue? names blank before) ++ units ++ (← textValue? names blank after)
    | _ => none

end Children

variable {names : List (List Char × Char)} {blank : Char → Bool} {cs : List Char} {c : Char}

/-- A text on one line stays as it is. -/
theorem folded_line (h : ∀ c ∈ cs, isBreak c = false) : folded blank cs = cs := by
  rw [folded, Text.splitOn_word h]
  cases cs with
  | nil => rfl
  | cons c cs => exact List.intercalate_singleton

theorem mem_trimmedLines {line : List Char} (begins : Bool) {lines : List (List Char)}
    (hline : line ∈ trimmedLines blank begins lines) (hc : c ∈ line) : ∃ whole ∈ lines, c ∈ whole := by
  have hfront : ∀ (begins : Bool) (whole : List Char),
      c ∈ (if begins then whole else whole.dropWhile blank) → c ∈ whole := by
    intro begins whole hc
    split at hc
    · exact hc
    · exact (List.dropWhile_sublist _).mem hc
  induction lines generalizing begins with
  | nil => cases hline
  | cons whole rest ih =>
    cases rest with
    | nil =>
      rw [trimmedLines, List.mem_singleton] at hline
      exact ⟨whole, List.mem_cons_self, hfront begins whole (hline ▸ hc)⟩
    | cons next rest =>
      rw [trimmedLines, List.mem_cons] at hline
      rcases hline with rfl | hline
      · have hc := (List.rdropWhile_prefix blank _).mem hc
        exact ⟨whole, List.mem_cons_self, hfront begins whole hc⟩
      · obtain ⟨found, hfound, hc⟩ := ih false hline
        exact ⟨found, List.mem_cons_of_mem _ hfound, hc⟩

/-- What is left of a text has no line ends, and only blanks that the text did not have. -/
theorem mem_folded (h : c ∈ folded blank cs) : c = ' ' ∨ isBreak c = false ∧ c ∈ cs := by
  rcases Text.mem_intercalate h with hblank | ⟨line, hline, hc⟩
  · exact .inl hblank
  · obtain ⟨whole, hwhole, hc⟩ := mem_trimmedLines true (List.mem_of_mem_filter hline) hc
    exact .inr (Text.mem_splitOn whole hwhole c hc)

/-! ## Plain texts -/

/-- A text in which only a carriage return is read as something else than itself. -/
structure IsPlain (cs : List Char) : Prop where
  marks : ∀ c ∈ ['\x7b', '\x7d', '<', '>', '&', '\n'], c ∉ cs
  front : ∀ c ∈ cs.head?, Text.isBlank c = false
  back : ∀ c ∈ cs.getLast?, Text.isBlank c = false

/-- A text without ampersands holds no reference. -/
theorem not_holdsReference (h : '&' ∉ cs) : ¬ HoldsReference names cs := by
  rintro ⟨before, body, after, rfl, -⟩
  exact h (List.mem_append_right _ List.mem_cons_self)

/-- A plain text is read as what its lines leave of it. -/
theorem IsPlain.childValue (h : IsPlain cs) :
    childValue? names blank cs = some (charsUnits (folded blank cs)) := by
  have hmarks : (cs.any fun c => c = '\x7b' || c = '\x7d' || c = '<' || c = '>') = false := by
    rw [List.any_eq_false]
    intro c hc hmark
    simp only [Bool.or_eq_true, decide_eq_true_eq] at hmark
    rcases hmark with ((rfl | rfl) | rfl) | rfl <;> exact h.marks _ (by simp) hc
  have hamp : '&' ∉ folded blank cs := by
    intro hamp
    rcases mem_folded hamp with hblank | ⟨-, hamp⟩
    · cases hblank
    · exact h.marks _ (by simp) hamp
  rw [childValue?, Text.cut?_eq_none (h.marks _ (by simp))]
  simp only [textValue?, hmarks]
  exact decode?_eq_iff.2 (not_holdsReference hamp)

/-- A plain text is read as it is exactly if it has no carriage return. -/
theorem IsPlain.childValue_iff (h : IsPlain cs) :
    childValue? names blank cs = some (charsUnits cs) ↔ '\r' ∉ cs := by
  rw [h.childValue, Option.some.injEq, charsUnits_injective.eq_iff]
  constructor
  · intro hfolded hreturn
    rw [← hfolded] at hreturn
    rcases mem_folded hreturn with hblank | ⟨hbreak, -⟩
    · cases hblank
    · cases hbreak
  · intro hreturn
    refine folded_line fun c hc => ?_
    rw [isBreak, Bool.or_eq_false_iff, decide_eq_false_iff_not, decide_eq_false_iff_not]
    constructor
    · rintro rfl
      exact h.marks _ (by simp) hc
    · rintro rfl
      exact hreturn hc

/-- A literal in braces is read as its value. -/
theorem childValue_literal {code : List Char} {units : List Nat}
    (h : ∀ rest, literal? (code ++ rest) = some (units, rest)) :
    childValue? names blank ('\x7b' :: (code ++ ['\x7d'])) = some units := by
  have hnone : textValue? names blank [] = some [] := rfl
  simp [childValue?, Text.cut?, h, hnone]

end Maquette.Reader

namespace Maquette.Markup

open Reader
open Script (codeUnits literal? literal?_jsonText)

/-- Exactly the plain texts are written as they are. -/
theorem needsExpression_eq_false (s : String) : needsExpression s = false ↔ IsPlain s.toList := by
  rw [needsExpression, Bool.or_eq_false_iff, bne_eq_false_iff_eq, Text.trim_eq_self_iff, List.any_eq_false]
  constructor
  · rintro ⟨hmarks, hfront, hback⟩
    refine ⟨fun c hc hmem => hmarks c hmem ?_, hfront, hback⟩
    simp only [List.mem_cons, List.not_mem_nil, or_false] at hc
    rcases hc with rfl | rfl | rfl | rfl | rfl | rfl <;> rfl
  · intro h
    refine ⟨fun c hc hmark => ?_, h.front, h.back⟩
    simp only [Bool.or_eq_true, decide_eq_true_eq] at hmark
    rcases hmark with ((((rfl | rfl) | rfl) | rfl) | rfl) | rfl <;> exact h.marks _ (by simp) hc

theorem textCode_plain {s : String} (h : IsPlain s.toList) : (textCode s).text = s := by
  rw [textCode, (needsExpression_eq_false s).2 h]
  split
  · rename_i hempty
    rw [String.isEmpty_iff.1 hempty]
    rfl
  · simp [Code.text, Piece.text]

theorem toList_textCode {s : String} (h : ¬ IsPlain s.toList) :
    (textCode s).text.toList = '\x7b' :: ((jsonText s).toList ++ ['\x7d']) := by
  have hexpr : needsExpression s = true := by
    rw [← Bool.not_eq_false, needsExpression_eq_false]
    exact h
  have hempty : ¬ s.isEmpty = true := by
    intro hempty
    rw [String.isEmpty_iff.1 hempty] at hexpr
    cases hexpr
  rw [textCode, if_neg hempty, if_pos hexpr, Code.toList_braced]
  simp [Code.text, Piece.text]

/-- The text of an element is written as a literal of its value in braces, or as it is with nothing in it
that is read as something else; whatever a reader takes for white space at the ends of lines, it is read
as the text exactly unless it is written as it is and has a carriage return. -/
theorem textCode_rendered (names : List (List Char × Char)) (blank : Char → Bool) (s : String) :
    ((textCode s).text.toList = '\x7b' :: ((jsonText s).toList ++ ['\x7d']) ∧
          literal? (jsonText s).toList = some (codeUnits s, []) ∨
        (textCode s).text = s ∧ IsPlain s.toList) ∧
      (childValue? names blank (textCode s).text.toList = some (codeUnits s) ↔
        ¬ (IsPlain s.toList ∧ '\r' ∈ s.toList)) := by
  by_cases hs : IsPlain s.toList
  · refine ⟨.inr ⟨textCode_plain hs, hs⟩, ?_⟩
    rw [textCode_plain hs, not_and, forall_prop_of_true hs]
    exact hs.childValue_iff
  · have hliteral := literal?_jsonText s []
    rw [List.append_nil] at hliteral
    refine ⟨.inl ⟨toList_textCode hs, hliteral⟩, ?_⟩
    rw [toList_textCode hs]
    exact iff_of_true (childValue_literal (literal?_jsonText s)) fun h => hs h.1

/-- A carriage return between two letters is read as a blank. -/
theorem return_not_rendered :
    ¬ ∀ s : String, childValue? Script.namedEntities Text.isBlank (textCode s).text.toList =
      some (codeUnits s) := by
  intro h
  have hread : childValue? Script.namedEntities Text.isBlank (textCode "a\rb").text.toList =
      some (codeUnits "a b") := by
    decide +kernel
  have hkept := (h "a\rb").symm.trans hread
  exact absurd (Script.codeUnits_injective (Option.some.inj hkept)) (by decide)

end Maquette.Markup
