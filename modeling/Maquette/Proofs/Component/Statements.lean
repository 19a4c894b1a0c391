/-
What a rule adds to the handler of its event, as text: the statement of its action, and in front of it
the condition that the rule gives, in terms of the event.

Different statements have different texts, whatever conditions and targets they are made of: a text can
only end with the text of another change if a literal holds the quotation mark that opens the other one's
literal, and within a literal such a mark stands behind a backslash.
-/
import Maquette.Component.Behavior
import Maquette.Proofs.Datum
import Maquette.Proofs.Markup.Printed
import Maquette.Proofs.Script.Value

namespace Maquette.Component

open Markup (Code Piece)
open Script (flatMap_literalChar_injective getLast?_of_odd_slashes literal literalChar odd_slashes
  toList_literal)

/-! ## Changes -/

namespace Change

theorem text_setState (target : String) :
    (setState target).code.text = "setInteractionState(" ++ literal target ++ ");" := by
  refine String.toList_injective ?_
  simp [code, Code.toList_text, Piece.text]

theorem toList_setState (target : String) : (setState target).code.text.toList =
    "setInteractionState".toList ++ ['('] ++ '\'' :: target.toList.flatMap literalChar ++ ['\'', ')', ';'] := by
  rw [text_setState, String.toList_append, String.toList_append, toList_literal]
  simp

/-- What a text ends with that opens or closes something. -/
theorem toList_setOpen (value : Bool) :
    ∃ front, (setOpen value).code.text.toList = front ++ ['e', ')', ';'] := by
  cases value
  · exact ⟨"setIsOpen(fals".toList, rfl⟩
  · exact ⟨"setIsOpen(tru".toList, rfl⟩

/-- A text that sets a state ends with no shorter text that sets a state: the quotation mark before the
target would stand within a literal, right behind a bracket. -/
theorem setState_ends {s t : String} {front : List Char}
    (h : front ++ (setState s).code.text.toList = (setState t).code.text.toList) : front = [] ∧ s = t := by
  rw [toList_setState, toList_setState, ← List.append_assoc] at h
  have hmarked := List.append_cancel_right h
  simp only [← List.append_assoc] at hmarked
  have hnil : front = [] := by
    rcases List.append_eq_append_iff.1 hmarked with ⟨inner, hopening, -⟩ | ⟨inner, hopening, hrest⟩
    · have hlength := congrArg List.length hopening
      simp only [List.length_append] at hlength
      exact List.length_eq_zero_iff.1 (by omega)
    · rcases inner with _ | ⟨quote, before⟩
      · rw [List.append_nil] at hopening
        simpa using hopening
      · obtain ⟨rfl, hliteral⟩ := List.cons.inj hrest
        have hlast := getLast?_of_odd_slashes (odd_slashes hliteral)
        have hends := congrArg List.getLast? hopening
        simp [hlast, List.getLast?_append, List.getLast?_cons] at hends
  subst hnil
  have htexts := List.append_cancel_left hmarked
  exact ⟨rfl, String.toList_injective (flatMap_literalChar_injective (List.cons.inj htexts).2)⟩

/-- No text of a change ends with the text of another one. -/
theorem ends {c d : Change} {front : List Char}
    (h : front ++ c.code.text.toList = d.code.text.toList) : front = [] ∧ c = d := by
  cases c with
  | setState s =>
    cases d with
    | setState t =>
      obtain ⟨hfront, rfl⟩ := setState_ends h
      exact ⟨hfront, rfl⟩
    | setOpen value =>
      obtain ⟨opening, hvalue⟩ := toList_setOpen value
      rw [toList_setState, hvalue, ← List.append_assoc] at h
      cases (List.append_inj' h rfl).2
  | setOpen value =>
    cases d with
    | setState t =>
      obtain ⟨opening, hvalue⟩ := toList_setOpen value
      rw [toList_setState, hvalue, ← List.append_assoc] at h
      cases (List.append_inj' h rfl).2
    | setOpen value' =>
      have hsuffix : (setOpen value).code.text.toList <:+ (setOpen value').code.text.toList := ⟨front, h⟩
      obtain rfl : value = value' := by
        revert hsuffix
        cases value <;> cases value' <;> decide
      exact ⟨List.append_left_eq_self.1 h, rfl⟩

end Change

/-! ## Statements -/

theorem Statement.text_some (change : Change) (condition : String) :
    (Statement.mk change (some condition)).code.text =
      "if (" ++ condition ++ ") " ++ change.code.text := by
  refine String.toList_injective ?_
  simp [code, Code.toList_text, Piece.text]

/-- What stands in front of the change of a statement. -/
def Statement.front (s : Statement) : List Char :=
  match s.condition with
  | none => []
  | some c => "if (".toList ++ c.toList ++ ") ".toList

theorem Statement.toList_code (s : Statement) :
    s.code.text.toList = s.front ++ s.change.code.text.toList := by
  obtain ⟨change, _ | condition⟩ := s
  · rfl
  · rw [text_some, String.toList_append, String.toList_append, String.toList_append]
    rfl

theorem Statement.condition_of_front {s t : Statement} (h : s.front = t.front) :
    s.condition = t.condition := by
  unfold front at h
  rcases hs : s.condition with _ | c <;> rcases ht : t.condition with _ | d <;> rw [hs, ht] at h
  · simp at h
  · simp at h
  · have hmiddle := List.append_cancel_left (List.append_cancel_right h)
    rw [String.toList_injective hmiddle]

/-- Different statements have different texts. -/
theorem Statement.text_injective : Function.Injective fun s : Statement => s.code.text := by
  intro s t h
  have hlists : s.front ++ s.change.code.text.toList = t.front ++ t.change.code.text.toList := by
    rw [← toList_code, ← toList_code]
    exact congrArg String.toList h
  have hparts : s.front = t.front ∧ s.change = t.change := by
    rcases List.append_eq_append_iff.1 hlists with ⟨rest, hfront, hchange⟩ | ⟨rest, hfront, hchange⟩
    · obtain ⟨rfl, hsame⟩ := Change.ends hchange.symm
      exact ⟨by rw [hfront, List.append_nil], hsame.symm⟩
    · obtain ⟨rfl, hsame⟩ := Change.ends hchange.symm
      exact ⟨by rw [hfront, List.append_nil], hsame⟩
  obtain ⟨change, condition⟩ := s
  obtain ⟨change', condition'⟩ := t
  obtain rfl : change = change' := hparts.2
  obtain rfl : condition = condition' := condition_of_front hparts.1
  rfl

/-! ## Rules -/

/-- The statement that the action of a rule asks for; states are only set when there are several. -/
inductive Asks (several : Bool) (rule : RuleSpec) : String → Prop
  | setState : several = true → rule.action = .text "setState" →
      Asks several rule ("setInteractionState(" ++ literal rule.target.shown ++ ");")
  | opening : rule.action = .text "open" → Asks several rule "setIsOpen(true);"
  | closing : rule.action = .text "close" → Asks several rule "setIsOpen(false);"

/-- The conditions that are told in terms of the event. -/
def eventConditions : List (String × String) :=
  [("!isMouseInside", "!event.currentTarget.contains(event.relatedTarget as Node | null)")]

/-- What a rule adds to the handler of its event: the statement that it asks for, under its condition if
it gives one. -/
inductive Adds (several : Bool) (rule : RuleSpec) : String → Prop
  | always {statement : String} : Asks several rule statement → rule.condition.isTruthy = false →
      Adds several rule statement
  | under {statement : String} : Asks several rule statement → rule.condition.isTruthy = true →
      Adds several rule ("if (" ++
        (eventConditions.lookup rule.condition.shown).getD rule.condition.shown ++ ") " ++ statement)

section Rules

variable {several : Bool} {rule : RuleSpec}

theorem eventCondition_eq (c : String) : eventCondition c = (eventConditions.lookup c).getD c := by
  unfold eventCondition eventConditions
  rw [List.lookup_cons, List.lookup_nil]
  cases c == "!isMouseInside" <;> rfl

/-- A rule changes what its action asks for. -/
theorem asks_iff {statement : String} : Asks several rule statement ↔
    ∃ change, Change.ofRule? several rule = some change ∧ change.code.text = statement := by
  unfold Change.ofRule?
  constructor
  · rintro (⟨rfl, haction⟩ | haction | haction)
    · exact ⟨_, by rw [haction]; rfl, Change.text_setState _⟩
    · exact ⟨_, by rw [haction]; rfl, rfl⟩
    · exact ⟨_, by rw [haction]; rfl, rfl⟩
  · rintro ⟨change, hchange, rfl⟩
    split at hchange
    · rename_i haction
      split at hchange
      · rename_i hseveral
        cases hchange
        rw [Change.text_setState]
        exact .setState hseveral (Datum.isThe_iff.1 haction)
      · cases hchange
    · split at hchange
      · rename_i haction
        cases hchange
        exact .opening (Datum.isThe_iff.1 haction)
      · split at hchange
        · rename_i haction
          cases hchange
          exact .closing (Datum.isThe_iff.1 haction)
        · cases hchange

theorem conditionOf_iff {condition : Option String} : conditionOf rule = .ok condition ↔
    rule.condition.isTruthy = false ∧ condition = none ∨
      rule.condition.isTruthy = true ∧ rule.condition.isKey = true ∧
        condition = some (eventCondition rule.condition.shown) := by
  unfold conditionOf
  cases rule.condition.isTruthy with
  | false =>
    simp only [Bool.false_eq_true, if_false, Except.ok.injEq, true_and, false_and, or_false]
    exact eq_comm
  | true =>
    cases hkey : rule.condition.isKey with
    | false => simp [Datum.asKey, hkey]
    | true =>
      simp only [Datum.asKey_eq hkey, if_true, Outcome.ok_bind, Outcome.pure_eq, Except.ok.injEq,
        reduceCtorEq, true_and, false_and, false_or]
      exact eq_comm

/-- What a rule is read as is what it adds. -/
theorem adds_iff {added : Option Statement} (h : Statement.ofRule? several rule = .ok added)
    (text : String) : added.map (·.code.text) = some text ↔ Adds several rule text := by
  unfold Statement.ofRule? at h
  split at h
  · rename_i change hchange
    have hasks : ∀ {statement}, Asks several rule statement ↔ change.code.text = statement := by
      intro statement
      rw [asks_iff, hchange]
      simp
    obtain ⟨condition, hcondition, h⟩ := Outcome.bind_ok h
    cases h
    rw [Option.map_some, Option.some.injEq]
    rcases conditionOf_iff.1 hcondition with ⟨hfalsy, rfl⟩ | ⟨htruthy, -, rfl⟩
    · constructor
      · rintro rfl
        exact .always (hasks.2 rfl) hfalsy
      · rintro (⟨hstatement, -⟩ | ⟨-, htruthy⟩)
        · exact hasks.1 hstatement
        · rw [hfalsy] at htruthy
          cases htruthy
    · rw [Statement.text_some, eventCondition_eq]
      constructor
      · rintro rfl
        exact .under (hasks.2 rfl) htruthy
      · rintro (⟨-, hfalsy⟩ | ⟨hstatement, -⟩)
        · rw [htruthy] at hfalsy
          cases hfalsy
        · rw [hasks.1 hstatement]
  · rename_i hnone
    cases h
    have hasks : ∀ statement, ¬ Asks several rule statement := by
      intro statement
      rw [asks_iff, hnone]
      simp
    refine iff_of_false (by simp) ?_
    rintro (⟨hstatement, -⟩ | ⟨hstatement, -⟩)
    · exact hasks _ hstatement
    · exact hasks _ hstatement

/-- A rule can be read unless it asks for a statement under a condition that is no key. -/
theorem ofRule?_ok_iff : (∃ added, Statement.ofRule? several rule = .ok added) ↔
    ((∃ statement, Asks several rule statement) → rule.condition.isTruthy = true →
      rule.condition.isKey = true) := by
  unfold Statement.ofRule?
  split
  · rename_i change hchange
    have hasks : ∃ statement, Asks several rule statement := ⟨_, asks_iff.2 ⟨change, hchange, rfl⟩⟩
    rw [forall_prop_of_true hasks]
    constructor
    · rintro ⟨added, hadded⟩ htruthy
      obtain ⟨condition, hcondition, -⟩ := Outcome.bind_ok hadded
      rcases conditionOf_iff.1 hcondition with ⟨hfalsy, -⟩ | ⟨-, hkey, -⟩
      · rw [hfalsy] at htruthy
        cases htruthy
      · exact hkey
    · intro hkey
      obtain ⟨condition, hcondition⟩ : ∃ condition, conditionOf rule = .ok condition := by
        cases htruthy : rule.condition.isTruthy with
        | false => exact ⟨_, conditionOf_iff.2 (.inl ⟨htruthy, rfl⟩)⟩
        | true => exact ⟨_, conditionOf_iff.2 (.inr ⟨htruthy, hkey htruthy, rfl⟩)⟩
      exact ⟨some ⟨change, condition⟩, by rw [hcondition]; rfl⟩
  · rename_i hnone
    refine iff_of_true ⟨none, rfl⟩ ?_
    rintro ⟨statement, hstatement⟩
    obtain ⟨change, hchange, -⟩ := asks_iff.1 hstatement
    rw [hnone] at hchange
    cases hchange

end Rules

end Maquette.Component
