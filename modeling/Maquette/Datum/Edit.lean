/-
Edits inside a document: a path of field names and positions leads to a record or a list, and its
last step says which member is set, inserted or removed. A position below zero counts from the end.
-/
import Maquette.Datum.Access

namespace Maquette.Datum

/-! ## Steps -/

/-- A position in a list of a given length. -/
def position (length : Nat) (i : Int) : Option Nat :=
  let i := if i < 0 then i + length else i
  if 0 ≤ i ∧ i < length then some i.toNat else none

/-- The position that a step means in a list that has to have it. -/
def positionOf (items : List Datum) (step : Datum) : Outcome Nat :=
  match step.number? with
  | some (.int i) =>
    match position items.length i with
    | some i => .ok i
    | none => .error .noItem
  | _ => .error .wrongKind

/-- The name of the field that a step means. -/
def nameOf (step : Datum) : Outcome String := do return (← step.asKey).shown

/-- Where an item inserted at a position goes: one beyond either end goes there. -/
def insertionPoint (length : Nat) (i : Int) : Nat :=
  let i := if i < 0 then i + length else i
  min i.toNat length

/-! ## Edits -/

/-- What is done to the member that the last step leads to. -/
inductive Edit where
  | set (value : Datum)
  | insert (value : Datum)
  | remove

/-- The field that a step leads to; only a text is the name of one. -/
def fieldAt (fields : List (String × Datum)) (step : Datum) : Outcome (String × Datum) := do
  match ← step.asKey with
  | .text name =>
    match fields.lookup name with
    | some v => return (name, v)
    | none => throw (.missing step.quoted)
  | _ => throw (.missing step.quoted)

/-- The characters of a text. -/
def characters (s : String) : List Datum := s.toList.map fun c => .text c.toString

/-- Carries out an edit of a member. -/
def Edit.apply (edit : Edit) (d step : Datum) : Outcome Datum := do
  match edit, d with
  | .set v, .record fields => return .record (Table.set fields (← nameOf step) v)
  | .set v, .list items => return .list (items.set (← positionOf items step) v)
  | .insert v, .list items =>
    match step.number? with
    | some (.int i) => return .list (items.insertIdx (insertionPoint items.length i) v)
    | _ => throw .wrongKind
  | .insert _, _ => throw .noMember
  | .remove, .record fields =>
    let (name, _) ← fieldAt fields step
    return .record (Table.erase fields name)
  | .remove, .list items => return .list (items.eraseIdx (← positionOf items step))
  | _, _ => throw .wrongKind

/-- Carries out an edit where a path leads to. -/
def edit (e : Edit) : List Datum → Datum → Outcome Datum
  | [], _ => throw .noItem
  | [step], d => e.apply d step
  | step :: rest, d => do
    match d with
    | .record fields =>
      let (name, v) ← fieldAt fields step
      return .record (Table.set fields name (← edit e rest v))
    | .list items =>
      let i ← positionOf items step
      return .list (items.set i (← edit e rest (items[i]?.getD .null)))
    | .text s =>
      let i ← positionOf (characters s) step
      edit e rest ((characters s)[i]?.getD .null)
    | _ => throw .wrongKind

end Maquette.Datum
