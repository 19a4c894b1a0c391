/-
Reading loosely typed data: fields, items and texts of values that may turn out to be of another
kind, each with the fault that this is.
-/
import Maquette.Datum.Number

namespace Maquette

/-- A result, or why there is none. -/
abbrev Outcome := Except Fault

namespace Datum

/-! ## Fields -/

/-- The field of a record, if it is there. -/
def field (d : Datum) (key : String) : Outcome (Option Datum) :=
  match d with
  | .record fields => .ok (fields.lookup key)
  | _ => .error .noMember

/-- The field of a record, or a default. -/
def fieldOr (d : Datum) (key : String) (default : Datum) : Outcome Datum :=
  return (← d.field key).getD default

/-- The field of a record, null when it is not there. -/
def get (d : Datum) (key : String) : Outcome Datum := d.fieldOr key .null

/-- A field that has to be there. -/
def need (d : Datum) (key : String) : Outcome Datum :=
  match d with
  | .record fields =>
    match fields.lookup key with
    | some v => .ok v
    | none => .error (.noField key)
  | _ => .error .wrongKind

/-- The fields of a record. -/
def fields (d : Datum) : Outcome (List (String × Datum)) :=
  match d with
  | .record fields => .ok fields
  | _ => .error .noMember

/-! ## Tables -/

/-- The fields of a record by their names. -/
def rows (d : Datum) : Outcome (Table Datum Datum) :=
  return (← d.fields).map fun (k, v) => (.text k, v)

/-- A table as a record, its keys as texts. -/
def ofTable (t : Table Datum Datum) : Datum := .record (t.map fun (k, v) => (k.shown, v))

/-! ## Items -/

/-- What a loop over the value meets: items, field names or characters. -/
def items (d : Datum) : Outcome (List Datum) :=
  match d with
  | .list items => .ok items
  | .record fields => .ok (fields.map fun (k, _) => .text k)
  | .text s => .ok (s.toList.map fun c => .text c.toString)
  | _ => .error .wrongKind

/-- Whether a key is among the fields, a value among the items, or a text within the text. -/
def holds (d : Datum) (key : Datum) : Outcome Bool :=
  match d, key with
  | .record fields, .text s => .ok (Table.hasKey fields s)
  | .record _, key => if key.isKey then .ok false else .error .wrongKind
  | .list items, key => .ok (items.any (key.same ·))
  | .text t, .text s => .ok (Text.has t s)
  | _, _ => .error .wrongKind

/-- How many items, fields or characters a value has. -/
def size (d : Datum) : Outcome Nat := return (← d.items).length

/-- The first items of a list, or characters of a text; other values are not cut. -/
def leading (d : Datum) (n : Nat) : Outcome (List Datum) :=
  match d with
  | .list items => .ok (items.take n)
  | .text s => .ok ((s.toList.take n).map fun c => .text c.toString)
  | _ => .error .wrongKind

/-- The items of a field that may be absent. -/
def itemsOf (d : Datum) (key : String) : Outcome (List Datum) := do
  ((← d.get key).orElse (.list [])).items

/-- The item at a position that the value is long enough for. -/
def nth (d : Datum) (i : Nat) : Outcome Datum :=
  match d with
  | .list items => .ok (items[i]?.getD .null)
  | .text s => .ok (((s.toList)[i]?.map fun c => .text c.toString).getD .null)
  | .record _ => .error (.missing (toString i))
  | _ => .error .wrongKind

/-- Two values out of a value that has to be a pair. -/
def pair (d : Datum) : Outcome (Datum × Datum) := do
  match ← d.items with
  | [a, b] => return (a, b)
  | xs => throw (if xs.length < 2 then .tooFew xs.length else .tooMany)

/-! ## Texts -/

/-- A value that has to be a text because a text's member is used. -/
def textMember (d : Datum) : Outcome String :=
  match d with
  | .text s => .ok s
  | _ => .error .noMember

/-- A text, empty when the value counts as absent. -/
def textOrEmpty (d : Datum) : Outcome String :=
  if d.isTruthy then d.textMember else .ok ""

/-! ## Keys -/

/-- A value that has to be able to serve as a key. -/
def asKey (d : Datum) : Outcome Datum := if d.isKey then .ok d else .error .wrongKind

/-- The records of a list by the ids that they carry; what has no id is left out. -/
def byId (items : List Datum) : Outcome (Table Datum Datum) := do
  let rows ← (items.filter fun d => ((d.at? "id").getD .null).isTruthy).mapM fun d => do
    return (← (← d.need "id").asKey, d)
  return Table.ofRows rows

/-! ## Joined texts -/

/-- Texts of the items, all of which have to be texts. -/
def joinItems (sep : String) (items : List Datum) : Outcome String := do
  return sep.intercalate (← items.mapM fun d => match d with
    | .text s => .ok s
    | _ => .error .wrongKind)

end Datum

end Maquette
