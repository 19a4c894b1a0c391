/-
Design variables and their aliases. A variable has a value per mode; a value may be an alias of
another variable, read in the mode that this variable has for it. A chain of aliases is followed
through distinct variables up to a given length; one that is too long, comes back or leads nowhere
leaves the alias it began with.
-/
import Maquette.Color
import Maquette.Notice

namespace Maquette.Token

/-! ## Tables -/

/-- The variables of a design by their ids. -/
abbrev Variables := Table Datum Datum

/-- The collections that variables belong to, by their ids. What is no table is met when a
collection is looked up in it. -/
abbrev Collections := Outcome (Table Datum Datum)

/-- A table of variables: a record, or a list whose items carry their ids. -/
def variablesOf (d : Datum) : Outcome Variables :=
  if d.isRecord then d.rows else do Datum.byId (← (d.orElse (.list [])).items)

/-- A table of collections that may be absent. -/
def collectionsOf (d : Datum) : Collections := (d.orElse .empty).rows

/-- The variable with an id; a null entry is none. -/
def lookup (vars : Variables) (id : Datum) : Outcome (Option Datum) := do
  return (List.lookup (← id.asKey) vars).filter (!·.isNull)

/-- The values of a variable by mode. -/
def valuesOf (var : Datum) : Outcome (List (String × Datum)) := do
  ((← var.get "valuesByMode").orElse .empty).fields

/-- The collection that a variable belongs to, empty when there is none. -/
def collectionOf (collections : Collections) (var : Datum) : Outcome Datum := do
  let table ← collections
  return (table.lookup (← (← var.get "variableCollectionId").asKey)).getD .empty

/-! ## Modes -/

/-- The mode in which a variable is read when it is reached in some mode: this mode if it has it,
else its collection's default mode, else its first one, null if it has none. -/
def modeFor (var mode : Datum) (collections : Collections) : Outcome Datum := do
  let values := (← var.get "valuesByMode").orElse .empty
  if ← values.holds mode then return mode
  let preferred ← (← collectionOf collections var).get "defaultModeId"
  if ← values.holds preferred then return preferred
  return (← values.items).headD .null

/-- The value of a variable in a mode, null when it has none. -/
def valueIn (var mode : Datum) : Outcome Datum := do
  let values ← ((← var.get "valuesByMode").orElse .empty).rows
  return (values.lookup (← mode.asKey)).getD .null

/-! ## Aliases -/

/-- Whether a value stands for another variable. -/
def isAlias (d : Datum) : Bool :=
  match d with
  | .record fields => ((fields.lookup "type").getD .null).isThe "VARIABLE_ALIAS"
  | _ => false

/-- The id an alias points at. -/
def aliasTarget (d : Datum) : Datum := (d.at? "id").getD .null

/-- Where a chain of aliases ends, whether that is a value, and the ids it ran through. -/
structure Resolution where
  value : Datum
  resolved : Bool
  chain : List Datum

def Resolution.toDatum (r : Resolution) : Datum :=
  .record [("value", r.value), ("resolved", .bool r.resolved), ("chain", .list r.chain)]

/-- A chain to be followed: its first variable and mode, the alias found there, the tables, and how
many hops are allowed. -/
structure Quest where
  start : Datum
  mode : Datum
  marker : Datum
  vars : Variables
  collections : Collections
  maxDepth : Datum

/-- A number of hops as it is reported, a fraction cut off; an infinite one cannot be. -/
def hops : Number → Outcome Int
  | .int n => .ok n
  | .float x =>
    match Decimal.truncate? x with
    | some n => .ok n
    | none => .error .tooLarge

/-- The ids of a chain as they are reported, all of which have to be texts. -/
def idTexts (chain : List Datum) : Outcome (List String) :=
  chain.mapM fun d => match d with
    | .text s => .ok s
    | _ => .error .wrongKind

/-- Follows a chain from its last value; `fresh` are the variables it has not run through yet. -/
def Quest.follow (q : Quest) (fresh chain : List Datum) (mode value : Datum) : Run Resolution := do
  if !isAlias value then return ⟨value, true, chain⟩
  let target := aliasTarget value
  let limit ← q.maxDepth.number
  if limit.le (.int ((chain.length : Int) - 1)) then
    let ids ← idTexts chain
    Run.note (.longChain q.start.shown q.mode.shown (← hops limit) ids)
    return ⟨q.marker, false, chain⟩
  let found ← lookup q.vars target
  if chain.contains target then
    let ids ← idTexts chain
    Run.note (.aliasCycle q.start.shown q.mode.shown (ids ++ [target.shown]))
    return ⟨q.marker, false, chain ++ [target]⟩
  match found with
  | none =>
    Run.note (.danglingAlias target.shown q.start.shown q.mode.shown)
    return ⟨q.marker, false, chain ++ [target]⟩
  | some var =>
    if _h : fresh.any (· == target) then
      let next ← modeFor var mode q.collections
      let value ← valueIn var next
      q.follow (fresh.eraseP (· == target)) (chain ++ [target]) next value
    else return ⟨q.marker, false, chain ++ [target]⟩
termination_by fresh.length
decreasing_by
  obtain ⟨id, member, _⟩ := List.any_eq_true.mp _h
  have := List.length_pos_of_mem member
  rw [List.length_eraseP, if_pos _h]
  omega

/-- The value of a variable in a mode, aliases followed. -/
def resolve (vars : Variables) (collections : Collections) (maxDepth id mode : Datum) :
    Run Resolution := do
  match ← lookup vars id with
  | none =>
    Run.note (.unknownVariable id.shown)
    return ⟨.null, false, [id]⟩
  | some var =>
    let marker ← valueIn var mode
    let fresh := (vars.map (·.1)).eraseP (· == id)
    Quest.follow ⟨id, mode, marker, vars, collections, maxDepth⟩ fresh [id] mode marker

/-- How many hops are followed if nothing else is said. -/
def defaultMaxDepth : Datum := .int 10

end Maquette.Token
