/-
Tokens as a style sheet: every token's default value as a custom property, grouped by kind, and for
every further mode the values that differ.
-/
import Maquette.Css
import Maquette.Token.Match

namespace Maquette.Token

/-! ## Values -/

/-- The names of tokens by the variables they come from. What is no table is met when a name is
looked up in it. -/
abbrev Names := Outcome (Table Datum Datum)

/-- The reference to the property of the token that an alias points at, if it is a known one. -/
def aliasValue (target : Datum) (names : Names) (known : List Datum) : Outcome (Option String) := do
  let table ← names
  let name := (table.lookup (← target.asKey)).getD .null
  if !name.isTruthy then return none
  if known.contains (← name.asKey) then return some (cssVar (← name.textMember)) else return none

/-- A value in a style sheet. An alias is a reference to a known token's property, or nothing. -/
def cssValue (kind : Datum) (value : Datum) (names : Names) (known : List Datum) :
    Outcome (Option String) := do
  if isAlias value then return ← aliasValue (aliasTarget value) names known
  match value with
  | .bool b => return some (if b then "1" else "0")
  | .text s => return some s
  | value =>
    if value.isNumber then
      if (← kind.asKey).isOneOf numericKinds then return some (← value.pixels)
      else return some (← value.plain)
    else return some value.shown

/-- The declaration of a token with a value; an alias without one is only mentioned. -/
def declaration (token value : Datum) (names : Names) (known : List Datum) :
    Run String := do
  let name ← token.need "name"
  let property := "--" ++ normalized (← name.textOrEmpty)
  match ← cssValue (← token.need "type") value names known with
  | some css => return "  " ++ property ++ ": " ++ css ++ ";"
  | none =>
    Run.note (.unresolvedToken name)
    return "  " ++ Css.comment (property ++ ": unresolved alias")

/-! ## The sheet -/

/-- A word with its first letter in capitals. -/
def title (s : String) : String :=
  match s.toList with
  | [] => ""
  | c :: rest => String.ofList (Text.capitalChar c ++ rest)

/-- The tokens of a document. -/
def tokensOf (doc : Datum) : Outcome (List Datum) := do
  ((← (doc.orElse .empty).get "tokens").orElse (.list [])).items

/-- The lines of one kind in the root block. -/
def kindLines (tokens : List Datum) (names : Names) (known : List Datum)
    (kind : String) : Run (List String) := do
  let group ← tokens.filterM fun t => (do return (← t.get "type").isThe kind : Outcome Bool)
  if group.isEmpty then return []
  let lines ← group.mapM fun t => do declaration t (← t.get "value") names known
  return ["  " ++ Css.comment (title kind ++ " tokens")] ++ lines

/-- The value of a token in a mode, if it differs from its default value. -/
def override? (token : Datum) (mode : String) : Outcome (Option Datum) := do
  let modes := (← token.get "modes").orElse .empty
  if !(← modes.holds (.text mode)) then return none
  let value ← modes.need mode
  return if value.equals (← token.get "value") then none else some value

/-- The block of one mode, if any token differs in it. -/
def modeLines (tokens : List Datum) (names : Names) (known : List Datum)
    (mode : String) : Run (List String) := do
  let overrides ← tokens.filterMapM fun t =>
    (do return (← override? t mode).map (t, ·) : Outcome (Option (Datum × Datum)))
  if overrides.isEmpty then return []
  let lines ← overrides.mapM fun (t, value) => declaration t value names known
  return ["", "[data-theme=\"" ++ mode ++ "\"] \x7b"] ++ lines ++ ["\x7d"]

/-- The names of the tokens by the variables they come from. -/
def namesById (tokens : List Datum) : Outcome (Table Datum Datum) := do
  let rows ← tokens.filterMapM fun t => do
    let id ← t.get "sourceVariableId"
    if !id.isTruthy then return none
    let name ← t.need "name"
    return some (← id.asKey, name)
  return Table.ofRows rows

/-- The style sheet of a document of tokens. -/
def sheet (doc : Datum) : Run String := do
  let tokens ← tokensOf doc
  let names ← namesById tokens
  let known ← tokens.mapM fun t => (do (← t.need "name").asKey : Outcome Datum)
  let names : Names := .ok names
  let root ← kinds.mapM (kindLines tokens names known)
  let modes ← ((← (doc.orElse .empty).get "modeValues").orElse .empty).fields
  let blocks ← modes.mapM fun (mode, _) => modeLines tokens names known mode
  let head := [Css.comment "Design tokens generated from Figma",
    Css.comment ("Token count: " ++ toString tokens.length), "", ":root \x7b"]
  return Text.lines (head ++ root.flatten ++ ["\x7d"] ++ blocks.flatten) ++ "\n"

/-- The reference of every token by its name. -/
def references (doc : Datum) : Outcome (Table Datum Datum) := do
  let rows ← (← tokensOf doc).mapM fun t => do
    let name ← t.need "name"
    let text ← name.textOrEmpty
    return (← name.asKey, Datum.text (cssVar text))
  return Table.ofRows rows

end Maquette.Token
