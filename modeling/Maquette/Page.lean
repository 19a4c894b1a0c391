/-
The page that documents a component: how it is used, its variants and parameters, the tokens of its
design, its accessibility, and its states.
-/
import Maquette.Component.Parameter
import Maquette.Story

namespace Maquette.Page

open Component (Blueprint Parameter VariantSpec)

/-! ## Cells -/

/-- A text as code in the cell of a table. -/
def code (s : String) : String :=
  "`" ++ Text.substitute (fun c =>
    if c = '`' then ['\''] else if c = '|' then ['\\', '|'] else [c]) s ++ "`"

/-- A text in the cell of a table. -/
def cell (s : String) : String :=
  Text.substitute (fun c =>
    if c = '|' then ['\\', '|'] else if c = '\n' then [' '] else [c]) s

/-- A section: its title, and what stands under it. -/
def chapter (title : String) (body : List String) : List String :=
  ["## " ++ title, ""] ++ body ++ [""]

/-! ## Sections -/

def codeFence : String := "```tsx"

/-- The first slot whose name begins with `label`. -/
def labelSlot? : List Datum → Outcome (Option String)
  | [] => .ok none
  | slot :: rest => do
    let name ← (← slot.need "name").textMember
    if Text.startsWith name "label" then return some name
    labelSlot? rest

def usage (name : String) (label : Option String) : List String :=
  let sample := match label with
    | some label => "<" ++ name ++ " " ++ label ++ "=\"" ++ name ++ "\" />"
    | none => "<" ++ name ++ ">" ++ name ++ "</" ++ name ++ ">"
  chapter "Usage"
    [codeFence, "import \x7b " ++ name ++ " \x7d from './" ++ name ++ "';", "", sample, "```"]

def variant (name : String) (v : VariantSpec) : Outcome (List String) := do
  let values ← v.label
  return ["### " ++ (if values.isEmpty then v.name.shown else values), "", codeFence,
    "<" ++ name] ++
    (v.properties.map fun (key, value) => "  " ++ key ++ "=\"" ++ value.shown ++ "\"") ++
    ["/>", "```", ""]

def variants (name : String) (outline : Datum) : Outcome (List String) := do
  let groups ← Story.groups outline
  let parts ← groups.mapM (variant name)
  return if groups.isEmpty then [] else ["## Variants", ""] ++ parts.flatten

/-- A row about a parameter; the quotes around its name are left out. -/
def parameterRow (p : Parameter) : String :=
  let key := String.ofList (Text.trim (· == '\'') p.key.toList)
  let note := if p.note.isEmpty then "-" else p.note
  s!"| {code key} | {code p.type} | {cell note} |"

def parameters (ps : List Parameter) : List String :=
  chapter "Props"
    (["| Prop | Type | Description |", "|------|------|-------------|"] ++ ps.map parameterRow)

/-- How many tokens are listed. -/
def maxTokens : Nat := 20

/-- The value of a token, or what it is an alias of. -/
def tokenValue (token : Datum) : Outcome String := do
  let value ← token.get "value"
  if !value.isRecord then return value.shown
  let target ← token.fieldOr "aliasOf" (← value.fieldOr "id" (.text "?"))
  return "alias → " ++ target.shown

def tokenRow (token : Datum) : Outcome String := do
  let value ← tokenValue token
  let name ← token.need "name"
  let kind ← token.need "type"
  return s!"| {code name.shown} | {code value} | {kind.shown} |"

def tokens (set : Datum) : Outcome (List String) := do
  let all := (← (set.orElse .empty).get "tokens").orElse (.list [])
  let rows ← (← all.leading maxTokens).mapM tokenRow
  let count ← all.size
  let more :=
    if maxTokens < count then [s!"\n_{count - maxTokens} more tokens not shown._"] else []
  return if rows.isEmpty then []
    else chapter "Design Tokens"
      (["| Token | Value | Type |", "|-------|-------|------|"] ++ rows ++ more)

/-- The accessibility attributes that are listed, with their titles. -/
def ariaTitles : List (String × String) :=
  [("role", "ARIA Role"), ("ariaLabel", "ARIA Label"), ("ariaLabelledBy", "ARIA Labelled By"),
   ("ariaDescribedBy", "ARIA Described By")]

/-- The row of a key. -/
def keyRow (d : Datum) : Outcome String := do
  let key ← d.need "key"
  let action ← d.need "action"
  return s!"| {code key.shown} | {action.shown} |"

def keyRows (keyboard : List Datum) : Outcome (List String) := do
  let rows ← keyboard.mapM keyRow
  return if rows.isEmpty then []
    else ["", "### Keyboard Navigation", "", "| Key | Action |", "|-----|--------|"] ++ rows

def accessibility (b : Blueprint) (keys : List String) : List String :=
  chapter "Accessibility" <|
    (ariaTitles.filterMap fun (key, title) =>
      (b.ariaOf key).map fun d => s!"- **{title}:** {code d.shown}") ++ keys

def stateRow (s : Component.StateSpec) : String :=
  let trigger := if s.trigger.isTruthy then s!" (trigger: {code s.trigger.shown})" else ""
  s!"- **{s.name.shown}**{trigger}"

def states (b : Blueprint) : List String :=
  if b.states.isEmpty then [] else chapter "States" (b.states.map stateRow)

/-! ## The page -/

/-- What the page begins with; `url` is where the design is found. -/
def intro (name : String) (category url : Datum) : List String :=
  ["# " ++ name, "",
   s!"{name} is a React component generated from Figma (archetype: {code category.shown}).", ""] ++
  if url.isTruthy then [s!"**Figma Design:** [View in Figma]({url.shown})", ""] else []

/-- The page of a component of the given name. -/
def text (name : String) (outline set interaction : Datum) : Outcome String := do
  let info := (← outline.get "meta").orElse .empty
  let category ← Component.categoryOf interaction
  let url ← info.get "figmaUrl"
  let label ← labelSlot? (← outline.itemsOf "slots")
  let variants ← variants name outline
  let b ← Blueprint.read outline interaction
  let tokens ← tokens set
  let keys ← keyRows (← b.keyboard)
  return Text.lines
    (intro name category url ++ usage name label ++ variants ++
      parameters (Component.parameters b false) ++ tokens ++ accessibility b keys ++ states b)

end Maquette.Page
