/-
The stories of a component: the default one, one per kind of variant, one about its accessibility,
and one per state. Every story has a name of its own.
-/
import Maquette.Component.Parameter
import Maquette.Markup.Code

namespace Maquette.Story

open Component (Blueprint Parameter VariantSpec)

/-! ## Variants -/

/-- How many kinds of variants are shown. -/
def maxVariants : Nat := 10

/-- The names of a variant's properties, sorted. -/
def signature (v : VariantSpec) : List String := v.keys.mergeSort fun a b => a ≤ b

/-- The first variants of each signature that was not seen, as many as there is room for. -/
def firstOfEach : Nat → List (List String) → List Datum → Outcome (List VariantSpec)
  | 0, _, _ => .ok []
  | _, _, [] => .ok []
  | room + 1, seen, d :: rest => do
    let v ← VariantSpec.read d
    if seen.contains (signature v) then firstOfEach (room + 1) seen rest
    else return v :: (← firstOfEach room (signature v :: seen) rest)

/-- The variants of an outline that are shown. -/
def groups (outline : Datum) : Outcome (List VariantSpec) := do
  firstOfEach maxVariants [] (← outline.itemsOf "variants")

/-! ## Stories -/

/-- A story: its name, the arguments it passes, and what it tells. -/
structure Entry where
  name : String
  arguments : List String
  description : String
  extra : List String

def argument (s : String) : String := Script.indent 2 ++ s ++ ","

def Entry.lines (e : Entry) : List String :=
  ["export const " ++ e.name ++ ": Story = \x7b", "  args: \x7b"] ++ e.arguments ++
    ["  \x7d,", "  parameters: \x7b"] ++ e.extra ++
    ["    docs: \x7b description: \x7b story: " ++ Script.literal e.description ++ " \x7d \x7d,",
     "  \x7d,", "\x7d;", ""]

/-- The parameter that takes a component's text. -/
def contentName (ps : List Parameter) : Outcome String :=
  return ((← Component.labelParameter? ps).map (·.name)).getD "children"

/-- What the stories of a component have in common: its name, its parameters and the one of them
that takes its text. -/
structure Subject where
  name : String
  parameters : List Parameter
  content : String

/-- The argument that gives a component its text. -/
def Subject.contentArgument (s : Subject) (text : String) : String :=
  argument (s.content ++ ": " ++ Script.literal text)

/-- An entry under the first free name, and the names taken from then on. -/
def reserve (used : List String) (wish : String) (entry : String → Entry) :
    Entry × List String :=
  let name := Naming.unique wish used
  (entry name, used ++ [name])

/-! ## Kinds of stories -/

def defaultEntry (s : Subject) : Entry :=
  ⟨"Default", [s.contentArgument s.name], "Default " ++ s.name ++ ".", []⟩

/-- The greatest length of the name that a variant's values make. -/
def maxName : Nat := 30

/-- The name that a variant's story wishes for. -/
def variantWish (label : String) (number : Nat) : String :=
  if label.toList.any Text.isAlphanumeric then
    String.ofList ((Naming.pascal "Variant" (.ofString label)).toList.take maxName)
  else "Variant" ++ toString number

/-- The parameter of a property of variants. -/
def variantName? (ps : List Parameter) (key : String) : Option String :=
  (Component.parameter? ps .variant key).map (·.name)

/-- The arguments that make a variant. -/
def variantArguments (ps : List Parameter) (v : VariantSpec) : List String :=
  v.properties.filterMap fun (key, value) => (variantName? ps key).map fun name =>
    argument (name ++ ": " ++ Script.literal value.shown)

def variantEntry (s : Subject) (v : VariantSpec) (story : String) : Entry :=
  let summary := ", ".intercalate (v.properties.map fun (key, value) =>
    key ++ "=\"" ++ value.shown ++ "\"")
  ⟨story, variantArguments s.parameters v ++ [s.contentArgument (s.name ++ " " ++ story)],
    s.name ++ " with " ++ summary ++ ".", []⟩

def variantEntries (s : Subject) :
    Nat → List String → List VariantSpec → Outcome (List Entry × List String)
  | _, used, [] => .ok ([], used)
  | number, used, v :: rest => do
    let (entry, used) := reserve used (variantWish (← v.label) number) (variantEntry s v)
    let (entries, used) ← variantEntries s (number + 1) used rest
    return (entry :: entries, used)

/-- The story about accessibility, if the component has any attributes to show. -/
def accessibilityEntry (s : Subject) (b : Blueprint) (used : List String) :
    Outcome (List Entry × List String) := do
  let label := b.ariaOf "ariaLabel"
  if label.isNone && (b.ariaOf "ariaLabelledBy").isNone then return ([], used)
  let labelled ← match label with
    | some value =>
      if Component.hasParameter s.parameters "ariaLabel" then
        pure [argument ("'aria-label': " ++ (← Markup.Piece.ofDatum value).text)]
      else pure []
    | none => pure []
  let (entry, used) := reserve used "AccessibilityExample" fun story =>
    ⟨story, [s.contentArgument ("Accessible " ++ s.name)] ++ labelled,
      s.name ++ " with accessibility attributes.", []⟩
  return ([entry], used)

/-- The classes of the browser that stand for states. -/
def pseudoStates : List (String × String) :=
  [("hover", "hover"), ("pressed", "active"), ("focus", "focus")]

def stateEntry (s : Subject) (state story : String) : Entry :=
  let disabled :=
    if state == "disabled" && Component.hasParameter s.parameters "disabled" then
      [argument "disabled: true"]
    else []
  let pseudo := (pseudoStates.lookup state).toList.map fun p =>
    argument ("pseudo: \x7b " ++ p ++ ": true \x7d")
  ⟨story, [s.contentArgument (s.name ++ " (" ++ state ++ ")")] ++ disabled,
    s.name ++ " in " ++ state ++ " state.", pseudo⟩

def stateEntries (s : Subject) : List String → List Datum → Outcome (List Entry)
  | _, [] => .ok []
  | used, state :: rest => do
    let state ← state.asKey
    let wish := Naming.pascal "State" (← Pieces.ofDatum state)
    let (entry, used) := reserve used wish (stateEntry s state.shown)
    return entry :: (← stateEntries s used rest)

/-- All stories in order. -/
def entries (s : Subject) (b : Blueprint) : Outcome (List Entry) := do
  let shown ← groups b.outline
  let (variants, used) ← variantEntries s 1 ["Default", "meta"] shown
  let (accessible, used) ← accessibilityEntry s b used
  let states ← stateEntries s used ((b.states.map (·.name)).filter (!·.isThe "default"))
  return [defaultEntry s] ++ variants ++ accessible ++ states

/-! ## The file -/

/-- The accessibility rules that a component has to keep. -/
def accessibilityRules (b : Blueprint) : List String :=
  (if (b.ariaOf "ariaLabel").isSome then ["aria-label"] else []) ++
    (if (b.ariaOf "ariaLabelledBy").isSome then ["aria-labelledby"] else []) ++
    if b.category.isOneOf ["button", "iconButton"] then ["button-name"] else []

/-- How the values of variants can be chosen. -/
def argumentTypes (ps : List Parameter) : List String :=
  let variants := Component.parametersOf ps .variant
  if variants.isEmpty then []
  else
    ["  argTypes: \x7b"] ++
      (variants.map fun p =>
        let options := ", ".intercalate (p.values.map (Script.literal ·.shown))
        argument (p.name ++ ": \x7b control: 'select', options: [" ++ options ++ "] \x7d")) ++
      ["  \x7d,"]

/-- What stands in front of the stories. -/
def header (name : String) (b : Blueprint) (ps : List Parameter) : List String :=
  let about := Script.literal (name ++ " component generated from Figma.")
  ["import type \x7b Meta, StoryObj \x7d from '@storybook/react';",
   "import \x7b " ++ name ++ " \x7d from './" ++ name ++ "';",
   "",
   "const meta: Meta<typeof " ++ name ++ "> = \x7b",
   "  title: " ++ Script.literal ("Components/" ++ name) ++ ",",
   "  component: " ++ name ++ ",",
   "  tags: ['autodocs'],",
   "  parameters: \x7b",
   "    docs: \x7b description: \x7b component: " ++ about ++ " \x7d \x7d,",
   "    a11y: \x7b",
   "      config: \x7b",
   "        rules: ["] ++
  ((accessibilityRules b).map fun rule =>
    Script.indent 5 ++ "\x7b id: " ++ Script.literal rule ++ ", enabled: true \x7d,") ++
  ["        ],", "      \x7d,", "    \x7d,", "  \x7d,"] ++ argumentTypes ps ++
  ["\x7d;", "", "export default meta;", "type Story = StoryObj<typeof " ++ name ++ ">;", ""]

/-- The stories of a component. -/
def text (name : String) (b : Blueprint) (ps : List Parameter) : Outcome String := do
  let entries ← entries ⟨name, ps, ← contentName ps⟩ b
  return Text.lines (header name b ps ++ entries.flatMap Entry.lines)

end Maquette.Story
