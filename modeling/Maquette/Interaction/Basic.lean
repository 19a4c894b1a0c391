/-
How a component answers its user: its states, the keys it listens to, and what its events do.
-/
import Maquette.Archetype.Basic

namespace Maquette.Interaction

/-! ## States -/

/-- The selector behind which the style of a state stands. -/
def stateSelector (name : Datum) : String :=
  match name with
  | .text "hover" => ":hover"
  | .text "pressed" => ":active"
  | .text "focus" => ":focus"
  | .text "disabled" => ":disabled"
  | _ => ""

/-- The accessibility attributes that a state switches. -/
def stateAria (a : Archetype) (name : Datum) : List (String × Datum) :=
  match name, a with
  | .text "disabled", _ => [("aria-disabled", .text "true")]
  | .text "focus", .combobox => [("aria-expanded", .text "true")]
  | .text "focus", .select => [("aria-expanded", .text "true")]
  | _, _ => []

def stateDatum (a : Archetype) (name : Datum) : Datum :=
  let attributes := stateAria a name
  .record <|
    [("name", name), ("trigger", .text (stateSelector name)), ("changes", .empty)] ++
    if attributes.isEmpty then [] else [("ariaAttributes", .record attributes)]

/-- The distinct states of an outline in order of appearance, the default state first. -/
def stateNames (outline : Datum) : Outcome (List Datum) := do
  let entries ← outline.itemsOf "stateMapping"
  entries.foldlM (fun names entry => do
    let name ← entry.fieldOr "semanticState" (.text "custom")
    return if names.contains name then names else names ++ [name]) [.text "default"]

/-- The states of an outline. -/
def states (outline : Datum) (a : Archetype) : Outcome (List Datum) := do
  (← stateNames outline).mapM fun name => return stateDatum a (← name.asKey)

/-! ## Keys -/

/-- What a key does. -/
structure KeyBinding where
  key : String
  action : String
  target : Option String
  preventDefault : Bool
  deriving DecidableEq, Repr

def KeyBinding.toDatum (b : KeyBinding) : Datum :=
  .record <|
    [("key", .text b.key), ("action", .text b.action)] ++
    (b.target.map fun t => ("target", .text t)).toList ++
    [("preventDefault", .bool b.preventDefault)]

def activationKeys : List KeyBinding :=
  [⟨"Enter", "activate", none, true⟩, ⟨"Space", "activate", none, true⟩]

def listKeys : List KeyBinding :=
  [⟨"Enter", "open", some "listbox", true⟩, ⟨"Escape", "close", some "listbox", true⟩,
   ⟨"ArrowDown", "selectNext", some "option", true⟩,
   ⟨"ArrowUp", "selectPrevious", some "option", true⟩,
   ⟨"Home", "selectFirst", some "option", true⟩, ⟨"End", "selectLast", some "option", true⟩]

def dialogKeys : List KeyBinding :=
  [⟨"Escape", "close", none, true⟩, ⟨"Tab", "trapFocus", none, false⟩]

def menuKeys : List KeyBinding :=
  [⟨"Escape", "close", none, true⟩, ⟨"ArrowDown", "selectNext", some "menuitem", true⟩,
   ⟨"ArrowUp", "selectPrevious", some "menuitem", true⟩,
   ⟨"Enter", "activate", some "menuitem", true⟩, ⟨"Space", "activate", some "menuitem", true⟩]

def radioKeys : List KeyBinding :=
  [⟨"ArrowDown", "selectNext", none, true⟩, ⟨"ArrowRight", "selectNext", none, true⟩,
   ⟨"ArrowUp", "selectPrevious", none, true⟩, ⟨"ArrowLeft", "selectPrevious", none, true⟩]

def sliderKeys : List KeyBinding :=
  [⟨"ArrowRight", "increase", none, true⟩, ⟨"ArrowUp", "increase", none, true⟩,
   ⟨"ArrowLeft", "decrease", none, true⟩, ⟨"ArrowDown", "decrease", none, true⟩,
   ⟨"Home", "setMin", none, true⟩, ⟨"End", "setMax", none, true⟩]

/-- The keys that an archetype listens to. -/
def keys : Archetype → List KeyBinding
  | .button | .iconButton => activationKeys
  | .link => [⟨"Enter", "activate", none, false⟩]
  | .combobox | .select => listKeys
  | .dialog | .modal => dialogKeys
  | .menu | .dropdown => menuKeys
  | .checkbox => [⟨"Space", "toggle", none, true⟩]
  | .switch => [⟨"Enter", "toggle", none, true⟩, ⟨"Space", "toggle", none, true⟩]
  | .radio => radioKeys
  | .slider => sliderKeys
  | _ => []

/-! ## Rules -/

/-- What an event does. -/
structure Rule where
  trigger : String
  action : String
  target : String
  condition : Option String
  deriving DecidableEq, Repr

def Rule.toDatum (r : Rule) : Datum :=
  .record <|
    [("trigger", .text r.trigger), ("action", .text r.action), ("target", .text r.target)] ++
    (r.condition.map fun c => ("condition", .text c)).toList

/-- The rules that an archetype brings along. -/
def ownRules : Archetype → List Rule
  | .button | .iconButton | .link => [⟨"onClick", "activate", "button", none⟩]
  | .combobox | .select | .menu | .dropdown =>
    [⟨"onFocus", "open", "listbox", none⟩,
     ⟨"onBlur", "close", "listbox", some "!isMouseInside"⟩]
  | .dialog | .modal => [⟨"onOpenChange", "toggle", "dialog", none⟩]
  | _ => []

/-- A state with the events that enter and leave it. -/
def stateEvents : List (String × String × String) :=
  [("hover", "onMouseEnter", "onMouseLeave"), ("pressed", "onMouseDown", "onMouseUp"),
   ("focus", "onFocus", "onBlur")]

/-- The rules that enter and leave the states of the given names. -/
def stateRules (names : List Datum) : List Rule :=
  stateEvents.flatMap fun (state, enter, leave) =>
    if names.any (·.isThe state) then
      [⟨enter, "setState", state, none⟩, ⟨leave, "setState", "default", none⟩]
    else []

/-- The rules of an archetype with the given states. -/
def rules (a : Archetype) (states : List Datum) : Outcome (List Rule) := do
  let names ← states.mapM fun s => do (← s.need "name").asKey
  return ownRules a ++ stateRules names

end Maquette.Interaction
