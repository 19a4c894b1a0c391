/-
The kinds of component that a design can stand for, and the two ways to tell them: by a word of the
component's name, or by what its layers are.
-/
import Maquette.Datum.Access

namespace Maquette

/-- What a component is to its user. -/
inductive Archetype where
  | button
  | iconButton
  | input
  | textarea
  | combobox
  | select
  | dialog
  | modal
  | popover
  | tooltip
  | menu
  | dropdown
  | checkbox
  | radio
  | switch
  | slider
  | card
  | badge
  | avatar
  | link
  | text
  | container
  | unknown
  deriving DecidableEq, Repr

namespace Archetype

def all : List Archetype :=
  [button, iconButton, input, textarea, combobox, select, dialog, modal, popover, tooltip, menu,
   dropdown, checkbox, radio, switch, slider, card, badge, avatar, link, text, container, unknown]

def name : Archetype → String
  | button => "button"
  | iconButton => "iconButton"
  | input => "input"
  | textarea => "textarea"
  | combobox => "combobox"
  | select => "select"
  | dialog => "dialog"
  | modal => "modal"
  | popover => "popover"
  | tooltip => "tooltip"
  | menu => "menu"
  | dropdown => "dropdown"
  | checkbox => "checkbox"
  | radio => "radio"
  | switch => "switch"
  | slider => "slider"
  | card => "card"
  | badge => "badge"
  | avatar => "avatar"
  | link => "link"
  | text => "text"
  | container => "container"
  | unknown => "unknown"

def ofName? (s : String) : Option Archetype := all.find? (·.name == s)

/-- The archetype that a value names; anything else is an unknown one. -/
def ofDatum : Datum → Archetype
  | .text s => (ofName? s).getD unknown
  | _ => unknown

/-- Whether a value names an archetype. -/
def isNamedBy (d : Datum) : Bool := all.any fun a => d.isThe a.name

/-! ## By name -/

/-- Which words in a name, in small letters, tell the archetype. -/
structure NameRule where
  /-- One of these has to occur. -/
  words : List String
  /-- All of these have to occur, too. -/
  also : List String
  /-- None of these may occur. -/
  without : List String
  archetype : Archetype

def NameRule.applies (rule : NameRule) (lower : String) : Bool :=
  Text.hasAny lower rule.words && rule.also.all (Text.has lower) &&
    !Text.hasAny lower rule.without

/-- The rules, the more specific ones first. -/
def nameRules : List NameRule :=
  [⟨["button", "btn"], ["icon"], [], iconButton⟩,
   ⟨["button", "btn"], [], [], button⟩,
   ⟨["textarea", "text-area", "multiline"], [], [], textarea⟩,
   ⟨["input", "textfield", "text-field", "text field"], [], [], input⟩,
   ⟨["combobox", "combo-box", "autocomplete"], [], [], combobox⟩,
   ⟨["dropdown"], ["menu"], [], dropdown⟩,
   ⟨["select", "dropdown"], [], [], select⟩,
   ⟨["modal"], [], [], modal⟩,
   ⟨["dialog"], [], [], dialog⟩,
   ⟨["popover", "pop-up"], [], [], popover⟩,
   ⟨["tooltip"], [], [], tooltip⟩,
   ⟨["menu"], [], [], menu⟩,
   ⟨["checkbox", "check-box"], [], [], checkbox⟩,
   ⟨["radio"], [], ["group"], radio⟩,
   ⟨["switch", "toggle"], [], [], switch⟩,
   ⟨["slider", "range"], [], [], slider⟩,
   ⟨["card"], [], [], card⟩,
   ⟨["badge", "tag", "chip"], [], [], badge⟩,
   ⟨["avatar", "profile-picture"], [], [], avatar⟩,
   ⟨["link", "anchor"], [], [], link⟩]

/-- The archetype that a component's name tells. -/
def byName (name : String) : Archetype :=
  let lower := Text.lower name
  ((nameRules.find? (·.applies lower)).map (·.archetype)).getD unknown

/-! ## By structure -/

/-- What the layers of a component are. -/
structure Features where
  hasText : Bool
  hasIcon : Bool
  hasInput : Bool
  hasList : Bool
  hasOverlay : Bool
  hasCheckbox : Bool
  hasRadio : Bool
  hasSlider : Bool
  /-- How deep the deepest layer lies. -/
  depth : Int
  /-- How many layers carry properties of a variant. -/
  interactionCount : Int
  deriving DecidableEq, Repr

def Features.none : Features :=
  ⟨false, false, false, false, false, false, false, false, 0, 0⟩

/-- The archetype that layers tell. Whether there are few slots, and whether the layers lie deeper
than some level, is only asked where it matters. -/
def tell {m : Type → Type} [Monad m] (f : Features) (fewSlots : m Bool)
    (isDeeper : Int → m Bool) : m Archetype := do
  if (f.hasText || f.hasIcon) && !f.hasInput && !f.hasList then
    if ← fewSlots then return button
  if f.hasInput && f.hasList then return combobox
  if f.hasInput then return input
  if f.hasOverlay then
    if ← isDeeper 2 then return dialog
  if f.hasList then return menu
  if f.hasCheckbox then return checkbox
  if f.hasRadio then return radio
  if f.hasSlider then return slider
  return if ← isDeeper 1 then card else unknown

/-- The archetype that a component's layers and the number of its slots tell. -/
def byStructure (f : Features) (slotCount : Int) : Archetype :=
  Id.run (tell f (decide (slotCount ≤ 2)) fun level => decide (level < f.depth))

/-! ## What an archetype brings along -/

/-- The packages with the behaviour of the archetype. -/
def primitives : Archetype → List String
  | combobox | popover => ["@radix-ui/react-popover"]
  | select => ["@radix-ui/react-select"]
  | dialog | modal => ["@radix-ui/react-dialog"]
  | tooltip => ["@radix-ui/react-tooltip"]
  | menu | dropdown => ["@radix-ui/react-dropdown-menu"]
  | checkbox => ["@radix-ui/react-checkbox"]
  | radio => ["@radix-ui/react-radio-group"]
  | switch => ["@radix-ui/react-switch"]
  | slider => ["@radix-ui/react-slider"]
  | avatar => ["@radix-ui/react-avatar"]
  | _ => []

/-- The accessibility attributes of the archetype. A button without text needs a label. -/
def aria (hasText : Bool) : Archetype → Table String Datum
  | button => [("role", .text "button")] ++ if hasText then [] else [("ariaLabel", .text "Button")]
  | iconButton => [("role", .text "button"), ("ariaLabel", .text "Icon button")]
  | input | textarea => [("role", .text "textbox")]
  | combobox =>
    [("role", .text "combobox"), ("ariaExpanded", .bool false),
     ("ariaControls", .text "listbox-id"), ("ariaAutocomplete", .text "list")]
  | select =>
    [("role", .text "combobox"), ("ariaExpanded", .bool false),
     ("ariaControls", .text "listbox-id")]
  | dialog | modal =>
    [("role", .text "dialog"), ("ariaModal", .bool true),
     ("ariaLabelledBy", .text "dialog-title")]
  | popover => [("role", .text "dialog")]
  | tooltip => [("role", .text "tooltip")]
  | menu | dropdown => [("role", .text "menu")]
  | checkbox => [("role", .text "checkbox"), ("ariaChecked", .bool false)]
  | radio => [("role", .text "radio"), ("ariaChecked", .bool false)]
  | switch => [("role", .text "switch"), ("ariaChecked", .bool false)]
  | slider =>
    [("role", .text "slider"), ("ariaValueMin", .int 0), ("ariaValueMax", .int 100),
     ("ariaValueNow", .int 50)]
  | card => [("role", .text "article")]
  | badge => [("role", .text "status")]
  | avatar => [("role", .text "img"), ("ariaLabel", .text "Avatar")]
  | link => [("role", .text "link")]
  | text | container | unknown => []

end Archetype

end Maquette
