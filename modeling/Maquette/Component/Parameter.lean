/-
The parameters of a component: one per property of its variants and per slot, then those that its
states, its accessibility and its events ask for. Each has a name of its own that nothing else in
the component has.
-/
import Maquette.Component.Blueprint
import Maquette.Script

namespace Maquette.Component

/-! ## Parameters -/

inductive ParameterKind where
  | variant
  | slot
  | base
  | aria
  | event
  deriving DecidableEq, Repr

def ParameterKind.label : ParameterKind → String
  | .variant => "variant"
  | .slot => "slot"
  | .base => "base"
  | .aria => "aria"
  | .event => "event"

/-- A parameter: its name outside and inside of the component, its type, and what it stands for. -/
structure Parameter where
  key : String
  name : String
  type : String
  note : String
  kind : ParameterKind
  source : Datum
  values : List Datum

/-! ## Names -/

/-- The names that the component itself binds, or that its parameters always have. -/
def reservedNames : List String :=
  ["React", "className", "children", "tokenOverrides", "disabled", "ariaLabel", "ariaLabelledBy",
   "ariaDescribedBy", "onClick", "onFocus", "onBlur", "onOpenChange", "onKeyboardAction",
   "interactionState", "setInteractionState", "isOpen", "setIsOpen", "overrideStyles",
   "componentClassName", "toClassName", "handleKeyDown", "inputId", "event", "next"]

/-! ## Variants and slots -/

/-- A property of variants and the values it has. -/
abbrev Axis := String × List Datum

/-- Adds a value to a property, unless it is there. -/
def addValue (axes : List Axis) (property : String × Datum) : List Axis :=
  let values := (axes.lookup property.1).getD []
  Table.set axes property.1
    (if values.contains property.2 then values else values ++ [property.2])

/-- The properties of the variants with their values, in order of appearance. -/
def axes (variants : List VariantSpec) : List Axis :=
  (variants.flatMap (·.properties)).foldl addValue []

def variantParameter (axis : Axis) (name : String) : Parameter :=
  { key := name, name, type := " | ".intercalate (axis.2.map (Script.literal ·.shown))
    note := "Figma variant property \"" ++ axis.1 ++ "\".", kind := .variant
    source := .text axis.1, values := axis.2 }

def nodeType : String := "React.ReactNode"

def slotParameter (slot : SlotSpec) (name : String) : Parameter :=
  { key := name, name, type := nodeType
    note := "Content for the \"" ++ slot.name.shown ++ "\" slot.", kind := .slot
    source := slot.name, values := [] }

/-- The parameters of variants and slots, with distinct names. -/
def ownParameters (b : Blueprint) : List Parameter :=
  let axes := axes b.variants
  let wishes := axes.map (fun axis => Naming.camel "value" (.ofString axis.1)) ++
    b.slots.map (·.wish)
  let names := (Naming.uniques reservedNames wishes).1
  axes.zipWith variantParameter names ++
    b.slots.zipWith slotParameter (names.drop axes.length)

/-! ## Fixed parameters -/

/-- A parameter whose names are fixed. -/
def fixedParameter (key name type note : String) (kind : ParameterKind) (source : String) :
    Parameter :=
  ⟨key, name, type, note, kind, .text source, []⟩

def disabledParameter : Parameter := fixedParameter "disabled" "disabled" "boolean" "" .base ""

/-- The accessibility attributes that can be set from outside, with their names in markup. -/
def ariaAttributes : List (String × String) :=
  [("ariaLabel", "aria-label"), ("ariaLabelledBy", "aria-labelledby"),
   ("ariaDescribedBy", "aria-describedby")]

def ariaParameters (b : Blueprint) : List Parameter :=
  (ariaAttributes.filter fun (key, _) => (b.ariaOf key).isSome).map fun (key, attr) =>
    fixedParameter ("'" ++ attr ++ "'") key "string" "" .aria key

/-- The events that can be answered from outside, with the types of the answers. -/
def eventTypes : List (String × String) :=
  [("onClick", "(event: React.MouseEvent<HTMLElement>) => void"),
   ("onFocus", "(event: React.FocusEvent<HTMLElement>) => void"),
   ("onBlur", "(event: React.FocusEvent<HTMLElement>) => void"),
   ("onOpenChange", "(open: boolean) => void")]

def eventParameters (b : Blueprint) : List Parameter :=
  (eventTypes.filter fun (trigger, _) => b.rules.any (·.trigger.isThe trigger)).map
    fun (trigger, type) => fixedParameter trigger trigger type "" .event trigger

def keyParameter : Parameter :=
  fixedParameter "onKeyboardAction" "onKeyboardAction"
    "(action: string, event: React.KeyboardEvent<HTMLElement>) => void"
    "Called with the mapped action for handled keys." .event ""

def closingParameters : List Parameter :=
  [fixedParameter "tokenOverrides" "tokenOverrides" "Record<string, string>"
     "Design-token overrides applied as CSS custom properties." .base "",
   fixedParameter "className" "className" "string" "" .base "",
   fixedParameter "children" "children" nodeType "" .base ""]

/-! ## All parameters -/

/-- The parameters of a component; `handlesKeys` says whether it answers to keys. -/
def parameters (b : Blueprint) (handlesKeys : Bool) : List Parameter :=
  ownParameters b ++
    (if b.stateNames.any (·.isThe "disabled") then [disabledParameter] else []) ++
    ariaParameters b ++ eventParameters b ++ (if handlesKeys then [keyParameter] else []) ++
    closingParameters

/-- The parameter of a kind that stands for something. -/
def parameter? (ps : List Parameter) (kind : ParameterKind) (source : String) : Option Parameter :=
  ps.find? fun p => p.kind = kind && p.source.isThe source

def hasParameter (ps : List Parameter) (name : String) : Bool := ps.any (·.name == name)

def parametersOf (ps : List Parameter) (kind : ParameterKind) : List Parameter :=
  ps.filter (·.kind = kind)

/-- The first slot whose name begins with `label`. -/
def firstLabel? : List Parameter → Outcome (Option Parameter)
  | [] => .ok none
  | p :: rest => do
    if Text.startsWith (← p.source.textMember) "label" then return some p
    firstLabel? rest

/-- The slot that labels the component. -/
def labelParameter? (ps : List Parameter) : Outcome (Option Parameter) :=
  firstLabel? (parametersOf ps .slot)

end Maquette.Component
