/-
The markup of a component by its archetype: a button, a field, a list box, a dialog, or a plain
container for everything else. List boxes and dialogs are built on a package of primitives where
one is required.
-/
import Maquette.Component.Behavior
import Maquette.Component.Layer
import Maquette.Scene.Walk

namespace Maquette.Component

open Markup (Attribute Code Tag Layout)

/-! ## Templates -/

inductive Template where
  | button
  | field
  | listBox
  | dialog
  | plain
  deriving DecidableEq, Repr

/-- The template of an archetype. -/
def Template.of : Archetype → Template
  | .button | .iconButton => .button
  | .input | .textarea => .field
  | .combobox | .select => .listBox
  | .dialog | .modal => .dialog
  | _ => .plain

/-- The package that a template is built on, and the name it is imported under. -/
structure Primitive where
  name : String
  package : String
  deriving DecidableEq, Repr

/-- What the packages of primitives have in front of their own names. -/
def primitiveScope : String := "@radix-ui/react-"

def primitiveOf? (package : String) : Option Primitive :=
  (Text.dropPrefix? primitiveScope.toList package.toList).map fun rest =>
    ⟨Naming.pascal "Unnamed" (rest.map ([·])), package⟩

/-- The first package of primitives. -/
def firstPrimitive? : List Datum → Outcome (Option Primitive)
  | [] => .ok none
  | package :: rest => do
    match primitiveOf? (← package.textMember) with
    | some primitive => return some primitive
    | none => firstPrimitive? rest

/-- The package that a component is built on, if its template can be built on one. -/
def Template.primitive? (t : Template) (interaction : Datum) : Outcome (Option Primitive) :=
  match t with
  | .listBox | .dialog => do firstPrimitive? (← interaction.itemsOf "requiredPrimitives")
  | _ => .ok none

/-- Whether the component itself answers to keys. -/
def Template.handlesKeys (t : Template) (interaction : Datum) (primitive : Option Primitive) :
    Outcome Bool := do
  return (← interaction.get "keyboard").isTruthy && match t with
    | .plain => true
    | .listBox | .dialog => primitive.isNone
    | _ => false

/-! ## What is written -/

/-- Everything that the markup of a component is written from. -/
structure Plan where
  name : String
  base : String
  blueprint : Blueprint
  parameters : List Parameter
  tokens : TokenTable
  template : Template
  primitive : Option Primitive
  handlesKeys : Bool

/-- Where the content of a component comes from. -/
inductive ContentSource where
  | tree
  | slots
  | children
  deriving DecidableEq, Repr

def ContentSource.label : ContentSource → String
  | .tree => "tree"
  | .slots => "slots"
  | .children => "children"

/-- The content of a component: its markup, where that comes from, and the names of the parameters
that are handed to it. -/
structure Content where
  markup : List Markup
  source : ContentSource
  handed : List String

/-- A finished markup: the elements, the content's source and names, and whether anything is
opened. -/
structure Body where
  markup : Markup
  source : ContentSource
  handed : List String
  opens : Bool

namespace Plan

variable (p : Plan)

def slots : List Parameter := parametersOf p.parameters .slot

def has (name : String) : Bool := hasParameter p.parameters name

/-- The class of a part of the component. -/
def partClass (part : String) : Attribute := .text "className" (p.base ++ "__" ++ part)

/-! ## Attributes -/

/-- Class, style and state of the outermost element. -/
def ownAttributes : List Attribute :=
  [.code "className" [.ref "componentClassName"], .code "style" [.ref "overrideStyles"]] ++
    if p.blueprint.isMultiState then [.code "data-state" [.ref "interactionState"]] else []

def aria (opens withRole : Bool) : Outcome (List Attribute) :=
  ariaAttributesOf p.blueprint p.parameters opens withRole

def rootAttributes (opens withRole : Bool) : Outcome (List Attribute) := do
  return p.ownAttributes ++ (← p.aria opens withRole)

/-- The handlers of all events but those that are left out. -/
def handlersBut (exclude : List String) : Outcome (List Handler) :=
  handlers p.blueprint p.parameters exclude

def disabledAttribute : List Attribute :=
  if p.has "disabled" then [.code "disabled" [.ref "disabled"]] else []

def keyAttributes : List Attribute :=
  if p.handlesKeys then
    [.code "tabIndex" [.raw "0"], .code "onKeyDown" [.ref "handleKeyDown"]]
  else []

/-! ## Content -/

/-- The content of a slot, in an element of its own. -/
def slotMarkup (slot : Parameter) (tag : String) (extra : List Attribute) : Outcome Markup := do
  let part := Naming.kebab (← Pieces.ofDatum slot.source)
  let mark ← Attribute.ofDatum "data-slot" slot.source
  return .guarded slot.name <| Markup.inlined tag
    ([p.partClass part, mark, .text "id" (slot.source.shown ++ "-id")] ++ extra)
    [.expr [.ref slot.name]]

def slotElement (slot : Parameter) : Outcome Markup := p.slotMarkup slot "span" []

def placeholder : Markup := .expr [.ref "children"]

/-- The nodes below the outermost one; of a set of variants only the first. -/
def nodes : Outcome (List Datum) := do
  let children ← (← treeOf p.blueprint.outline).get "children"
  if !children.isTruthy then return []
  let info ← p.blueprint.outline.fieldOr "meta" .empty
  if (← info.get "componentType").isThe "component-set" then children.leading 1
  else children.items

/-- The names of the slots of nodes. -/
def slotsIn (nodes : List Datum) : Outcome (List Datum) :=
  nodes.foldlM (fun names d => (Walked.ofDatum d).foldM (fun names node _ => do
    return names ++ [← (← node.get "slotName").asKey]) names) []

/-- The nodes of the design, else the slots, else whatever the component is given. -/
def content : Outcome Content := do
  let nodes ← p.nodes
  if nodes.isEmpty then
    if p.slots.isEmpty then return ⟨[placeholder], .children, []⟩
    return ⟨← p.slots.mapM p.slotElement, .slots, []⟩
  let inTree ← slotsIn nodes
  let given ← p.slots.filterM fun s => return inTree.contains (← s.source.asKey)
  let table : Table Datum Datum := .ofRows (given.map fun s => (s.source, .text s.name))
  let markup ← Layer.allMarkup p.tokens (.ok table) (nodes.map Layer.read)
  return ⟨markup, .tree, given.map (·.name)⟩

/-! ## Button -/

def button : Outcome Body := do
  let aria ← p.rootAttributes false false
  let handlers ← p.handlersBut []
  let content ← p.content
  return {
    markup := .element (.spread 1) (.plain "button")
      ([.text "type" "button"] ++ aria ++ p.disabledAttribute ++ handlerAttributes handlers)
      content.markup
    source := content.source
    handed := content.handed
    opens := handlers.any Handler.opens }

/-! ## Field -/

def isLabel (slot : Parameter) : Outcome Bool :=
  return Text.startsWith (← slot.source.textMember) "label"

/-- Whether a slot stands in front of a field. -/
def isBefore (slot : Parameter) : Outcome Bool := do
  let name ← slot.source.textMember
  return Text.startsWith name "label" || Text.startsWith name "prefix"

/-- The slot in front of a field; a label names the field. -/
def beforeField (slot : Parameter) : Outcome Markup := do
  if ← isLabel slot then p.slotMarkup slot "label" [.code "htmlFor" [.ref "inputId"]]
  else p.slotElement slot

/-- The slots by their names, the last one of each name in the place of the first. -/
def namedSlots : Outcome (List Parameter) := do
  let rows ← p.slots.mapM fun s => return (← s.source.asKey, s)
  return (Table.ofRows rows).map (·.2)

def field : Outcome Body := do
  let tag := if p.blueprint.archetype = .textarea then "textarea" else "input"
  let named ← p.namedSlots
  let marked ← named.mapM fun s => return (s, ← isBefore s)
  let before := (marked.filter (·.2)).map (·.1)
  let after := (marked.filter (!·.2)).map (·.1)
  let front ← before.mapM p.beforeField
  let aria ← p.aria false false
  let handlers ← p.handlersBut []
  let element := Markup.element (.spread 1) (.plain tag)
    ([p.partClass "field", .code "id" [.ref "inputId"]] ++ aria ++ p.disabledAttribute ++
      handlerAttributes handlers) []
  let back ← after.mapM p.slotElement
  return {
    markup := .element (.spread 1) (.plain "div") p.ownAttributes
      (front ++ [element] ++ back ++ if named.isEmpty then [placeholder] else [])
    source := if named.isEmpty then .children else .slots
    handed := []
    opens := handlers.any Handler.opens }

/-! ## List box -/

/-- The text of the element that opens something. -/
def triggerLabel (fallback : String) : Outcome Markup := do
  match ← labelParameter? p.parameters with
  | some label => return .expr [.ref label.name, .raw " ?? ", .literal fallback]
  | none => return .text fallback

/-- An element over lines, its attributes on the line of its tag. -/
def blockOf (tag : Tag) (attributes : List Attribute) (children : List Markup) : Markup :=
  .element (.block 1) tag attributes children

/-- Attributes that tie what is open to a state of the component. -/
def openState (onChange : Code) : List Attribute :=
  [.code "open" [.ref "isOpen"], .code "onOpenChange" onChange]

def part (space name : String) : Tag := ⟨some space, name⟩

def listBoxId : Attribute := .text "id" "listbox-id"

def selectText : String := "Select an option"

/-- A list box without primitives. -/
def bareListBox (aria : List Attribute) (handlers : List Handler) (content : List Markup) :
    Markup :=
  .element (.spread 1) (.plain "div") (aria ++ handlerAttributes handlers ++ p.keyAttributes)
    [.element (.spread 1) (.plain "div")
      [p.partClass "listbox", listBoxId, .text "role" "listbox",
       .code "hidden" [.raw "!", .ref "isOpen"]] content]

/-- A list box on the primitives of a selection. -/
def selectListBox (space : String) (aria : List Attribute) (handlers : List Handler)
    (content : List Markup) : Markup :=
  let tag := part space
  blockOf (tag "Root") (openState [.ref "setIsOpen"])
    [.element (.spread 1) (tag "Trigger") (aria ++ handlerAttributes handlers)
      [.element .inline (tag "Value") [.code "placeholder" [.literal selectText]] [],
       .element .inline (tag "Icon") [p.partClass "icon"] []],
     blockOf (tag "Portal") []
      [blockOf (tag "Content") [p.partClass "content", .text "position" "popper"]
        [.element (.block 2) (tag "Viewport") [listBoxId] content]]]

/-- A list box on any other primitives. -/
def popupListBox (space : String) (aria : List Attribute) (handlers : List Handler)
    (label : Markup) (content : List Markup) : Markup :=
  let tag := part space
  blockOf (tag "Root") (openState [.ref "setIsOpen"])
    [blockOf (tag "Trigger") [.flag "asChild"]
      [.element (.spread 1) (.plain "button")
        ([.text "type" "button"] ++ aria ++ handlerAttributes handlers) [label]],
     blockOf (tag "Portal") []
      [.element (.block 2) (tag "Content")
        [p.partClass "content", listBoxId, .text "role" "listbox"] content]]

/-- The markup of a list box around its content. -/
def listBoxMarkup (aria : List Attribute) (handlers : List Handler) :
    Outcome (List Markup → Markup) :=
  match p.primitive with
  | none => .ok (p.bareListBox aria handlers)
  | some primitive =>
    if primitive.name == "Select" then .ok (p.selectListBox primitive.name aria handlers)
    else return p.popupListBox primitive.name aria handlers (← p.triggerLabel selectText)

def listBox : Outcome Body := do
  let withRole := match p.primitive with
    | some primitive => primitive.name != "Select"
    | none => true
  let aria ← p.rootAttributes true withRole
  let handlers ← p.handlersBut []
  let markup ← p.listBoxMarkup aria handlers
  let content ← p.content
  return {
    markup := markup content.markup
    source := content.source
    handed := content.handed
    opens := true }

/-! ## Dialog -/

def typeButton : Attribute := .text "type" "button"

/-- A dialog without primitives. -/
def bareDialog (label : Markup) (aria : List Attribute) (handlers : List Handler)
    (content : List Markup) : Markup :=
  blockOf (.plain "") []
    [blockOf (.plain "button")
      [typeButton, p.partClass "trigger",
       .code "onClick" [.raw "() => ", .ref "setIsOpen", .raw "(true)"]]
      [label],
     .guarded "isOpen" <|
      blockOf (.plain "div") [p.partClass "overlay", .text "role" "presentation"]
        [.element (.spread 1) (.plain "div")
          (aria ++ handlerAttributes handlers ++ p.keyAttributes) content]]

/-- What happens when the primitives open or close the dialog. -/
def onOpenChange : Code :=
  if p.has "onOpenChange" then
    [.raw "(next) => \x7b ", .ref "setIsOpen", .raw "(next); ", .ref "onOpenChange",
     .raw "?.(next); \x7d"]
  else [.ref "setIsOpen"]

/-- A dialog on primitives. -/
def primitiveDialog (space : String) (label : Markup) (aria : List Attribute)
    (handlers : List Handler) (title : String) (content : List Markup) : Markup :=
  let tag := part space
  let heading := Markup.element .inline (tag "Title")
    [p.partClass "title", .text "id" "dialog-title"] [.text title]
  blockOf (tag "Root") (openState p.onOpenChange)
    [blockOf (tag "Trigger") [.flag "asChild"]
      [Markup.inlined "button" [typeButton, p.partClass "trigger"] [label]],
     blockOf (tag "Portal") []
      [.element .inline (tag "Overlay") [p.partClass "overlay"] [],
       .element (.spread 2) (tag "Content") (aria ++ handlerAttributes handlers)
        ([heading] ++ content)]]

/-- The title of a dialog: the name of the design, else of the component. -/
def title : Outcome String := do
  let info ← p.blueprint.outline.fieldOr "meta" .empty
  return ((← info.get "name").orElse (.text p.name)).shown

/-- The markup of a dialog around its content. -/
def dialogMarkup (label : Markup) (aria : List Attribute) (handlers : List Handler) :
    Outcome (List Markup → Markup) :=
  match p.primitive with
  | none => .ok (p.bareDialog label aria handlers)
  | some primitive =>
    return p.primitiveDialog primitive.name label aria handlers (← p.title)

def dialog : Outcome Body := do
  let label ← p.triggerLabel "Open"
  let aria ← p.rootAttributes true p.primitive.isNone
  let handlers ← p.handlersBut ["onOpenChange"]
  let markup ← p.dialogMarkup label aria handlers
  let content ← p.content
  return {
    markup := markup content.markup
    source := content.source
    handed := content.handed
    opens := true }

/-! ## Container -/

/-- A container tells that it is disabled, unless its accessibility attributes do. -/
def disabledAria : List Attribute :=
  if p.has "disabled" && !Table.hasKey p.blueprint.aria "ariaDisabled" then
    [.code "aria-disabled" [.ref "disabled", .raw " || undefined"]]
  else []

def container : Outcome Body := do
  let aria ← p.rootAttributes false true
  let handlers ← p.handlersBut []
  let content ← p.content
  return {
    markup := .element (.spread 1) (.plain "div")
      (aria ++ p.disabledAria ++ handlerAttributes handlers ++ p.keyAttributes) content.markup
    source := content.source
    handed := content.handed
    opens := handlers.any Handler.opens }

/-! ## All templates -/

/-- The markup of a component. -/
def body : Outcome Body :=
  match p.template with
  | .button => p.button
  | .field => p.field
  | .listBox => p.listBox
  | .dialog => p.dialog
  | .plain => p.container

end Plan

end Maquette.Component
