/-
The nodes of an outline as markup. Shapes and texts on a curve become graphics, other texts become
their characters, and everything else becomes the element of its role with its children inside.
Content that is given for a node's slot takes the place of what the design shows.
-/
import Maquette.Markup.Basic
import Maquette.Svg
import Maquette.Token.Match

namespace Maquette.Component

/-! ## Layers -/

/-- A node with its children; what stands in the place of a node is kept as the fault that it is. -/
inductive Layer where
  | node (data : Datum) (children : List Layer)
  | broken (fault : Fault)

namespace Layer

mutual

def read : Datum → Layer
  | .record fields => node (.record fields) (readFields fields)
  | _ => broken .noMember

/-- The children among the fields of a node. -/
def readFields : List (String × Datum) → List Layer
  | [] => []
  | (k, v) :: rest => if k == "children" then readChildren v else readFields rest

def readChildren : Datum → List Layer
  | .list items => readItems items
  | .record fields => if fields.isEmpty then [] else [broken .noMember]
  | .text s => if s.isEmpty then [] else [broken .noMember]
  | d => if d.isTruthy then [broken .wrongKind] else []

def readItems : List Datum → List Layer
  | [] => []
  | d :: rest => read d :: readItems rest

end

end Layer

/-! ## Tokens -/

/-- The custom properties that variables stand for, by the ids of the variables. What is no table is
met when a variable is looked up in it. -/
abbrev TokenTable := Outcome (Table Datum Datum)

/-- Whether there is nothing to look up. -/
def TokenTable.isBlank (tokens : TokenTable) : Bool :=
  match tokens with
  | .ok table => table.isEmpty
  | .error _ => false

/-- The custom property that a property of a node is bound to. -/
def tokenOf (tokens : TokenTable) (node : Datum) (property : String) : Outcome (Option Datum) := do
  if TokenTable.isBlank tokens then return none
  let var ← ((← node.get "boundVariables").orElse .empty).get property
  if !var.isTruthy then return none
  let table ← tokens
  return (table.lookup (← var.asKey)).filter Datum.isTruthy

/-! ## Style -/

/-- A side of a node: the token it is bound to, else its length. -/
def sideStyle (tokens : TokenTable) (node box : Datum) (key : String) :
    Outcome (List (String × Datum)) := do
  match ← tokenOf tokens node key with
  | some token => return [(key, token)]
  | none =>
    let length ← box.get key
    return if length.isTruthy then [(key, length)] else []

/-- The opacity of a node, unless it is opaque. -/
def opacityStyle (tokens : TokenTable) (node : Datum) : Outcome (List (String × Datum)) := do
  match ← tokenOf tokens node "opacity" with
  | some token => return [("opacity", token)]
  | none =>
    let opacity ← node.get "opacity"
    return if opacity.isNull || opacity.equals (.int 1) then [] else [("opacity", opacity)]

/-- The first fill of a node that is a color. -/
def solidFill? (node : Datum) : Outcome (Option Datum) := do
  (← node.itemsOf "fills").findM? fun f => do return (← f.get "type").isThe "solid"

/-- The color of a text: the token it is bound to, else that of its first fill that is one. -/
def textColor? (node : Datum) (token : Option Datum) : Outcome (Option Datum) := do
  let fill ← solidFill? node
  match token, fill with
  | some token, _ => return some token
  | none, none => return none
  | none, some fill =>
    let color ← fill.need "color"
    return some (.text (← Color.rgba color (← fill.fieldOr "opacity" (.int 1))))

/-- The background of an element: the token it is bound to, else its fills. -/
def background? (node box : Datum) (token : Option Datum) : Outcome (Option Datum) :=
  match token with
  | some token => .ok (some token)
  | none => return (← Paint.backgroundValue (← node.get "fills") box).map .text

/-- The style that an element carries itself. -/
def inlineStyle (tokens : TokenTable) (node : Datum) : Outcome (List (String × Datum)) := do
  let box := (← node.get "boundingBox").orElse .empty
  let width ← sideStyle tokens node box "width"
  let height ← sideStyle tokens node box "height"
  let opacity ← opacityStyle tokens node
  let token ← tokenOf tokens node "fills"
  let written := (← node.get "type").isThe "TEXT"
  let paint ← if written then textColor? node token else background? node box token
  let painted := paint.map fun p => (if written then "color" else "background", p)
  return width ++ height ++ opacity ++ painted.toList

/-! ## Elements -/

/-- The element of a role. -/
def roleTag (role : Datum) : String :=
  match role with
  | .text "button-root" => "button"
  | .text "input-root" => "input"
  | .text "label" => "label"
  | .text "icon" | .text "icon-left" | .text "icon-right" => "span"
  | _ => "div"

/-- The element that a node becomes. -/
def elementTag (node : Datum) : Outcome String := do
  if (← node.get "type").isThe "TEXT" then return "span"
  return roleTag (← (← node.get "roleHint").asKey)

/-- An element that cannot have children. -/
def isVoid (tag : String) : Bool := tag == "input"

def className (node : Datum) : Outcome String := do
  let name := ((← node.get "name").orElse (← node.get "type")).orElse (.text "node")
  return Naming.kebab (← Pieces.ofDatum name)

open Markup (Attribute Code)

/-- The marks of an element that stands for a slot. -/
def slotMarks (slot : Datum) : Outcome (List Attribute) :=
  if slot.isTruthy then
    return [← Attribute.ofDatum "data-slot" slot, .text "id" (slot.shown ++ "-id")]
  else .ok []

def styleAttributes (style : List (String × Datum)) : Outcome (List Attribute) :=
  if style.isEmpty then .ok [] else return [.code "style" (← Code.style style)]

/-- Class, slot and style of an element. -/
def commonAttributes (tokens : TokenTable) (node : Datum) : Outcome (List Attribute) := do
  let name ← className node
  let marks ← slotMarks (← node.get "slotName")
  let style ← styleAttributes (← inlineStyle tokens node)
  return [.text "className" name] ++ marks ++ style

/-- What readers are told of a graphic: with a label it is an image, else it is hidden. -/
def labelMarks (label : Datum) : Outcome (List Attribute) :=
  if label.isTruthy then return [.text "role" "img", ← Attribute.ofDatum "aria-label" label]
  else .ok [.text "aria-hidden" "true"]

/-- A graphic in an element. -/
def graphic (node : Datum) (svg : Svg) (label : Datum) : Outcome Markup := do
  let name ← className node
  let told ← labelMarks label
  let html : Code := [.raw "\x7b __html: ", .literal svg.render, .raw " \x7d"]
  return Markup.inlined "div"
    ([.text "className" name] ++ told ++ [.code "dangerouslySetInnerHTML" html]) []

/-- The characters of a text as the literal of an expression. -/
def quotedCharacters (d : Datum) : Markup.Piece :=
  match d with
  | .text s => .quoted s
  | d => .raw d.jsonLine

/-- The content of a text: its characters, or what is given for them by a name. -/
def textContent (characters : Datum) (slot : Option Datum) : Outcome (List Markup) :=
  match slot with
  | some (.text name) => .ok [.expr [.ref name, .raw " ?? ", quotedCharacters characters]]
  | some _ => .error .wrongKind
  | none => .ok (if characters.shown.isEmpty then [] else [.text characters.shown])

/-- A text that does not run along a curve. -/
def plainText (tokens : TokenTable) (node : Datum) (slot : Option Datum) : Outcome Markup := do
  let attributes ← commonAttributes tokens node
  let characters ← node.fieldOr "characters" (.text "")
  return Markup.inlined "span" attributes (← textContent characters slot)

/-- A text, as a graphic when it runs along a curve. -/
def textMarkup (tokens : TokenTable) (node : Datum) (slot : Option Datum) : Outcome Markup := do
  match ← Svg.curvedText? node with
  | some svg => graphic node svg ((← node.get "characters").orElse (← node.get "name"))
  | none => plainText tokens node slot

/-! ## Trees -/

/-- The names of the content that is given for slots. What is no table is met at the first node. -/
abbrev SlotTable := Outcome (Table Datum Datum)

/-- The name of the content that is given for a node's slot. -/
def slotContent (slots : SlotTable) (node : Datum) : Outcome (Option Datum) := do
  let table ← slots
  return (table.lookup (← (← node.get "slotName").asKey)).filter Datum.isTruthy

/-- An element with its children, or with the content that is given for its slot. -/
def elementOf (tag : String) (attributes : List Attribute) (slot : Option Datum)
    (children : List Markup) : Markup :=
  let inner :=
    if children.isEmpty then slot.toList.map fun name => Markup.expr [.ref name.shown] else children
  .element (.block 1) (.plain tag)
    ((if tag == "button" then [Attribute.text "type" "button"] else []) ++ attributes)
    (if isVoid tag then [] else inner)

namespace Layer

mutual

/-- A node as markup; `slots` holds the names of the content for slots. -/
def markup (tokens : TokenTable) (slots : SlotTable) : Layer → Outcome Markup
  | broken f => .error f
  | node d children => do
    let slot ← slotContent slots d
    if ← Svg.isShape d then graphic d (← Svg.shape d) .null
    else if (← d.get "type").isThe "TEXT" then textMarkup tokens d slot
    else
      let tag ← elementTag d
      let common ← commonAttributes tokens d
      let inner ← allMarkup tokens slots children
      return elementOf tag common slot inner

def allMarkup (tokens : TokenTable) (slots : SlotTable) : List Layer → Outcome (List Markup)
  | [] => .ok []
  | l :: rest => do
    let m ← markup tokens slots l
    let ms ← allMarkup tokens slots rest
    return m :: ms

end

end Layer

/-! ## Token tables -/

/-- The names of the tokens by the variables they come from. -/
def ownTokens (tokens : Datum) : Outcome (Table Datum Datum) := do
  let tokens ← (← (tokens.orElse .empty).fieldOr "tokens" (.list [])).items
  tokens.foldlM (fun (table : Table Datum Datum) token => do
    let source ← token.get "sourceVariableId"
    if !source.isTruthy then return table
    let name := Token.cssVar (← (← token.need "name").textOrEmpty)
    return table.set (← source.asKey) (.text name)) []

/-- The tokens of a set and, before them, the tokens of the project that variables are matched
with. -/
def tokenTable (tokens matched : Datum) : Outcome (Table Datum Datum) := do
  let own ← ownTokens tokens
  (← (matched.orElse (.list [])).items).foldlM (fun (table : Table Datum Datum) m => do
    let token ← m.get "matchedToken"
    if !token.isTruthy then return table
    let source ← m.get "figmaVarId"
    if !source.isTruthy then return table
    let name ← token.need "cssVar"
    return table.set (← source.asKey) name) own

end Maquette.Component
