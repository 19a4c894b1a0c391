/-
What a component does: the handlers of its events, its accessibility attributes, and its answer to
keys.
-/
import Maquette.Component.Parameter
import Maquette.Markup.Basic

namespace Maquette.Component

open Markup (Attribute Code Line)

/-! ## Statements -/

/-- What a rule changes. -/
inductive Change where
  | setState (target : String)
  | setOpen (value : Bool)
  deriving DecidableEq, Repr

def Change.code : Change → Code
  | setState target => [.ref "setInteractionState", .raw "(", .literal target, .raw ");"]
  | setOpen value => [.ref "setIsOpen", .raw (if value then "(true);" else "(false);")]

/-- What a rule changes in a component; states can only change when there are several. -/
def Change.ofRule? (isMultiState : Bool) (rule : RuleSpec) : Option Change :=
  if rule.action.isThe "setState" then
    (if isMultiState then some (setState rule.target.shown) else none)
  else if rule.action.isThe "open" then some (setOpen true)
  else if rule.action.isThe "close" then some (setOpen false)
  else none

/-- A change, and the condition under which it is made. -/
structure Statement where
  change : Change
  condition : Option String
  deriving DecidableEq, Repr

/-- A condition of a rule in terms of the event. -/
def eventCondition (condition : String) : String :=
  if condition == "!isMouseInside" then
    "!event.currentTarget.contains(event.relatedTarget as Node | null)"
  else condition

/-- The condition that a rule gives, if it gives one. -/
def conditionOf (rule : RuleSpec) : Outcome (Option String) :=
  if rule.condition.isTruthy then
    return some (eventCondition (← rule.condition.asKey).shown)
  else .ok none

/-- What a rule adds to the handler of its event; a rule that changes nothing adds nothing. -/
def Statement.ofRule? (isMultiState : Bool) (rule : RuleSpec) : Outcome (Option Statement) :=
  match Change.ofRule? isMultiState rule with
  | some change => return some ⟨change, ← conditionOf rule⟩
  | none => .ok none

def Statement.code (s : Statement) : Code :=
  match s.condition with
  | none => s.change.code
  | some c => [.raw ("if (" ++ c ++ ") ")] ++ s.change.code

/-! ## Handlers -/

/-- The answer to an event: statements in order, and then whether it is passed on. -/
structure Handler where
  trigger : String
  statements : List Statement
  isForwarded : Bool

/-- Without what has come before. -/
def distinct [BEq α] : List α → List α
  | [] => []
  | a :: rest => a :: (distinct rest).filter (!· == a)

/-- The events of rules in order of appearance; events without a name do not count. -/
def triggers (rules : List RuleSpec) (exclude : List String) : List Datum :=
  distinct ((rules.map (·.trigger)).filter fun t => t.isTruthy && !t.isOneOf exclude)

/-- Whether an event can be answered from outside. -/
def isForwarded (ps : List Parameter) (trigger : String) : Bool :=
  (eventTypes.lookup trigger).isSome && hasParameter ps trigger

/-- The handler of an event. -/
def handler (b : Blueprint) (ps : List Parameter) (trigger : Datum) : Outcome Handler := do
  let rules := b.rules.filter (·.trigger == trigger)
  let statements ← rules.mapM (Statement.ofRule? b.isMultiState)
  return {
    trigger := trigger.shown
    statements := distinct (statements.filterMap id)
    isForwarded := isForwarded ps trigger.shown }

/-- The handlers of all events but those that are left out. -/
def handlers (b : Blueprint) (ps : List Parameter) (exclude : List String) :
    Outcome (List Handler) :=
  (triggers b.rules exclude).mapM (handler b ps)

namespace Handler

/-- What the handler does, its passing on included. -/
def codes (h : Handler) : List Code :=
  h.statements.map Statement.code ++
    if h.isForwarded then [[.ref h.trigger, .raw "?.(event);"]] else []

/-- Whether anything that the handler does mentions the event. -/
def takesEvent (h : Handler) : Bool := h.codes.any fun c => Text.has c.text "event"

/-- The attribute of a handler; one that does nothing has none. -/
def attribute? (h : Handler) : Option Attribute :=
  if h.statements.isEmpty then
    if h.isForwarded then some (.code h.trigger [.ref h.trigger]) else none
  else
    some <| .code h.trigger <|
      [.raw ((if h.takesEvent then "(event)" else "()") ++ " => \x7b ")] ++
        Code.between " " h.codes ++ [.raw " \x7d"]

/-- Whether the handler opens or closes something. -/
def opens (h : Handler) : Bool :=
  h.statements.any fun s => match s.change with
    | .setOpen _ => true
    | .setState _ => false

end Handler

def handlerAttributes (hs : List Handler) : List Attribute := hs.filterMap Handler.attribute?

/-! ## Accessibility -/

/-- The attribute of an accessibility entry, if it has one. -/
def ariaAttribute? (ps : List Parameter) (opens withRole : Bool) (key : String) (value : Datum) :
    Outcome (Option Attribute) := do
  if value.isNull then return none
  if key == "role" then
    return ← if withRole then some <$> Attribute.ofDatum "role" value else pure none
  match Text.dropPrefix? "aria".toList key.toList with
  | some (c :: rest) =>
    let attr := "aria-" ++ Text.lower (String.ofList (c :: rest))
    match parameter? ps .aria key with
    | some p =>
      return some (.code attr [.ref p.name, .raw " ?? ", ← Markup.Piece.ofDatum value])
    | none =>
      if key == "ariaExpanded" && opens then return some (.code attr [.ref "isOpen"])
      return some (← Attribute.ofDatum attr value)
  | _ => return none

/-- The accessibility attributes of an element; `opens` says whether it knows if it is open. -/
def ariaAttributesOf (b : Blueprint) (ps : List Parameter) (opens withRole : Bool) :
    Outcome (List Attribute) := do
  return (← b.aria.mapM fun (key, value) => ariaAttribute? ps opens withRole key value).flatMap
    Option.toList

/-! ## Keys -/

/-- A key that the component answers to. -/
structure KeySpec where
  key : Datum
  action : Datum
  preventDefault : Bool

/-- The name of a key in its events. -/
def eventKey (key : Datum) : Datum := if key.isThe "Space" then .text " " else key

/-- The first entry of each key; `seen` are the keys before. -/
def readKeys : List Datum → List Datum → Outcome (List KeySpec)
  | _, [] => .ok []
  | seen, d :: rest => do
    let key := eventKey (← (← d.need "key").asKey)
    if seen.contains key then readKeys seen rest
    else
      let preventDefault := (← d.get "preventDefault").isTruthy
      let spec : KeySpec := ⟨key, ← d.need "action", preventDefault⟩
      return spec :: (← readKeys (seen ++ [key]) rest)

/-- The keys of a blueprint. -/
def Blueprint.keys (b : Blueprint) : Outcome (List KeySpec) := do readKeys [] (← b.keyboard)

/-- What a key does. -/
def keyLines (opens : Bool) (k : KeySpec) : List Line :=
  [⟨3, [.raw "case ", .literal k.key.shown, .raw ":"]⟩] ++
  (if k.preventDefault then [Line.words 4 "event.preventDefault();"] else []) ++
  (if opens && k.action.isThe "open" then [⟨4, (Change.setOpen true).code⟩] else []) ++
  (if opens && k.action.isThe "close" then [⟨4, (Change.setOpen false).code⟩] else []) ++
  [⟨4, [.ref "onKeyboardAction", .raw "?.(", .literal k.action.shown, .raw ", event);"]⟩,
   Line.words 4 "break;"]

/-- The function that answers to keys. -/
def keyHandler (opens : Bool) (keys : List KeySpec) : List Line :=
  [⟨1, [.raw "const ", .bind "handleKeyDown", .raw " = (event: ", .ref "React",
      .raw ".KeyboardEvent<HTMLElement>) => \x7b"]⟩,
   Line.words 2 "switch (event.key) \x7b"] ++
  keys.flatMap (keyLines opens) ++
  [Line.words 3 "default:", Line.words 4 "break;", Line.words 2 "\x7d", Line.words 1 "\x7d;"]

end Maquette.Component
