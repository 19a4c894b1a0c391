/-
The files of a component: the component itself and the types of its parameters. Only parameters
that the component makes use of are taken apart from the others.
-/
import Maquette.Component.Template
import Maquette.Css

namespace Maquette.Component

open Markup (Piece Code Line)

/-! ## The component -/

/-- A component as it is written. -/
structure Source where
  plan : Plan
  body : Body
  /-- The keys that the component itself answers to. -/
  answered : List KeySpec

namespace Source

variable (s : Source)

def name : String := s.plan.name

def base : String := s.plan.base

def isMultiState : Bool := s.plan.blueprint.isMultiState

def variants : List Parameter := parametersOf s.plan.parameters .variant

/-- The names that the markup uses. -/
def bodyRefs : List String := Markup.refs [s.body.markup]

/-! ## Imports and helpers -/

def stateType : String := s.name ++ "State"

def propsType : String := s.name ++ "Props"

/-- What the component takes from other files. -/
def imports : List Line :=
  [⟨0, [.raw "import ", .bind "React", .raw " from 'react';"]⟩] ++
  (s.plan.primitive.toList.map fun p =>
    ⟨0, [.raw "import * as ", .bind p.name, .raw (" from '" ++ p.package ++ "';")]⟩) ++
  [⟨0, [.raw "import type \x7b ", .bind s.propsType] ++
      (if s.isMultiState then [.raw ", ", .bind s.stateType] else []) ++
      [.raw (" \x7d from './" ++ s.name ++ ".types';")]⟩,
   Line.words 0 ("import './" ++ s.name ++ ".styles.css';"), Line.blank]

/-- The helper that turns the value of a variant into a part of a class name. -/
def classHelper : List Line :=
  if s.variants.isEmpty then []
  else
    [⟨0, [.raw "const ", .bind "toClassName", .raw " = (value: string) =>"]⟩,
     Line.words 1
      "value.toLowerCase().replace(/[^a-z0-9]+/g, '-').replace(/^-+|-+$/g, '') || 'x';",
     Line.blank]

/-! ## State -/

/-- The values that the component keeps. -/
def hooks : List Line :=
  (if s.plan.template = .field then
    [⟨1, [.raw "const ", .bind "inputId", .raw " = ", .ref "React", .raw ".useId();"]⟩]
  else []) ++
  (if s.isMultiState then
    [⟨1, [.raw "const [", .bind "interactionState", .raw ", ", .bind "setInteractionState",
        .raw "] = ", .ref "React", .raw ".useState<", .ref s.stateType, .raw ">('default');"]⟩]
  else []) ++
  (if s.body.opens then
    [⟨1, [.raw "const [", .bind "isOpen", .raw ", ", .bind "setIsOpen", .raw "] = ",
        .ref "React", .raw ".useState(false);"]⟩]
  else [])

/-- The style that overrides tokens. -/
def overrides : List Line :=
  [⟨1, [.raw "const ", .bind "overrideStyles", .raw " = ", .ref "tokenOverrides"]⟩,
   Line.words 2 "? (Object.fromEntries(",
   ⟨4, [.raw "Object.entries(", .ref "tokenOverrides",
      .raw ").map(([token, value]) => [`--$\x7btoken\x7d`, value]),"]⟩,
   ⟨3, [.raw ") as ", .ref "React", .raw ".CSSProperties)"]⟩,
   Line.words 2 ": undefined;"]

/-- The class of a variant's value. -/
def variantClass (p : Parameter) : Line :=
  ⟨2, [.ref p.name, .raw (" && `" ++ s.base ++ "--" ++ Css.segment p.source.shown ++ "-$\x7b"),
    .ref "toClassName", .raw "(String(", .ref p.name, .raw "))\x7d`,"]⟩

/-- The class names of the outermost element. -/
def classNames : List Line :=
  [⟨1, [.raw "const ", .bind "componentClassName", .raw " = ["]⟩,
   ⟨2, [.literal s.base, .raw ","]⟩] ++
  (if s.isMultiState then
    [⟨2, [.ref "interactionState", .raw (" !== 'default' && `" ++ s.base ++ "--$\x7b"),
        .ref "interactionState", .raw "\x7d`,"]⟩]
  else []) ++
  s.variants.map s.variantClass ++
  (if s.bodyRefs.contains "disabled" then
    [⟨2, [.ref "disabled", .raw " && ", .literal (s.base ++ "--disabled"), .raw ","]⟩]
  else []) ++
  [⟨2, [.ref "className", .raw ","]⟩, Line.words 1 "].filter(Boolean).join(' ');"]

def keys : List Line :=
  if s.plan.handlesKeys then
    [Line.blank] ++ keyHandler s.body.opens s.answered
  else []

/-! ## The whole -/

/-- What the component does before it returns its markup. -/
def setup : List Line := s.hooks ++ overrides ++ s.classNames ++ s.keys

/-- The names that the component uses, those handed to its content included. -/
def uses : List String := Line.refs s.setup ++ s.bodyRefs ++ s.body.handed

/-- A parameter as it is taken apart from the others. -/
def parameterLine (p : Parameter) : Line :=
  ⟨1, (if p.key == p.name then [] else [.raw (p.key ++ ": ")]) ++ [.bind p.name, .raw ","]⟩

def taken : List Parameter := s.plan.parameters.filter fun p => s.uses.contains p.name

def signature : List Line :=
  [⟨0, [.raw "export const ", .bind s.name, .raw ": ", .ref "React", .raw ".FC<",
      .ref s.propsType, .raw "> = (\x7b"]⟩] ++
  s.taken.map parameterLine ++ [Line.words 0 "\x7d) => \x7b"]

def ending : List Line :=
  [Line.words 1 ");", Line.words 0 "\x7d;", Line.blank,
   ⟨0, [.ref s.name, .raw ".displayName = ", .literal s.name, .raw ";"]⟩, Line.blank,
   ⟨0, [.raw "export default ", .ref s.name, .raw ";"]⟩]

/-- The lines of the component. -/
def lines : List Line :=
  s.imports ++ s.classHelper ++ s.signature ++ s.setup ++ [Line.blank, Line.words 1 "return ("] ++
    s.body.markup.lines 2 ++ s.ending

def text : String := Line.block s.lines ++ "\n"

end Source

/-! ## Types -/

/-- The type of the states of a component that has several. -/
def stateTypeLines (name : String) (states : List Datum) : List String :=
  if 1 < states.length then
    ["export type " ++ name ++ "State = " ++ " | ".intercalate (states.map (Script.literal ·.shown)) ++
      ";",
     ""]
  else []

def parameterTypeLines (p : Parameter) : List String :=
  (if p.note.isEmpty then [] else [Script.docComment 1 p.note]) ++
    [Script.indent 1 ++ p.key ++ "?: " ++ p.type ++ ";"]

/-- The file with the types of a component's parameters. -/
def typesText (name : String) (states : List Datum) (ps : List Parameter) : String :=
  Text.lines
    (["import type * as React from 'react';", ""] ++ stateTypeLines name states ++
      ["export interface " ++ name ++ "Props \x7b"] ++ ps.flatMap parameterTypeLines ++
      ["\x7d"]) ++ "\n"

end Maquette.Component
