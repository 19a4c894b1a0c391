/-
A design compiled into a component: its outline, tokens and interaction, each checked as soon as it
is made, and the files generated from them. A document that breaks its shape ends the work.
-/
import Maquette.Archetype.Intelligence
import Maquette.Component.Artifacts
import Maquette.Design.Basic
import Maquette.Interaction.Document
import Maquette.Outline.Document
import Maquette.Page
import Maquette.Schema.Document
import Maquette.Token.Basic
import Maquette.Token.Match
import Maquette.Token.Sheet

namespace Maquette

/-- What a compilation depends on besides the design: the project's own tokens, how long a chain of
aliases may be, and the time to be noted. -/
structure Compiled.Options where
  projectTokens : Datum := .null
  maxDepth : Datum := Token.defaultMaxDepth
  extractedAt : Datum := .null

/-- A compiled design. -/
structure Compiled where
  name : String
  outline : Datum
  tokens : Datum
  interaction : Datum
  intelligence : Datum
  matched : List Datum
  files : Component.Artifacts
  page : String
  sheet : String

namespace Compiled

/-! ## Documents -/

/-- The outline of a design, checked. -/
def outlineOf (d : Design) (extractedAt : Datum) : Outcome Datum := do
  let outline ← Outline.ofDatum d.document ⟨d.url, d.fileKey, extractedAt⟩
  Schema.validateOutline outline
  return outline

/-- The tokens of a design, checked. -/
def tokensOf (d : Design) (maxDepth : Datum) : Run Datum := do
  let vars ← (Token.variablesOf (d.vars.orElse .empty) : Outcome _)
  let walks : List Walked := [.ofDatum d.document]
  let tokens ← TokenSet.build vars d.collections.table (.ok walks) maxDepth
  Schema.validateTokenSet tokens
  return tokens.toDatum

/-- The interaction of an outline, checked. -/
def interactionOf (outline intelligence : Datum) : Outcome Datum := do
  let interaction ← Interaction.build outline intelligence
  Schema.validateInteraction interaction
  return interaction

/-- The project's tokens that a design's variables are matched with, checked. Without project tokens
nothing is matched. -/
def matchedOf (d : Design) (o : Options) : Run (List Datum) := do
  if !o.projectTokens.isTruthy then return []
  let vars ← (Token.variablesOf (d.vars.orElse .empty) : Outcome _)
  let vars ← Token.matchable vars d.collections.table o.maxDepth
  let tokens ← o.projectTokens.items
  let matched ← vars.mapM fun v => (Token.matchVariable v (.ok tokens) : Outcome Datum)
  Schema.validateMatches (.list matched)
  return matched

/-! ## The component -/

/-- Compiles a design. -/
def ofDesign (d : Design) (o : Options) : Run Compiled := do
  let outline ← outlineOf d o.extractedAt
  let tokens ← tokensOf d o.maxDepth
  let intelligence ← Archetype.classify outline
  let interaction ← interactionOf outline intelligence
  let matched ← matchedOf d o
  let title ← (← outline.get "meta").get "name"
  let name ← (Component.componentName title : Outcome String)
  let files ← Component.generate (.text name) outline tokens interaction (.list matched)
  let page ← Page.text (← Component.componentName (.text name)) outline tokens interaction
  let sheet ← Token.sheet tokens
  return { name, outline, tokens, interaction, intelligence, matched, files, page, sheet }

/-! ## The manifest -/

/-- Whether a match has found a token. -/
def hasToken (m : Datum) : Bool := ((m.at? "matchedToken").getD .null).isTruthy

/-- The names of the variables that no token of the project was found for. -/
def unmatched (c : Compiled) : List Datum :=
  (c.matched.filter (!hasToken ·)).map fun m => (m.at? "figmaVarName").getD .null

/-- How many items a field of a document has. -/
def countOf (doc : Datum) (key : String) : Datum :=
  match doc.at? key with
  | some (.list items) => .int items.length
  | _ => .int 0

/-- What is told about a compiled design. -/
def manifest (c : Compiled) : Outcome Datum := do
  let field (key : String) : Datum := (c.intelligence.at? key).getD .null
  let nodes := (((c.outline.at? "stats").getD .empty).at? "nodeCount").getD (.int 0)
  return .record
    [("component", .text c.name), ("archetype", field "category"),
     ("confidence", field "confidence"), ("detectedFrom", field "detectedFrom"),
     ("contentSource", .text c.files.source.label),
     ("counts", .record
       [("nodes", nodes), ("slots", countOf c.outline "slots"),
        ("variants", countOf c.outline "variants"), ("tokens", countOf c.tokens "tokens"),
        ("states", countOf c.interaction "states"),
        ("matchedTokens", .int (c.matched.countP hasToken))]),
     ("unmatchedVariables", .list c.unmatched),
     ("tokenVars", .ofTable (← Token.references c.tokens))]

end Compiled

end Maquette
