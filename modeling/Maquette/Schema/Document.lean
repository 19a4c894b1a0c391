/-
The shapes of token sets, interactions and token matches, and the validation of all documents.
-/
import Maquette.Archetype.Basic
import Maquette.Schema.Outline
import Maquette.Token.Basic

namespace Maquette.Schema

open Check

/-! ## Tokens -/

def aliasMarker : Check :=
  model "AliasMarker" [need "type" (oneOf ["VARIABLE_ALIAS"]), need "id" text]

/-- A value of a token: an alias or a plain value. -/
def tokenValue : Check := anyOf (("AliasMarker", aliasMarker) :: plainMembers)

/-- The fields of a token; `odd` are the names of modes that are no texts. -/
def tokenFields (odd : List OddKey) : List Field :=
  [need "name" nonEmptyText, maybe "semanticName" text, need "value" tokenValue,
   need "type" (oneOf Token.kinds), may "modes" (tableWith odd tokenValue),
   maybe "sourceVariableId" text, maybe "collection" text, maybe "description" text,
   maybe "aliasOf" text]

def token (odd : List OddKey) : Check := model "Token" (tokenFields odd)

def tokenEdge : Check :=
  model "TokenEdge"
    [⟨"from", some "from_", true, text⟩, need "to" text,
     need "relationship" (oneOf ["alias", "reference", "derived"])]

def tokenGraph : Check :=
  model "TokenGraph" [may "nodes" (listOf text), may "edges" (listOf tokenEdge)]

/-- The fields of a set of tokens in which some names of modes are no texts. -/
def tokensFields (odd : List OddKey) : List Field :=
  [need "version" text, may "tokens" (listOf (token odd)),
   may "modeValues" (tableWith odd (tableOf tokenValue)), may "tokenGraph" tokenGraph,
   may "tokenUsage" (tableOf (listOf text))]

def tokensWith (odd : List OddKey) : Check := model "IRTDocument" (tokensFields odd)

/-- The shape of a set of tokens. -/
def tokens : Check := tokensWith []

/-! ## Interaction -/

def state : Check :=
  model "State"
    [need "name" (oneOf stateNames), may "trigger" text, may "changes" anyRecord,
     maybe "ariaAttributes" (tableOf text)]

def aria : Check :=
  model "AriaMapping"
    [maybe "role" text, maybe "ariaLabel" text, maybe "ariaLabelledBy" text,
     maybe "ariaDescribedBy" text, maybe "ariaControls" text, maybe "ariaExpanded" truth,
     maybe "ariaDisabled" truth]

def keyBinding : Check :=
  model "KeyboardMapping"
    [need "key" text, need "action" text, maybe "target" text, may "preventDefault" truth]

def interactionRule : Check :=
  model "InteractionRule"
    [need "trigger" trigger, need "action" text, maybe "target" text, maybe "condition" text]

/-- The shape of an interaction. -/
def interaction : Check :=
  model "IMLDocument"
    [need "version" text, need "componentCategory" (oneOf (Archetype.all.map Archetype.name)),
     need "states" (nonEmptyListOf state), may "aria" aria, may "keyboard" (listOf keyBinding),
     may "interactions" (listOf interactionRule), may "requiredPrimitives" (listOf text)]

/-! ## Matches -/

def matchedToken : Check :=
  model "MatchedToken"
    [need "name" text, need "value" plainValue, need "type" text, need "cssVar" text]

/-- The shape of a match of a variable with a token. -/
def tokenMatch : Check :=
  model "TokenMatch"
    [need "figmaVarName" text, need "figmaVarId" text, maybe "matchedToken" matchedToken,
     need "confidence" share]

/-! ## Validation -/

/-- Faults unless a document passes its check. -/
def validate (kind : DocumentKind) (c : Check) (d : Datum) : Outcome Unit :=
  match c d with
  | [] => .ok ()
  | issues => .error (.invalid kind issues)

def validateOutline : Datum → Outcome Unit := validate .outline outline

def validateTokens : Datum → Outcome Unit := validate .tokens tokens

/-- Checks tokens as they are made. -/
def validateTokenSet (s : TokenSet) : Outcome Unit :=
  validate .tokens (tokensWith (s.oddModes.map OddKey.ofDatum)) s.toDatum

def validateInteraction : Datum → Outcome Unit := validate .interaction interaction

/-- An offence of the match at a position; the path of the match as a whole ends in a dot. -/
def atMatch (position : Nat) (i : Issue) : Issue :=
  { i with path := toString position :: (if i.path.isEmpty then [""] else i.path) }

/-- Checks matches up to the first one that does not pass. -/
def validateMatchesFrom (position : Nat) : List Datum → Outcome Unit
  | [] => .ok ()
  | d :: rest =>
    match tokenMatch d with
    | [] => validateMatchesFrom (position + 1) rest
    | issues => .error (.invalid .tokenMatch (issues.map (atMatch position)))

def validateMatches (d : Datum) : Outcome Unit := do validateMatchesFrom 0 (← d.items)

end Maquette.Schema
