/-
The tokens of a design: one per variable, with its value in every mode, the graph of aliases and of
values close to each other, and the nodes that each token is used by.
-/
import Maquette.Scene.Walk
import Maquette.Token.Kind

namespace Maquette

/-- A named value of a design, with its values per mode. -/
structure Token where
  name : String
  semanticName : String
  value : Datum
  kind : String
  modes : Table Datum Datum
  variableId : Datum
  collection : Option Datum
  description : Option Datum
  aliasOf : Option Datum

/-- Two tokens that belong together, and how. -/
structure TokenEdge where
  source : Datum
  target : Datum
  relationship : String

/-- All tokens, their values by mode, their graph and their use. -/
structure TokenSet where
  tokens : List Token
  modeValues : Table Datum (Table String Datum)
  edges : List TokenEdge
  usage : Table String (List Datum)

namespace Token

def optional (key : String) (d : Option Datum) : List (String × Datum) :=
  (d.map fun d => (key, d)).toList

def toDatum (t : Token) : Datum :=
  .record <|
    [("name", .text t.name), ("semanticName", .text t.semanticName), ("value", t.value),
     ("type", .text t.kind), ("modes", .ofTable t.modes),
     ("sourceVariableId", t.variableId)] ++
    optional "collection" t.collection ++ optional "description" t.description ++
    optional "aliasOf" t.aliasOf

/-! ## The graph -/

def edgeDatum (e : TokenEdge) : Datum :=
  .record [("from", e.source), ("to", e.target), ("relationship", .text e.relationship)]

def sameEdge (a b : TokenEdge) : Bool :=
  a.source.same b.source && a.target.same b.target && a.relationship == b.relationship

/-- Adds an edge unless it is there. -/
def addEdge (edges : List TokenEdge) (e : TokenEdge) : List TokenEdge :=
  if edges.any (sameEdge e) then edges else edges ++ [e]

/-- Whether two values are nearly equal: numbers less than a tenth apart, colors less than two
steps apart with alphas less than a hundredth apart. -/
def isNear (a b : Datum) : Outcome Bool := do
  if a.isNumber && b.isNumber then
    let difference ← (← a.number).sub (← b.number)
    return difference.abs.lt (.float 0.1)
  match ← Color.read a, ← Color.read b with
  | some x, some y =>
    let apart ← Color.distance x.channels y.channels
    if !(apart < 2.0) then return false
    let difference ← (← x.a.number).sub (← y.a.number)
    return difference.abs.lt (.float 0.01)
  | _, _ => return false

/-- Whether a token has a value of its own. -/
def ownsValue (t : Token) : Bool := !isAlias t.value && t.aliasOf.isNone

/-- The edges from later tokens to an earlier one with nearly the same value. -/
def derivedFrom (a : Token) (later : List Token) : Outcome (List TokenEdge) := do
  if !a.ownsValue then return []
  let near ← later.filterM fun b => do
    if b.kind != a.kind || !b.ownsValue then return false else isNear a.value b.value
  return near.map fun b => ⟨.text b.name, .text a.name, "derived"⟩

def derivedEdges : List Token → Outcome (List TokenEdge)
  | [] => .ok []
  | a :: later => do return (← derivedFrom a later) ++ (← derivedEdges later)

/-! ## Use -/

mutual

/-- The variables that a binding refers to, at any depth. -/
def boundIds : Datum → List Datum
  | .record fields =>
    let id := (fields.lookup "id").getD .null
    if id.isTruthy && ((fields.lookup "type").getD (.text "VARIABLE_ALIAS")).isThe "VARIABLE_ALIAS"
    then [id] else boundIdsOfFields fields
  | .list items => boundIdsOfItems items
  | _ => []

def boundIdsOfItems : List Datum → List Datum
  | [] => []
  | d :: rest => boundIds d ++ boundIdsOfItems rest

def boundIdsOfFields : List (String × Datum) → List Datum
  | [] => []
  | (_, d) :: rest => boundIds d ++ boundIdsOfFields rest

end

/-- Notes that a node uses a token. -/
def addUse (usage : Table String (List Datum)) (token : String) (node : Datum) :
    Table String (List Datum) :=
  let users := (usage.lookup token).getD []
  usage.set token (if users.any (·.same node) then users else users ++ [node])

/-- The uses of tokens by one node. -/
def usesOf (names : Table Datum Datum) (usage : Table String (List Datum)) (node : Datum) :
    Outcome (Table String (List Datum)) := do
  let ids := boundIds ((← node.get "boundVariables").orElse .empty)
  ids.foldlM (fun usage id => do
    match names.lookup (← id.asKey) with
    | some name => return addUse usage name.shown (← node.get "id")
    | none => return usage) usage

/-- The tokens used by the nodes of several walks. -/
def usageOf (names : Table Datum Datum) (walks : List Walked) :
    Outcome (Table String (List Datum)) :=
  walks.foldlM (fun usage w => w.foldM (fun usage node _ => usesOf names usage node) usage) []

end Token

/-! ## Building -/

namespace TokenSet

def version : String := "1.0.0"

/-- The names of a collection's modes by their ids. -/
def modeNames (collection : Datum) : Outcome (Table Datum Datum) := do
  let rows ← (← (← collection.fieldOr "modes" (.list [])).items).mapM fun m => do
    let id ← m.get "modeId"
    let name ← m.get "name"
    return (← id.asKey, name)
  return Table.ofRows rows

/-- The name of a mode; a mode without a name goes by its id. -/
def modeName (names : Table Datum Datum) (mode : Datum) : Outcome Datum :=
  (((names.lookup mode).getD .null).orElse mode).asKey

/-- What is gathered while the variables are read in order. -/
structure Gathered where
  tokens : List Token
  modeValues : Table Datum (Table String Datum)
  edges : List TokenEdge

/-- The tables that variables are read with. -/
structure Context where
  vars : Token.Variables
  collections : Token.Collections
  maxDepth : Datum
  names : Table Datum Datum

/-- The values of a variable by mode, so far. -/
structure Modes where
  values : Table Datum Datum
  rawDefault : Datum

/-- The name of the variable that a value is an alias of. -/
def aliasName (ctx : Context) (value : Datum) : Outcome (Option Datum) := do
  if Token.isAlias value then return ctx.names.lookup (← (Token.aliasTarget value).asKey)
  return none

/-- A variable that is being read: its id and name, and the names and the default of its modes. -/
structure Reading where
  id : Datum
  name : Datum
  modeNames : Table Datum Datum
  defaultMode : Datum

/-- Reads one mode of a variable. -/
def readMode (ctx : Context) (var : Reading) (state : Gathered × Modes) (mode : String)
    (raw : Datum) : Run (Gathered × Modes) := do
  let (gathered, modes) := state
  let result ← Token.resolve ctx.vars ctx.collections ctx.maxDepth var.id (.text mode)
  let value ← Token.tokenValue result.value
  let label ← modeName var.modeNames (.text mode)
  let key ← var.name.asKey
  let row := ((gathered.modeValues.lookup label).getD []).set key.shown value
  let gathered := { gathered with modeValues := gathered.modeValues.set label row }
  let modes : Modes :=
    ⟨modes.values.set label value,
      if var.defaultMode.isThe mode then result.value else modes.rawDefault⟩
  match ← aliasName ctx raw with
  | some target =>
    let edges := Token.addEdge gathered.edges ⟨var.name, target, "alias"⟩
    return ({ gathered with edges }, modes)
  | none => return (gathered, modes)

def given (d : Datum) : Option Datum := if d.isTruthy then some d else none

/-- Reads one variable. -/
def readVariable (ctx : Context) (gathered : Gathered) (id var : Datum) : Run Gathered := do
  let name := (ctx.names.lookup id).getD .null
  let type ← var.fieldOr "resolvedType" (.text "")
  let collection ← Token.collectionOf ctx.collections var
  let names ← modeNames collection
  let preferred ← collection.fieldOr "defaultModeId" (.text "")
  let defaultMode ← Token.modeFor var preferred ctx.collections
  let values ← Token.valuesOf var
  let (gathered, modes) ← values.foldlM (fun state (mode, raw) =>
    readMode ctx ⟨id, name, names, defaultMode⟩ state mode raw) (gathered, ⟨[], .null⟩)
  let kind ← Token.kindOf name (← var.get "scopes") modes.rawDefault type
  let label ← modeName names defaultMode
  let text ← name.textMember
  let token : Token :=
    { name := text
      semanticName := Token.pathName text kind
      value := (modes.values.lookup label).getD (.text "")
      kind := kind
      modes := modes.values
      variableId := id
      collection := given (← collection.get "name")
      description := given (← var.get "description")
      aliasOf := ← aliasName ctx (← Token.valueIn var defaultMode) }
  return { gathered with tokens := gathered.tokens ++ [token] }

/-- The names of variables by their ids; a variable without a name goes by its id. -/
def variableNames (vars : Token.Variables) : Outcome (Table Datum Datum) :=
  vars.mapM fun (id, v) => return (id, (← v.get "name").orElse id)

/-- The tokens of a table of variables, used by the nodes of the given walks. -/
def build (vars : Token.Variables) (collections : Token.Collections)
    (walks : Outcome (List Walked)) (maxDepth : Datum) : Run TokenSet := do
  let names ← variableNames vars
  let ctx : Context := ⟨vars, collections, maxDepth, names⟩
  let gathered ← vars.foldlM (fun g (id, v) => readVariable ctx g id v) ⟨[], [], []⟩
  let derived ← Token.derivedEdges gathered.tokens
  let usage ← Token.usageOf names (← walks)
  return ⟨gathered.tokens, gathered.modeValues, gathered.edges ++ derived, usage⟩

/-- The names of modes that are no texts. -/
def oddModes (s : TokenSet) : List Datum := (s.modeValues.map (·.1)).filter (!·.isText)

def toDatum (s : TokenSet) : Datum :=
  .record
    [("version", .text version),
     ("tokens", .list (s.tokens.map Token.toDatum)),
     ("modeValues", Datum.ofTable (s.modeValues.map fun (mode, row) => (mode, .record row))),
     ("tokenGraph", .record
       [("nodes", .list (s.tokens.map fun t => .text t.name)),
        ("edges", .list (s.edges.map Token.edgeDatum))]),
     ("tokenUsage", .record (s.usage.map fun (name, users) => (name, .list users)))]

end TokenSet

end Maquette
