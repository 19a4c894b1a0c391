/-
The design service: what is asked of it for a node and for the variables of a file, and what its
replies give.
-/
import Maquette.Act
import Maquette.Design.Address
import Maquette.Design.Basic

namespace Maquette.Service

/-! ## Questions -/

def host : String := "https://api.figma.com"

/-- How long a reply is waited for, in seconds. -/
def patience : Float := 30.0

/-- The address of some nodes of a file. -/
def nodesUrl (fileKey : Datum) (ids : String) : String :=
  host ++ Url.target ("/v1/files/" ++ fileKey.shown ++ "/nodes") ("ids=" ++ Percent.encodeForm ids)

/-- The address of the variables of a file. -/
def variablesUrl (fileKey : Datum) : String :=
  host ++ Url.target ("/v1/files/" ++ fileKey.shown ++ "/variables/local") ""

/-! ## Replies -/

/-- A text without the mark of byte order that may stand in front of it. -/
def unmarked (s : String) : String :=
  match s.toList with
  | '\ufeff' :: c :: rest => String.ofList (c :: rest)
  | _ => s

/-- The document of a reply, unless the service refuses. -/
def documentOf (url : String) : Reply → Outcome Datum
  | .failure message => .error (.unreachable message)
  | .answer status reason body =>
    if 400 ≤ status ∧ status < 600 then .error (.refused status reason url)
    else
      match Datum.read (unmarked body) with
      | .ok d => .ok d
      | .error e => .error (.ofReadError .garbled e)

/-- The entry of a node in a reply. -/
def nodeOf (reply fileKey nodeId : Datum) : Outcome Datum := do
  let missing : Fault :=
    .missing (quoteText s!"node {nodeId.shown} not found in file {fileKey.shown}")
  let entries ← ((← reply.get "nodes").orElse .empty).fields
  let entry := match ← nodeId.asKey with
    | .text id => (entries.lookup id).getD .null
    | _ => .null
  if !entry.isTruthy then throw missing
  let document ← entry.get "document"
  if !document.isTruthy then throw missing
  return document

/-- Whether a reply forbids the use of variables. -/
def forbids : Reply → Bool
  | .answer status _ _ => status == 403
  | .failure _ => false

/-- The variables and collections in a reply. -/
def tablesOf (reply : Datum) : Outcome (Datum × Datum) := do
  let info := (← reply.get "meta").orElse .empty
  return ((← info.get "variables").orElse .empty, (← info.get "variableCollections").orElse .empty)

/-! ## Use -/

/-- What the service says about some nodes of a file. -/
def fileNodes (token fileKey nodeIds : Datum) : Job Datum := do
  let ids ← (do Datum.joinItems "," (← nodeIds.items) : Outcome String)
  let url := nodesUrl fileKey ids
  (documentOf url (← Job.ask ⟨url, token⟩) : Outcome Datum)

/-- A node with all below it. -/
def node (token fileKey nodeId : Datum) : Job Datum := do
  let reply ← fileNodes token fileKey (.list [nodeId])
  (nodeOf reply fileKey nodeId : Outcome Datum)

/-- The variables and collections of a file; there are none where their use is forbidden. -/
def localVariables (token fileKey : Datum) : Job (Datum × Datum) := do
  let url := variablesUrl fileKey
  let reply ← Job.ask ⟨url, token⟩
  if forbids reply then
    Job.note (.variablesRefused fileKey.shown)
    return (.empty, .empty)
  (do tablesOf (← documentOf url reply) : Outcome (Datum × Datum))

/-- A design fetched from the service. -/
def fetch (token fileKey nodeId : Datum) : Job Design := do
  let document ← node token fileKey nodeId
  let (vars, collections) ← localVariables token fileKey
  let id ← (nodeId.textMember : Outcome String)
  return {
    document, vars, collections := .given collections, fileKey
    url := .text (Design.Address.write fileKey.shown id) }

end Maquette.Service
