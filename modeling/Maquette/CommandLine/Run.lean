/-
What the commands of the program do.
-/
import Maquette.Archetype.Intelligence
import Maquette.CommandLine.Request
import Maquette.Outline.Document
import Maquette.Service
import Maquette.Token.Basic
import Maquette.Token.Sheet
import Maquette.Watch

namespace Maquette.CommandLine

/-- How a command ends: with an exit code, or with a watch that goes on. -/
inductive Ending where
  | exit (code : Nat)
  | watching (w : Watch)

/-! ## Generating -/

/-- The design that is to be fetched: an address outweighs a key and a node, these outweigh the
settings. -/
def wanted (s : Settings) (url fileKey nodeId : Option String) : Outcome (Datum × Datum) := do
  let key := chosen fileKey s.fileKey
  let node := chosen nodeId s.nodeId
  match givenText url with
  | none => return (key, node)
  | some url =>
    let address ← Design.Address.read url
    return (.text address.fileKey, chosen address.nodeId node)

/-- The line that tells why the service refuses a design. -/
def refusalLine (status : Int) (reason url : String) (key : Datum) : String :=
  if status == 403 then "❌ Figma API 403：Token 無效或已過期，請重新產生 FIGMA_TOKEN。"
  else if status == 404 then
    s!"❌ Figma API 404：找不到檔案 '{key.shown}'，請確認 file key 是否正確。"
  else Fault.line (.refused status reason url)

/-- A design from the service, none when the service refuses it. -/
def fetched (s : Settings) (key node : Datum) : Job (Option Design) := do
  try return some (← Service.fetch s.token key node)
  catch f =>
    match f with
    | .refused status reason url =>
      Job.say (refusalLine status reason url key)
      return none
    | f => throw f

/-- Fetches a design and builds its component. -/
def generate (s : Settings) (settingsPath : String) (url fileKey nodeId : Option String) :
    Job Nat := do
  let (key, node) ← (wanted s url fileKey nodeId : Outcome _)
  if !s.token.isTruthy then
    Job.say ("❌ 請設定 FIGMA_TOKEN 環境變數，或在 " ++ settingsPath ++
      " 的 figma.personalAccessToken 設定。")
    Job.say "   取得方式：Figma → Settings → Personal access tokens → 新增"
    return 1
  if !key.isTruthy || !node.isTruthy then
    Job.say "❌ 請提供 Figma URL（含 node-id），或使用 --file-key / --node-id。"
    return 1
  Job.say s!"📥 Fetching {node.shown} from Figma file {key.shown}"
  match ← fetched s key node with
  | none => return 1
  | some design =>
    Build.run { design with url := chosen url design.url } s
    return 0

/-! ## Exports -/

/-- Builds the component of an export. -/
def compile (s : Settings) (path : String) (nodeId : Option String) : Job Nat := do
  Job.say ("🛠️  Compiling " ++ path)
  Build.run (← Design.load path (chosen nodeId s.nodeId)) s
  return 0

/-- What an export shows at a glance. -/
def preview (outline : Datum) : Outcome (List String) := do
  let intelligence ← Archetype.classify outline
  let info ← outline.need "meta"
  let name ← info.need "name"
  let kind ← info.need "componentType"
  let tree ← Outline.previewOf (Walked.ofDatum (← outline.need "tree")) 0
  let verdict ← Build.verdictText intelligence
  let slots ← (← outline.itemsOf "slots").mapM (·.need "name")
  let variants ← outline.itemsOf "variants"
  let count ← (← outline.need "stats").need "nodeCount"
  return [s!"👁️  {name.shown} ({kind.shown})", tree, s!"\nArchetype: {verdict}"] ++
    (if slots.isEmpty then [] else ["Slots: " ++ ", ".intercalate (slots.map Datum.shown)]) ++
    (if variants.isEmpty then [] else [s!"Variants: {variants.length}"]) ++
    [s!"Total nodes: {count.shown}"]

/-- Shows the outline of an export without writing anything. -/
def inspect (path : String) (nodeId : Datum) : Job Nat := do
  let design ← Design.load path nodeId
  let lines ← (do preview (← Outline.ofDatum design.document ⟨design.url, design.fileKey, .null⟩) :
    Outcome _)
  lines.forM Job.say
  return 0

/-- The folder that a file goes into; the working folder when its path names none. -/
def folderOf (path : String) : String :=
  let folder := Path.parent path
  if folder.isEmpty then "." else folder

/-- Writes the style sheet of an export's tokens. -/
def tokens (s : Settings) (path : String) (out : Option String) : Job Nat := do
  let design ← Design.load path .null
  let vars ← (Token.variablesOf design.vars : Outcome _)
  let walks : List Walked := [.ofDatum design.document]
  let set ← (TokenSet.build vars design.collections.table (.ok walks) s.maxDepth : Run _)
  let sheet ← (Token.sheet set.toDatum : Run _)
  let target ← match givenText out with
    | some target => pure target
    | none => do
      let folder ← (Settings.pathOf s.outputFolder : Outcome _)
      pure (Path.join folder "tokens.css")
  Job.folder (folderOf target)
  Job.write target sheet
  Job.say s!"✅ {set.tokens.length} tokens → {target}"
  return 0

/-! ## The program -/

/-- The node that is asked for. Settings that cannot be used are no matter if one is given. -/
def nodeOr (nodeId : Option String) (settings : Outcome Settings) : Outcome Datum :=
  match givenText nodeId with
  | some id => .ok (.text id)
  | none => settings.map Settings.nodeId

/-- Carries out a task under its settings. -/
def Task.run (t : Task) (settings : Outcome Settings) (settingsPath : String) : Job Ending := do
  match t with
  | .generate url fileKey choices =>
    let s := (← settings).choose choices.output choices.projectTokens
    return .exit (← CommandLine.generate s settingsPath url fileKey choices.nodeId)
  | .compile path choices =>
    let s := (← settings).choose choices.output choices.projectTokens
    return .exit (← CommandLine.compile s path choices.nodeId)
  | .watch path choices =>
    let s := (← settings).choose choices.output choices.projectTokens
    let w ← (Watch.of path (chosen choices.nodeId s.nodeId) s : Outcome _)
    w.start
    return .watching w
  | .inspect path nodeId => return .exit (← CommandLine.inspect path (← nodeOr nodeId settings))
  | .tokens path out output =>
    return .exit (← CommandLine.tokens ((← settings).choose output none) path out)

/-- Carries out a request; a foreseen fault is told and ends it. -/
def Request.run (r : Request) (environmentToken : Option String) : Job Ending := do
  try
    let config ← Settings.load r.settings
    r.task.run (Settings.ofConfig config environmentToken) r.settings
  catch f =>
    if f.isForeseen then
      Job.say f.line
      return .exit 1
    else throw f

/-- Carries out a command line. -/
def run (environmentToken : Option String) (args : List String) : Job Ending := do
  match Request.read args with
  | .ok r => r.run environmentToken
  | .error refusal =>
    refusal.text.toList.forM Job.say
    return .exit refusal.code

end Maquette.CommandLine
