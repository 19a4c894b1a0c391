/-
Settings: what a settings file may hold, what is noted about one that holds something else, and the
values that are used. A value that cannot be used gives way to its default.
-/
import Maquette.Act

namespace Maquette

namespace Datum

/-- What kind of value this is, in a word. -/
def kindName : Datum → String
  | null => "NoneType"
  | bool _ => "bool"
  | int _ => "int"
  | float _ => "float"
  | text _ => "str"
  | list _ => "list"
  | record _ => "dict"

end Datum

/-- The values in use. What is only passed on is kept as it was written. -/
structure Settings where
  token : Datum
  fileKey : Datum
  nodeId : Datum
  outputFolder : Datum
  snapshotFolder : Datum
  writesPage : Bool
  writesSheet : Bool
  maxDepth : Datum
  projectTokens : Datum
  debounce : Float

namespace Settings

/-! ## What is known -/

/-- What a setting has to be. -/
inductive Kind where
  | text
  | truth
  | count
  | number
  deriving DecidableEq, Repr

/-- Whether a value is of a kind; truth values are no numbers. -/
def Kind.fits : Kind → Datum → Bool
  | .text, .text _ => true
  | .truth, .bool _ => true
  | .count, .int _ => true
  | .number, d => d.isNumber
  | _, _ => false

/-- The sections of a settings file, and the settings in each. -/
def sections : Table String (Table String Kind) :=
  [("figma", [("personalAccessToken", .text), ("fileKey", .text), ("nodeId", .text)]),
   ("output", [("dir", .text), ("snapshotDir", .text), ("docs", .truth), ("tokenCss", .truth)]),
   ("tokens", [("maxAliasDepth", .count), ("projectTokens", .text)]),
   ("watch", [("debounce", .number)])]

/-- The keys of a table in alphabetical order. -/
def sortedKeys (t : Table String α) : List String := (t.map (·.1)).mergeSort fun a b => a ≤ b

/-! ## What is noted -/

/-- Notes a section that is not known. -/
def checkSection (key : Datum) : Run Unit := do
  let key ← key.asKey
  if !(sections.map (·.1)).any key.isThe then
    Run.note (.unknownSection key.shown (sortedKeys sections))

/-- What is to be said about a setting. -/
def settingNotice? (name : String) (known : Table String Kind) (key : String) (value : Datum) :
    Option Notice :=
  match known.lookup key with
  | none => some (.unknownSetting name key (sortedKeys known))
  | some kind => if kind.fits value then none else some (.settingKind name key value.kindName)

/-- Notes all that is wrong within a section. -/
def checkSettings (config : Datum) (name : String) (known : Table String Kind) : Run Unit := do
  match ← config.fieldOr name .empty with
  | .record fields =>
    (fields.filterMap fun (key, value) => settingNotice? name known key value).forM Run.note
  | d => Run.note (.sectionKind name d.kindName)

/-- A setting, null when it or its section is missing. -/
def value (config : Datum) (name key : String) : Datum :=
  (((config.at? name).getD .null).at? key).getD .null

/-- A limit that is too small. -/
def limitNotice? (config : Datum) : Option Notice :=
  let depth := value config "tokens" "maxAliasDepth"
  match depth.number? with
  | some (.int n) => if n < 1 then some (.smallDepth depth.shown) else none
  | _ => none

/-- Notes all that is wrong with a settings file apart from the files it names. -/
def check (config : Datum) : Run Unit := do
  if config.isTruthy then
    (← config.items).forM checkSection
    sections.forM fun (name, known) => checkSettings config name known
    (limitNotice? config).toList.forM Run.note

/-- Notes a file of project tokens that does not exist. -/
def checkTokenFile (config : Datum) : Job Unit := do
  match value config "tokens" "projectTokens" with
  | .text path => if !(← Job.isThere (Path.tidy path)) then Job.note (.noTokenFile path)
  | _ => pure ()

/-- Notes all that is wrong with a settings file. -/
def validate (config : Datum) : Job Unit := do
  check config
  checkTokenFile config

/-! ## What is used -/

/-- A section, empty when it is missing or no record. -/
def sectionOf (config : Datum) (name : String) : Outcome Datum := do
  let found ← (config.orElse .empty).get name
  return if found.isRecord then found else .empty

def defaultFolder : String := "./generated"

/-- A limit on chains of aliases that can be used. -/
def usableDepth (d : Datum) : Datum :=
  match d.number? with
  | some (.int n) => if 1 ≤ n then d else Datum.int 10
  | _ => .int 10

/-- A time between changes that can be used, in seconds. -/
def usableDebounce (d : Datum) : Outcome Float :=
  match d.number? with
  | some n => if Number.le 0 n then n.toFloat else .ok 1.0
  | none => .ok 1.0

/-- The settings that a settings file asks for; the token may also come from the environment. -/
def ofConfig (config : Datum) (environmentToken : Option String) : Outcome Settings := do
  let service ← sectionOf config "figma"
  let output ← sectionOf config "output"
  let tokens ← sectionOf config "tokens"
  let watch ← sectionOf config "watch"
  let fallback := (environmentToken.map Datum.text).getD .null
  let debounce ← usableDebounce (← watch.get "debounce")
  return {
    token := (← service.get "personalAccessToken").orElse fallback
    fileKey := ← service.get "fileKey"
    nodeId := ← service.get "nodeId"
    outputFolder := ← output.fieldOr "dir" (.text defaultFolder)
    snapshotFolder := ← output.get "snapshotDir"
    writesPage := (← output.fieldOr "docs" (.bool true)).isTruthy
    writesSheet := (← output.fieldOr "tokenCss" (.bool true)).isTruthy
    maxDepth := usableDepth (← tokens.get "maxAliasDepth")
    projectTokens := ← tokens.get "projectTokens"
    debounce }

/-! ## Files -/

def defaultPath : String := "figma-codegen.config.json"

/-- The content of a settings file, empty when it does not exist or is no record. -/
def load (path : String) : Job Datum := do
  if !(← Job.isThere (Path.tidy path)) then return .empty
  let config ← Job.readDocument path
  if !config.isRecord then
    Job.note (.settingsFile path)
    return .empty
  validate config
  return config

/-- The tokens of a project that have names: a list, or a record with a list of tokens. -/
def loadTokens (path : Datum) : Job (List Datum) := do
  if !path.isTruthy then return []
  match path with
  | .text name =>
    let doc ← Job.readDocument name
    let listed ← if doc.isRecord then (doc.fieldOr "tokens" (.list []) : Outcome Datum) else pure doc
    match listed with
    | .list items => return items.filter fun t => ((t.at? "name").getD .null).isTruthy
    | _ =>
      Job.note (.tokenFile name)
      return []
  | _ => throw .wrongKind

end Settings

end Maquette
