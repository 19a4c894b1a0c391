/-
What is reported without stopping the work, by cause, and the wording of each cause. A run collects
its notices in order, also when it ends in a fault.
-/
import Maquette.Datum.Access

namespace Maquette

/-- Something worth telling that does not stop the work. -/
inductive Notice where
  /-- The variable to be resolved is not in the table. -/
  | unknownVariable (id : String)
  /-- A chain of aliases is longer than allowed. -/
  | longChain (id mode : String) (depth : Int) (chain : List String)
  /-- A chain of aliases comes back to one of its variables. -/
  | aliasCycle (id mode : String) (chain : List String)
  /-- An alias points at a variable that is not in the table. -/
  | danglingAlias (target id mode : String)
  /-- A token's alias has no value to show in a style sheet. -/
  | unresolvedToken (name : Datum)
  /-- A component kind has no template of its own and is not a known kind. -/
  | unknownArchetype (category : Datum)
  /-- The service refuses the variables of a file. -/
  | variablesRefused (file : String)
  /-- The settings hold a section that is not known. -/
  | unknownSection (name : String) (known : List String)
  /-- A section of the settings is no record. -/
  | sectionKind (name kind : String)
  /-- A section holds a key that is not known. -/
  | unknownSetting (sectionName key : String) (known : List String)
  /-- A setting is of the wrong kind. -/
  | settingKind (sectionName key kind : String)
  /-- The allowed length of alias chains is below one. -/
  | smallDepth (shown : String)
  /-- The file of project tokens does not exist. -/
  | noTokenFile (path : String)
  /-- The settings file holds no record. -/
  | settingsFile (path : String)
  /-- The file of project tokens holds no list. -/
  | tokenFile (path : String)

namespace Notice

def arrows (chain : List String) : String := " -> ".intercalate chain

/-- The wording of a notice. -/
def message : Notice → String
  | unknownVariable id => s!"Variable {id} not found; leaving unresolved"
  | longChain id mode depth chain =>
    s!"Alias chain for {id} (mode {mode}) exceeds depth {depth}: {arrows chain}"
  | aliasCycle id mode chain => s!"Cyclic alias for {id} (mode {mode}): {arrows chain}"
  | danglingAlias target id mode => s!"Alias target {target} of {id} (mode {mode}) not found"
  | unresolvedToken name => s!"Token {name.quoted} has an unresolved alias; skipped in CSS bundle"
  | unknownArchetype category =>
    s!"Unknown archetype {category.quoted}; falling back to the generic container template"
  | variablesRefused file =>
    s!"Variables API returned 403 for file {file}; continuing without variables"
  | unknownSection name known =>
    "[config] 未知頂層欄位 '" ++ name ++ "'（已知欄位：" ++ ", ".intercalate known ++ "）"
  | sectionKind name kind => s!"[config] [{name}] 應為 JSON 物件，目前是 {kind}"
  | unknownSetting sectionName key known =>
    "[config] [" ++ sectionName ++ "] 未知欄位 '" ++ key ++ "'（已知欄位：" ++
      ", ".intercalate known ++ "）"
  | settingKind sectionName key kind => s!"[config] {sectionName}.{key} 型別不符，目前是 {kind}"
  | smallDepth shown => s!"[config] tokens.maxAliasDepth 應 >= 1，目前是 {shown}"
  | noTokenFile path => s!"[config] tokens.projectTokens '{path}' 不存在"
  | settingsFile path => s!"[config] '{path}' 格式錯誤，應為 JSON 物件，回傳空設定。"
  | tokenFile path => s!"[config] '{path}' 應為 token 陣列，忽略。"

end Notice

/-! ## Runs -/

/-- A computation that may fault and leaves notices behind either way. -/
abbrev Run := ExceptT Fault (StateM (List Notice))

namespace Run

instance : MonadLift Outcome Run := ⟨fun o => ExceptT.mk (pure o)⟩

/-- Leaves a notice. -/
def note (n : Notice) : Run Unit := modify (· ++ [n])

/-- The result of a run and its notices in order. -/
def exec (r : Run α) : Outcome α × List Notice := (ExceptT.run r).run []

end Run

end Maquette
