/-
Building a component: a design is compiled as the settings say, its files are written, and what came
of it is told in a few lines.
-/
import Maquette.Delivery
import Maquette.Design.Export
import Maquette.Settings

namespace Maquette

/-! ## Faults in words -/

namespace Fault

/-- Whether a fault comes from what a user gave: such faults are told, all others end the program. -/
def isForeseen : Fault → Bool
  | .wrongKind => false
  | .noMember => false
  | .tooLarge => false
  | .noItem => false
  | .aDirectory _ => false
  | .notADirectory _ => false
  | .fileInTheWay _ => false
  | .longName _ => false
  | _ => true

/-- The line that tells of a fault at the end of a command. -/
def line : Fault → String
  | .refused status reason url => "❌ Figma API 錯誤：" ++ refusedText status reason url
  | .unreachable message => "❌ Figma API 錯誤：" ++ message
  | .garbled error => "❌ Figma API 錯誤：" ++ error.message
  | .noFile path => "❌ 找不到檔案：" ++ path
  | .unreadable error => "❌ JSON 格式錯誤：" ++ error.message
  | f => "❌ " ++ f.message

/-- A fault in the words of the system. -/
def systemMessage : Fault → String
  | .noFile path => "[Errno 2] No such file or directory: " ++ quoteText path
  | f => f.message

end Fault

/-! ## Settings and choices -/

/-- A text unless it is missing or empty. -/
def givenText (s : Option String) : Option String := s.filter (!·.isEmpty)

/-- A given text, else a setting. -/
def chosen (s : Option String) (setting : Datum) : Datum :=
  ((givenText s).map Datum.text).getD setting

namespace Settings

/-- Settings under what a command line says about files. -/
def choose (s : Settings) (output projectTokens : Option String) : Settings :=
  { s with
    outputFolder := chosen output s.outputFolder
    projectTokens := chosen projectTokens s.projectTokens }

/-- A setting that has to be a path. -/
def pathOf (d : Datum) : Outcome String :=
  match d with
  | .text s => .ok s
  | _ => .error .wrongKind

/-- Where the files of a component go. -/
def delivery (s : Settings) (name : String) : Outcome Delivery := do
  let snapshots ← if s.snapshotFolder.isTruthy then do
      pure (some (Path.join (← pathOf s.snapshotFolder) name))
    else pure none
  return {
    output := ← pathOf s.outputFolder
    snapshots
    writesPage := s.writesPage
    writesSheet := s.writesSheet }

end Settings

/-! ## Building -/

namespace Build

/-- A design compiled with the project's tokens. -/
def compile (d : Design) (s : Settings) : Job Compiled := do
  let tokens ← Settings.loadTokens s.projectTokens
  (Compiled.ofDesign d { projectTokens := .list tokens, maxDepth := s.maxDepth } : Run Compiled)

/-- How an archetype is told: its name, how sure it is, and what it was told by. -/
def verdictText (intelligence : Datum) : Outcome String := do
  let category ← intelligence.need "category"
  let confidence ← (← (← intelligence.need "confidence").number).twoPlaces
  let evidence ← intelligence.need "detectedFrom"
  return category.shown ++ " (" ++ confidence ++ " via " ++ evidence.shown ++ ")"

/-- The lines that tell of a component and its files. -/
def report (c : Compiled) (written : List String) : Outcome (List String) := do
  let verdict ← verdictText c.intelligence
  let folder := Path.parent (written.headD "")
  let unmatched := c.unmatched.length
  return [s!"   ✅ {c.name}: {verdict}", s!"   📄 {written.length} files → {folder}"] ++
    (if c.files.source = .children then
      ["   ⚠️  No child markup or slots found; component renders \x7bchildren\x7d only."] else []) ++
    (if 0 < unmatched then
      [s!"   ⚠️  {unmatched} variables without a project token match"] else [])

/-- Compiles a design, writes its files and tells of them. -/
def run (d : Design) (s : Settings) : Job Unit := do
  let c ← compile d s
  let delivery ← (s.delivery c.name : Outcome _)
  let written ← delivery.save c
  let lines ← (report c written : Outcome _)
  lines.forM Job.say

end Build

end Maquette
