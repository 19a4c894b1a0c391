/-
The command line of the program: its commands, their flags and operands, and the request that a
command line makes.
-/
import Maquette.CommandLine.Help
import Maquette.Settings

namespace Maquette.CommandLine

/-! ## Requests -/

/-- What may be said about where a design comes from and where files go. -/
structure Choices where
  nodeId : Option String
  output : Option String
  projectTokens : Option String
  deriving DecidableEq, Repr

/-- What is to be done. -/
inductive Task where
  | generate (url fileKey : Option String) (choices : Choices)
  | compile (path : String) (choices : Choices)
  | watch (path : String) (choices : Choices)
  | inspect (path : String) (nodeId : Option String)
  | tokens (path : String) (out output : Option String)
  deriving DecidableEq, Repr

/-- A task and the settings file that goes with it. -/
structure Request where
  settings : String
  task : Task
  deriving DecidableEq, Repr

/-- The outcome of a command line that makes no request: a text and an exit code. -/
structure Refusal where
  code : Nat
  text : Option String
  deriving DecidableEq, Repr

/-! ## Grammars -/

def programName : String := "figma-codegen"

def versionText : String := programName ++ " 0.1.0"

def helpFlag : Flag := ⟨["-h", "--help"], none, "show this help message and exit", .help⟩

def valueFlag (name placeholder note : String) : Flag := ⟨[name], some placeholder, note, .option⟩

def nodeFlag (note : String) : Flag := valueFlag "--node-id" "NODE_ID" note

def outputFlag : Flag := valueFlag "--output" "OUTPUT" "Output directory"

def tokensFlag : Flag :=
  valueFlag "--project-tokens" "PROJECT_TOKENS" "Project token catalog JSON"

/-- The commands. -/
inductive Command where
  | generate
  | compile
  | watch
  | inspect
  | tokens
  deriving DecidableEq, Repr

namespace Command

def all : List Command := [generate, compile, watch, inspect, tokens]

def name : Command → String
  | generate => "generate"
  | compile => "compile"
  | watch => "watch"
  | inspect => "inspect"
  | tokens => "tokens"

def note : Command → String
  | generate => "Figma REST → component files"
  | compile => "Offline export → component files"
  | watch => "Recompile when the export changes"
  | inspect => "Preview IRS tree and archetype"
  | tokens => "Write token CSS bundle"

def named? (s : String) : Option Command := all.find? fun c => c.name == s

def flags : Command → List Flag
  | generate =>
    [helpFlag, valueFlag "--file-key" "FILE_KEY" "Figma file key",
     nodeFlag "Component node id (e.g. 1:2)", outputFlag, tokensFlag]
  | compile => [helpFlag, nodeFlag "Component node id inside the export", outputFlag, tokensFlag]
  | watch => [helpFlag, nodeFlag "Component node id inside the export", outputFlag, tokensFlag]
  | inspect => [helpFlag, nodeFlag "Component node id inside the export"]
  | tokens => [helpFlag, valueFlag "--out" "OUT" "Output CSS path", outputFlag]

def grammar (c : Command) : Grammar := ⟨c.flags, if c = generate then .perhaps else .one⟩

def manual (c : Command) : Manual :=
  let program := programName ++ " " ++ c.name
  if c = generate then
    { program, usage := ["[url]"], operands := [(2, "url", "Figma design URL with node-id")] }
  else { program, usage := ["export"], operands := [(2, "export", "Export JSON path")] }

end Command

/-- The command line as a whole: a command among flags of its own. -/
def grammar : Grammar :=
  ⟨[helpFlag, ⟨["--config", "-c"], some "CONFIG", "Config path", .option⟩,
    ⟨["--verbose"], none, "Debug logging", .option⟩,
    ⟨["--version", "-v"], none, "show program's version number and exit", .version⟩], .command⟩

def commandList : String := "\x7b" ++ ",".intercalate (Command.all.map Command.name) ++ "\x7d"

def manual : Manual :=
  { program := programName
    description := ["Figma component → React/TypeScript code generator"]
    usage := [commandList, "..."]
    operands := (2, commandList, "") :: Command.all.map fun c => (4, c.name, c.note)
    closing :=
      ["figma-codegen CLI — Figma component → React code", "",
       "  figma-codegen generate <figma-url>        # REST → component files",
       "  figma-codegen compile export.json         # offline export → component files",
       "  figma-codegen watch export.json           # recompile on export change",
       "  figma-codegen inspect export.json         # IRS tree / archetype preview",
       "  figma-codegen tokens export.json          # token CSS bundle only"] }

/-! ## Reading -/

/-- The refusal that a stop amounts to. -/
def Refusal.ofStop (helpText : String) : Stop → Refusal
  | .help => ⟨0, some helpText⟩
  | .version => ⟨0, some versionText⟩
  | .misuse => ⟨2, none⟩

/-- The task of a command with the given options and operand. -/
def Command.task (c : Command) (options : Table String String) (operand : Option String) : Task :=
  let option (name : String) : Option String := options.lookup name
  let choices : Choices := ⟨option "--node-id", option "--output", option "--project-tokens"⟩
  let path := operand.getD ""
  match c with
  | generate => .generate operand (option "--file-key") choices
  | compile => .compile path choices
  | watch => .watch path choices
  | inspect => .inspect path (option "--node-id")
  | tokens => .tokens path (option "--out") (option "--output")

/-- The request that a command line makes. -/
def Request.read (args : List String) : Except Refusal Request := do
  let wholeHelp := help grammar manual
  let whole ← (grammar.parse args).mapError (Refusal.ofStop wholeHelp)
  match whole.operand with
  | none => throw (if whole.extras.isEmpty then ⟨1, some wholeHelp⟩ else ⟨2, none⟩)
  | some name =>
    match Command.named? name with
    | none => throw ⟨2, none⟩
    | some c =>
      let own ← (c.grammar.parse whole.tail).mapError (Refusal.ofStop (help c.grammar c.manual))
      if !(whole.extras ++ own.extras).isEmpty then throw ⟨2, none⟩
      let settings := (whole.options.lookup "--config").getD Settings.defaultPath
      return ⟨settings, c.task own.options own.operand⟩

end Maquette.CommandLine
