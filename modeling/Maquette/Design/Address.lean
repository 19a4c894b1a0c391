/-
Addresses of designs: which file of the design service an address names, and which node in it.
-/
import Maquette.Datum.Access
import Maquette.Web.Url

namespace Maquette.Design

/-- A file and perhaps a node in it. -/
structure Address where
  fileKey : String
  nodeId : Option String
  deriving DecidableEq, Repr

/-- The steps of a path that a file's key follows. -/
def fileSteps : List String := ["file", "design", "proto", "board"]

/-- The step after the first one that a key follows. -/
def keyAmong : List String → Option String
  | step :: key :: rest => if fileSteps.contains step then some key else keyAmong (key :: rest)
  | _ => none

/-- A node's id as addresses write it, with dashes for colons, and back. -/
def swapMarks (mark new : Char) (id : String) : String :=
  String.ofList (id.toList.map fun c => if c = mark then new else c)

/-- The file and node that an address names. -/
def Address.read (s : String) : Outcome Address := do
  let url ← Url.read s
  match keyAmong url.steps with
  | none => throw (.notADesign s)
  | some fileKey => return ⟨fileKey, (url.fields.lookup "node-id").map (swapMarks '-' ':')⟩

/-- The address of a node. -/
def Address.write (fileKey nodeId : String) : String :=
  "https://www.figma.com/design/" ++ fileKey ++ "?node-id=" ++ swapMarks ':' '-' nodeId

end Maquette.Design
