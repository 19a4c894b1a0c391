/-
Files held in memory, and acts carried out on them. A workspace is a working folder with the files
and folders in it; a desk is a workspace together with what is printed and noted there and the
replies that the service is going to give.
-/
import Maquette.Act

namespace Maquette

/-! ## Places -/

/-- The steps from the working folder, or from the root, to a file or folder. -/
abbrev Place := List String

/-- The files and folders below the working folder. Every folder on the way to a file exists. -/
structure Workspace where
  files : Table Place String
  folders : List Place

/-- What is at a place. -/
inductive Spot where
  | folder
  | file (text : String)
  | vacant

namespace Workspace

def blank : Workspace := ⟨[], []⟩

/-- Whether one place is on the way to another. -/
def leadsTo (a b : Place) : Bool := a.length < b.length && b.take a.length == a

/-- Whether a place is a folder: the working folder, those above it, the root, and all that lead to
something. -/
def isFolder (w : Workspace) (p : Place) : Bool :=
  p.all (· == "..") || p == ["/"] || w.folders.contains p ||
    w.files.any (fun (f, _) => leadsTo p f) || w.folders.any (leadsTo p)

def spot (w : Workspace) (p : Place) : Spot :=
  if w.isFolder p then .folder
  else
    match w.files.lookup p with
    | some text => .file text
    | none => .vacant

/-- The place that a step leads to from a folder. -/
def after (p : Place) (step : String) : Place :=
  if Path.isIdle step then p
  else if step != ".." then p ++ [step]
  else if p == ["/"] then p
  else if p.all (· == "..") then p ++ [step]
  else p.dropLast

/-- The greatest size of a name in bytes. -/
def longestName : Nat := 255

/-- The greatest size of a path in bytes. -/
def longestPath : Nat := 4095

/-- Follows the steps of a path; all places but the last have to be folders. -/
def walk (w : Workspace) (path : String) : Place → List String → Outcome Place
  | p, [] => .ok p
  | p, step :: rest =>
    match w.spot p with
    | .file _ => .error (.notADirectory path)
    | .vacant => .error (.noFile path)
    | .folder =>
      if longestName < step.utf8ByteSize then .error (.longName path)
      else walk w path (after p step) rest

/-- Where a path begins. -/
def start (path : String) : Place := if Path.isAbsolute path then ["/"] else []

/-- The place of a path. -/
def locate (w : Workspace) (path : String) : Outcome Place :=
  if path.isEmpty then .error (.noFile path)
  else if path.toList.contains '\x00' then .error .nulInPath
  else if longestPath < path.utf8ByteSize then .error (.longName path)
  else w.walk path (start path) (Path.steps path)

/-! ## Operations -/

/-- The text of a file. -/
def read (w : Workspace) (path : String) : Outcome String := do
  match w.spot (← w.locate path) with
  | .folder => throw (.aDirectory path)
  | .file text => return text
  | .vacant => throw (.noFile path)

/-- Whether something is at a place. -/
def isTaken (w : Workspace) (p : Place) : Bool :=
  match w.spot p with
  | .vacant => false
  | _ => true

/-- Whether there is a file or a folder; names that are too long cannot be asked for. -/
def isThere (w : Workspace) (path : String) : Outcome Bool :=
  match w.locate path with
  | .ok p => .ok (w.isTaken p)
  | .error (.longName path) => .error (.longName path)
  | .error _ => .ok false

/-- Writes a file in a folder that is there. -/
def write (w : Workspace) (path text : String) : Outcome Workspace := do
  let p ← w.locate path
  match w.spot p with
  | .folder => throw (.aDirectory path)
  | _ => return { w with files := Table.set w.files p text }

/-- Makes the folders of a path that are not there. -/
def makeFrom (path : String) : Workspace → Place → List String → Outcome Workspace
  | w, p, [] =>
    match w.spot p with
    | .folder => .ok w
    | .file _ => .error (.fileInTheWay path)
    | .vacant => .ok { w with folders := w.folders ++ [p] }
  | w, p, step :: rest =>
    if Path.isIdle step then makeFrom path w p rest
    else if step.toList.contains '\x00' then .error .nulInPath
    else
      match w.spot p with
      | .file _ => .error (.notADirectory path)
      | .folder =>
        if longestName < step.utf8ByteSize then .error (.longName path)
        else makeFrom path w (after p step) rest
      | .vacant =>
        if longestName < step.utf8ByteSize then .error (.longName path)
        else makeFrom path { w with folders := w.folders ++ [p] } (after p step) rest

def makeFolder (w : Workspace) (path : String) : Outcome Workspace :=
  if path.isEmpty then .error (.noFile path)
  else if longestPath < path.utf8ByteSize then .error (.longName path)
  else makeFrom path w (start path) (Path.steps path)

/-- Puts a file into the workspace, with all folders on its way. -/
def put (w : Workspace) (path text : String) : Workspace :=
  { w with files := Table.set w.files ((Path.steps path).foldl after (start path)) text }

def ofFiles (files : List (String × String)) : Workspace :=
  files.foldl (fun w (path, text) => w.put path text) blank

/-- The files below the working folder by their paths, in the order of these. -/
def listing (w : Workspace) : List (String × String) :=
  let inside := w.files.filter fun (p, _) => p.head? != some "/" && p.head? != some ".."
  (inside.map fun (p, text) => ("/".intercalate p, text)).mergeSort fun a b => a.1 ≤ b.1

end Workspace

/-! ## Desks -/

/-- What acts are carried out on in memory. -/
structure Desk where
  workspace : Workspace
  printed : String := ""
  notices : List Notice := []
  replies : List Reply := []
  questions : List Question := []

namespace Desk

/-- What the service says when it has no more replies. -/
def silence : Reply := .failure "no scripted answer"

def say (desk : Desk) (line : String) : Desk := { desk with printed := desk.printed ++ line ++ "\n" }

/-- Carries out a change of the workspace that may fault. -/
def change (desk : Desk) (outcome : Outcome Workspace) : Outcome Unit × Desk :=
  match outcome with
  | .ok w => (.ok (), { desk with workspace := w })
  | .error f => (.error f, desk)

/-- The next reply of the service. -/
def reply (desk : Desk) (question : Question) : Reply × Desk :=
  (desk.replies.head?.getD silence,
    { desk with replies := desk.replies.tail, questions := desk.questions ++ [question] })

end Desk

/-- Carries out an act at a desk. -/
def Act.run : Act α → Desk → α × Desk
  | .done a, desk => (a, desk)
  | .say line next, desk => next.run (desk.say line)
  | .note n next, desk => next.run { desk with notices := desk.notices ++ [n] }
  | .read path next, desk => (next (desk.workspace.read path)).run desk
  | .isThere path next, desk => (next (desk.workspace.isThere path)).run desk
  | .write path text next, desk =>
    let (outcome, desk) := desk.change (desk.workspace.write path text)
    (next outcome).run desk
  | .folder path next, desk =>
    let (outcome, desk) := desk.change (desk.workspace.makeFolder path)
    (next outcome).run desk
  | .ask question next, desk =>
    let (reply, desk) := desk.reply question
    (next reply).run desk

end Maquette
