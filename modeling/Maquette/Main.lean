/-
The program: acts are carried out on the files of the system, notices go to the error output, and a
watch looks at its files once a second. The service cannot be reached from here, so a design has to
come from an export.
-/
import Maquette.CommandLine.Run

namespace Maquette.Outside

/-- The fault that an error of the system is. -/
def faultOf (path : String) : IO.Error → Fault
  | .noFileOrDirectory .. => .noFile path
  | .alreadyExists .. => .fileInTheWay path
  | .inappropriateType .. => .aDirectory path
  | _ => .notADirectory path

/-- The outcome of an operation on a path. -/
def attempt (path : String) (work : IO α) : IO (Outcome α) := do
  try return .ok (← work)
  catch e => return .error (faultOf path e)

/-- Whether there is a file or a folder. -/
def isThere (path : String) : IO (Outcome Bool) := do
  try
    let _ ← IO.FS.Handle.mk path .read
    return .ok true
  catch _ => return .ok false

/-- What stands for a reply of the service. -/
def silence : Reply := .failure "the design service cannot be reached"

/-- Carries out an act on the system. -/
def perform : Act α → IO α
  | .done a => return a
  | .say line next => do
    IO.println line
    perform next
  | .note n next => do
    IO.eprintln ("WARNING " ++ n.message)
    perform next
  | .read path next => do perform (next (← attempt path (IO.FS.readFile path)))
  | .isThere path next => do perform (next (← isThere path))
  | .write path text next => do perform (next (← attempt path (IO.FS.writeFile path text)))
  | .folder path next => do perform (next (← attempt path (IO.FS.createDirAll path)))
  | .ask _ next => perform (next silence)

/-- The text of a file, if it is there. -/
def textOf (path : String) : IO (Option String) := do
  return (← attempt path (IO.FS.readFile path)).toOption

/-- The time in seconds. -/
def now : IO Float := return (← IO.monoMsNow).toFloat / 1000.0

/-- One look at the watched files; a file that has changed since the last look is a change. -/
def look (w : Watch) (seen : List (Option String)) : IO (Watch × List (Option String)) := do
  let current ← w.watched.mapM textOf
  let changed := (w.watched.zip (current.zip seen)).filter fun (_, new, old) => new != old
  let w ← changed.foldlM (fun (w : Watch) (path, _) => do
    perform (w.onChange ⟨path, false, ← now⟩)) w
  return (w, current)

/-- Looks at the watched files until the program is ended from outside. -/
partial def keepWatch (w : Watch) (seen : List (Option String)) : IO Unit := do
  IO.sleep 1000
  let (w, seen) ← look w seen
  keepWatch w seen

end Maquette.Outside

open Maquette in
def main (args : List String) : IO UInt32 := do
  let token ← IO.getEnv "FIGMA_TOKEN"
  match ← Outside.perform (CommandLine.run token args).run with
  | .ok (.exit code) => return code.toUInt32
  | .ok (.watching w) =>
    Outside.keepWatch w (← w.watched.mapM Outside.textOf)
    return 0
  | .error f =>
    IO.eprintln f.message
    return 1
