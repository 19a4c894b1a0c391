/-
What a command does, as a value: a tree of the steps it takes towards the outside, each with what
follows it. Files are read and written, folders are made, lines are printed, notices are left and the
design service is asked; whoever carries out the tree supplies the answers.
-/
import Maquette.Notice
import Maquette.Path

namespace Maquette

/-! ## The service -/

/-- A question to the design service. -/
structure Question where
  url : String
  token : Datum

/-- What comes back from the service: a status with a text, or nothing. -/
inductive Reply where
  | answer (status : Int) (reason body : String)
  | failure (message : String)

/-! ## Acts -/

/-- A command's steps towards the outside. -/
inductive Act (α : Type) where
  | done (a : α)
  | say (line : String) (next : Act α)
  | note (notice : Notice) (next : Act α)
  | read (path : String) (next : Outcome String → Act α)
  | isThere (path : String) (next : Outcome Bool → Act α)
  | write (path text : String) (next : Outcome Unit → Act α)
  | folder (path : String) (next : Outcome Unit → Act α)
  | ask (question : Question) (next : Reply → Act α)

namespace Act

/-- One act after another. -/
def bind : Act α → (α → Act β) → Act β
  | done a, f => f a
  | say line next, f => say line (bind next f)
  | note notice next, f => note notice (bind next f)
  | read path next, f => read path fun r => bind (next r) f
  | isThere path next, f => isThere path fun r => bind (next r) f
  | write path text next, f => write path text fun r => bind (next r) f
  | folder path next, f => folder path fun r => bind (next r) f
  | ask question next, f => ask question fun r => bind (next r) f

instance : Monad Act where
  pure := done
  bind := bind

/-- Leaves notices in order. -/
def notes : List Notice → Act Unit
  | [] => done ()
  | n :: rest => note n (notes rest)

end Act

/-! ## Jobs -/

/-- An act that may fault. -/
abbrev Job := ExceptT Fault Act

namespace Job

instance : MonadLift Run Job :=
  ⟨fun r => ExceptT.mk do
    let (outcome, notices) := r.exec
    Act.notes notices
    return outcome⟩

def say (line : String) : Job Unit := ExceptT.mk (.say line (.done (.ok ())))

def note (n : Notice) : Job Unit := ExceptT.mk (.note n (.done (.ok ())))

def isThere (path : String) : Job Bool := ExceptT.mk (.isThere path .done)

def write (path text : String) : Job Unit := ExceptT.mk (.write path text .done)

def folder (path : String) : Job Unit := ExceptT.mk (.folder path .done)

def ask (question : Question) : Job Reply := ExceptT.mk (.ask question fun r => .done (.ok r))

/-- The end of a line however it is written. -/
def plainLines : List Char → List Char
  | '\r' :: '\n' :: rest => '\n' :: plainLines rest
  | '\r' :: rest => '\n' :: plainLines rest
  | c :: rest => c :: plainLines rest
  | [] => []

/-- The text of a file. -/
def read (path : String) : Job String := do
  let text ← ExceptT.mk (.read (Path.tidy path) .done)
  return String.ofList (plainLines text.toList)

/-- The document in a file. -/
def readDocument (path : String) : Job Datum := do
  match Datum.read (← read path) with
  | .ok d => return d
  | .error e => throw (.ofReadError .unreadable e)

end Job

end Maquette
