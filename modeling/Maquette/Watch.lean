/-
Watching: the component of an export is built again whenever one of the files it is made from
changes. Changes that follow one another too fast count as one: a change is taken up only when enough
time has passed since the last one that was.
-/
import Maquette.Build

namespace Maquette

/-! ## Changes in quick succession -/

/-- How much time has to pass between changes, and when the last one was taken up, in seconds. -/
structure Debounce where
  gap : Float
  last : Float := 0.0

namespace Debounce

/-- Whether a change at a time is taken up. -/
def accepts (d : Debounce) (time : Float) : Bool := !(time - d.last < d.gap)

/-- After a change at a time. -/
def after (d : Debounce) (time : Float) : Debounce :=
  if d.accepts time then { d with last := time } else d

/-- Which changes at the given times are taken up. -/
def accepted (d : Debounce) : List Float → List Float
  | [] => []
  | time :: rest =>
    if d.accepts time then time :: accepted (d.after time) rest else accepted (d.after time) rest

end Debounce

/-! ## Watches -/

/-- A file or folder that has changed, and when. -/
structure Change where
  path : String
  isFolder : Bool
  time : Float

/-- A watch on an export and on the project's tokens. -/
structure Watch where
  path : String
  nodeId : Datum
  settings : Settings
  watched : List String
  debounce : Debounce

namespace Watch

/-- A watch on the files of an export under its settings. -/
def of (path : String) (nodeId : Datum) (s : Settings) : Outcome Watch := do
  let tokens ← if s.projectTokens.isTruthy then do
      pure [← Settings.pathOf s.projectTokens]
    else pure []
  return { path, nodeId, settings := s, watched := path :: tokens, debounce := { gap := s.debounce } }

/-- Builds the component; a foreseen fault is told and the watch goes on. -/
def build (w : Watch) : Job Unit := do
  try Build.run (← Design.load w.path w.nodeId) w.settings
  catch f =>
    if f.isForeseen then Job.say ("   ❌ Compile failed: " ++ f.systemMessage) else throw f

/-- The beginning of a watch, with a first build. -/
def start (w : Watch) : Job Unit := do
  Job.say ("👀 Watching " ++ ", ".intercalate w.watched)
  Job.say "   Press Ctrl+C to stop."
  w.build

/-- Whether a change is one of a watched file. -/
def concerns (w : Watch) (c : Change) : Bool :=
  !c.isFolder && (w.watched.map Path.normal).contains (Path.normal c.path)

/-- What is done about a change, and the watch after it. A build that ends in a fault which was not
foreseen says nothing. -/
def onChange (w : Watch) (c : Change) : Act Watch := do
  if w.concerns c && w.debounce.accepts c.time then
    Act.say ("\n🔄 File changed: " ++ c.path) (pure ())
    let _ ← w.build.run
    return { w with debounce := w.debounce.after c.time }
  else return w

/-- The end of a watch. -/
def stop : Job Unit := Job.say "\n👋 Stopping watch..."

end Watch

end Maquette
