/-
The files of a compiled design: which ones there are, where each goes, and writing them.
-/
import Maquette.Act
import Maquette.Compiled
import Maquette.Datum.Writer

namespace Maquette

/-- Where the files of a component go, and which of those that may be left out are wanted. -/
structure Delivery where
  output : String
  /-- The folder for the documents, if not inside the component's own; an empty path is none. -/
  snapshots : Option String
  writesPage : Bool := true
  writesSheet : Bool := true

namespace Delivery

/-- The folder of a component. -/
def folder (d : Delivery) (name : String) : String := Path.join d.output name

/-- The folder of a component's documents. -/
def documentFolder (d : Delivery) (name : String) : String :=
  (d.snapshots.filter (!·.isEmpty)).getD (Path.join (d.folder name) ".ir")

/-- The generated files of a component, in the order in which they are written. -/
def sources (d : Delivery) (c : Compiled) : List (String × String) :=
  let file (suffix text : String) : String × String :=
    (Path.join (d.folder c.name) (c.name ++ suffix), text)
  [file ".tsx" c.files.component, file ".types.ts" c.files.types,
   file ".styles.css" c.files.styles, file ".stories.tsx" c.files.story] ++
  (if d.writesPage then [file ".mdx" c.page] else []) ++
  (if d.writesSheet then [(Path.join (d.folder c.name) "tokens.css", c.sheet)] else [])

/-- The documents of a component. -/
def documents (d : Delivery) (c : Compiled) : List (String × String) :=
  [("irs.json", c.outline), ("irt.json", c.tokens), ("iml.json", c.interaction)].map
    fun (name, doc) => (Path.join (d.documentFolder c.name) name, doc.json)

/-- All files of a component. -/
def files (d : Delivery) (c : Compiled) : Outcome (List (String × String)) := do
  let manifest := (Path.join (d.folder c.name) "manifest.json", (← c.manifest).json)
  return d.sources c ++ d.documents c ++ [manifest]

/-- Writes files, each into a folder that is made if it is not there. -/
def writeAll : List (String × String) → Job Unit
  | [] => pure ()
  | (path, text) :: rest => do
    Job.folder (Path.parent path)
    Job.write path text
    writeAll rest

/-- Writes the files of a component and tells their paths. -/
def save (d : Delivery) (c : Compiled) : Job (List String) := do
  let files ← (d.files c : Outcome _)
  writeAll files
  return files.map (·.1)

end Delivery

end Maquette
