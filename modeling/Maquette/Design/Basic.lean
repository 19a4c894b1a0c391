/-
Designs: a node with all below it, the variables it may use, and where it is from.
-/
import Maquette.Datum.Access

namespace Maquette

/-- The collections of a design's variables: as they were given, or by the ids of listed ones. -/
inductive Collections where
  | given (d : Datum)
  | listed (table : Table Datum Datum)

namespace Collections

def toDatum : Collections → Datum
  | given d => d
  | listed table => .ofTable table

/-- The table of collections; what was given may be none, or absent. -/
def table : Collections → Outcome (Table Datum Datum)
  | given d => (d.orElse .empty).rows
  | listed table => .ok table

end Collections

/-- A design as it is exported or fetched. -/
structure Design where
  document : Datum
  vars : Datum
  collections : Collections
  fileKey : Datum
  url : Datum

end Maquette
