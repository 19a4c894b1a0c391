/-
Slots: the places of a component that take content. A layer whose name holds a word of the
vocabulary is a slot; the first of a kind gets the plain name, later ones a name of their own.
-/
import Maquette.Datum.Access

namespace Maquette.Outline

/-- A named place for content. -/
structure Slot where
  name : String
  kind : String
  required : Bool
  nodeId : Datum

namespace Slot

def toDatum (s : Slot) : Datum :=
  .record [("name", .text s.name), ("type", .text s.kind), ("required", .bool s.required),
    ("nodeId", s.nodeId)]

/-- A word of a layer's name, the plain name of the slot it makes, and the slot's kind. -/
structure Word where
  word : String
  base : String
  kind : String

/-- The vocabulary; the first word found decides. -/
def vocabulary : List Word :=
  [⟨"label", "label", "text"⟩,
   ⟨"icon", "icon", "icon"⟩,
   ⟨"content", "content", "content"⟩,
   ⟨"action", "action", "action"⟩,
   ⟨"prefix", "prefix", "prefix"⟩,
   ⟨"suffix", "suffix", "suffix"⟩,
   ⟨"helper", "helperText", "text"⟩,
   ⟨"error", "errorText", "text"⟩]

/-- Words for a position, with their names as endings. -/
def positions : List (String × String) :=
  [("left", "Left"), ("right", "Right"), ("top", "Top"), ("bottom", "Bottom"), ("start", "Start"),
   ("end", "End"), ("before", "Before"), ("after", "After")]

/-- The ending for the leftmost word for a position. -/
def positionEnding? : List Char → Option String
  | [] => none
  | c :: rest =>
    match positions.find? fun (word, _) => (Text.dropPrefix? word.toList (c :: rest)).isSome with
    | some (_, ending) => some ending
    | none => positionEnding? rest

/-- The first of `base2`, `base3`, … that is not taken. -/
def numbered (base : String) (taken : List String) : String :=
  let names := (List.range (taken.length + 1)).map fun n => base ++ toString (n + 2)
  (names.find? (!taken.contains ·)).getD base

/-- The name of a slot among those taken: the plain name, the name with the position, or the name
with the next number. -/
def nameFor (base lower : String) (taken : List String) : String :=
  if !taken.contains base then base
  else match (positionEnding? lower.toList).map (base ++ ·) with
    | some name => if taken.contains name then numbered base taken else name
    | none => numbered base taken

/-- The slot that a layer makes, if its name holds a word of the vocabulary. -/
def ofLayer? (name : String) (nodeId : Datum) (slots : List Slot) : Option Slot :=
  let lower := Text.lower name
  (vocabulary.find? fun w => Text.has lower w.word).map fun w =>
    ⟨nameFor w.base lower (slots.map Slot.name), w.kind,
      Text.has lower "required" || Text.has name "*", nodeId⟩

end Slot

end Maquette.Outline
