/-
What a layer's name tells: the role of the node, the state of a variant, and the properties spelled
out in a variant's name.
-/
import Maquette.Datum.Access

namespace Maquette.Outline

/-! ## Roles -/

/-- The role that a name in small letters suggests. -/
def roleOf (lower : String) : Option String :=
  let has (pieces : List String) : Bool := Text.hasAny lower pieces
  if has ["button", "btn"] then some "button-root"
  else if has ["icon"] then
    some (if has ["left"] then "icon-left" else if has ["right"] then "icon-right" else "icon")
  else if has ["label", "text"] then some "label"
  else if has ["dialog", "modal", "overlay"] then some "dialog-overlay"
  else if has ["input", "field"] then some "input-root"
  else none

/-- The role that a name suggests. -/
def roleHint (name : String) : Option String := roleOf (Text.lower name)

/-! ## States -/

/-- Words and the state they stand for; other states before the default one, so that a variant
whose size is the default size is not taken for the default state. -/
def stateWords : List (List String × String) :=
  [(["disabled", "disable"], "disabled"),
   (["pressed", "active"], "pressed"),
   (["focus"], "focus"),
   (["hover"], "hover"),
   (["default", "normal"], "default")]

/-- The state that a variant's words stand for. -/
def semanticState (words : String) : String :=
  let lower := Text.lower words
  ((stateWords.find? fun (pieces, _) => Text.hasAny lower pieces).map (·.2)).getD "custom"

/-! ## Variant names -/

/-- The property of one part of a variant's name. -/
def propertyOf? (part : List Char) : Option (String × String) := do
  let (key, value) ← Text.cut? '=' part
  let key := Text.trim Text.isBlank key
  if key.isEmpty then none
  else some (String.ofList key, String.ofList (Text.trim Text.isBlank value))

/-- The properties of a variant's name: parts between commas, each a key and a value. -/
def nameProperties (name : String) : Table String String :=
  .ofRows ((Text.splitOn (· == ',') name.toList).filterMap propertyOf?)

end Maquette.Outline
