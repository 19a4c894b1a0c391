/-
Cutting, searching and joining texts, on lists of characters: trimming, splitting, replacing,
and whether one text occurs in another.
-/
import Maquette.Text.Case

namespace Maquette.Text

/-! ## Trimming -/

/-- Without the characters at the end that satisfy `p`. -/
def dropEnd (p : Char → Bool) (cs : List Char) : List Char := (cs.reverse.dropWhile p).reverse

/-- Without the characters at both ends that satisfy `p`. -/
def trim (p : Char → Bool) (cs : List Char) : List Char := dropEnd p (cs.dropWhile p)

/-! ## Splitting -/

/-- The pieces between separators, empty ones kept; always at least one. -/
def splitOn (p : Char → Bool) : List Char → List (List Char)
  | [] => [[]]
  | c :: rest =>
    if p c then [] :: splitOn p rest
    else
      match splitOn p rest with
      | [] => [[c]]
      | piece :: pieces => (c :: piece) :: pieces

/-- The pieces between runs of separators, without empty ones. -/
def words (p : Char → Bool) (cs : List Char) : List (List Char) :=
  (splitOn p cs).filter (!·.isEmpty)

/-- What stands before and after the first character equal to `sep`. -/
def cut? (sep : Char) : List Char → Option (List Char × List Char)
  | [] => none
  | c :: rest => if c = sep then some ([], rest) else (cut? sep rest).map fun (a, b) => (c :: a, b)

/-! ## Searching -/

/-- What follows `start` in a text that begins with it. -/
def dropPrefix? : List Char → List Char → Option (List Char)
  | [], cs => some cs
  | _ :: _, [] => none
  | p :: ps, c :: cs => if p = c then dropPrefix? ps cs else none

/-- Whether `piece` occurs in the text. -/
def occursIn (piece : List Char) : List Char → Bool
  | [] => piece.isEmpty
  | c :: rest => (dropPrefix? piece (c :: rest)).isSome || occursIn piece rest

/-- Whether a text holds another one. -/
def has (s piece : String) : Bool := occursIn piece.toList s.toList

/-- Whether a text holds one of several others. -/
def hasAny (s : String) (pieces : List String) : Bool := pieces.any (has s)

/-- Whether a text begins with another one. -/
def startsWith (s start : String) : Bool := (dropPrefix? start.toList s.toList).isSome

/-- Whether a text ends with another one. -/
def endsWith (s tail : String) : Bool :=
  (dropPrefix? tail.toList.reverse s.toList.reverse).isSome

/-! ## Digits -/

/-- The value of a hexadecimal digit. -/
def hexDigit? (c : Char) : Option Nat :=
  if '0' ≤ c ∧ c ≤ '9' then some (c.toNat - 48)
  else if 'a' ≤ c ∧ c ≤ 'f' then some (c.toNat - 87)
  else if 'A' ≤ c ∧ c ≤ 'F' then some (c.toNat - 55)
  else none

/-! ## Replacing -/

/-- Every character by its replacement. -/
def substitute (f : Char → List Char) (s : String) : String :=
  String.ofList (s.toList.flatMap f)

/-- Runs of equal marks `m` shortened to one. -/
def squeeze (m : Char) : List Char → List Char
  | [] => []
  | c :: rest =>
    match squeeze m rest with
    | [] => [c]
    | d :: tail => if c = m ∧ d = m then d :: tail else c :: d :: tail

/-- Runs of characters that satisfy `p` replaced by one mark. -/
def fuse (p : Char → Bool) (m : Char) : Bool → List Char → List Char
  | _, [] => []
  | inRun, c :: rest =>
    if p c then (if inRun then fuse p m true rest else m :: fuse p m true rest)
    else c :: fuse p m false rest

/-- Lines under each other. -/
def lines (ls : List String) : String := "\n".intercalate ls

/-- A text repeated. -/
def times (n : Nat) (s : String) : String := String.join (List.replicate n s)

end Maquette.Text
