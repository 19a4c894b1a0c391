/-
Paths of files as texts: joining, taking the parent, writing a path without empty steps, and where a
path leads when its steps are followed in the text alone.
-/
import Maquette.Text.Basic

namespace Maquette.Path

/-- The steps of a path, empty ones included. -/
def steps (p : String) : List String :=
  (Text.splitOn (· = '/') p.toList).map String.ofList

/-- Whether a step stays where it is. -/
def isIdle (step : String) : Bool := step == "" || step == "."

/-- Whether a path begins at the root of the file system. -/
def isAbsolute (p : String) : Bool := Text.startsWith p "/"

/-- The second of two paths as seen from the first. -/
def join (a b : String) : String :=
  if isAbsolute b || a.isEmpty then b
  else if Text.endsWith a "/" then a ++ b
  else a ++ "/" ++ b

/-- The folder that a path's last step is taken in. -/
def parent (p : String) : String :=
  let head := (p.toList.reverse.dropWhile (· ≠ '/')).reverse
  if head.all (· = '/') then String.ofList head
  else String.ofList (Text.dropEnd (· = '/') head)

/-- What a path begins with: two slashes, and only two, are told from one. -/
def root (p : String) : String :=
  match p.toList.takeWhile (· = '/') with
  | [] => ""
  | ['/', '/'] => "//"
  | _ => "/"

/-- A path without idle steps; a single point when nothing is left. -/
def tidy (p : String) : String :=
  let text := root p ++ "/".intercalate ((steps p).filter (!isIdle ·))
  if text.isEmpty then "." else text

/-- The steps that remain when each step up takes back the step before it; the last step comes first.
From the root there is no way up, from anywhere else there is. -/
def follow (absolute : Bool) : List String → List String → List String
  | taken, [] => taken
  | taken, step :: rest =>
    if isIdle step then follow absolute taken rest
    else if step != ".." then follow absolute (step :: taken) rest
    else
      match taken with
      | [] => follow absolute (if absolute then [] else [".."]) rest
      | last :: before =>
        follow absolute (if last == ".." then step :: taken else before) rest

/-- Where a path leads, as a text that is the same for all paths that lead there. -/
def normal (p : String) : String :=
  root p ++ "/".intercalate (follow (isAbsolute p) [] (steps p)).reverse

end Maquette.Path
