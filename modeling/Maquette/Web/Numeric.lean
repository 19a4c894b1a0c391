/-
Numeric addresses of hosts: four bytes with points between them, or eight groups of hexadecimal
digits with colons, one run of which may be left out.
-/
import Maquette.Text.Basic

namespace Maquette.Numeric

/-- A byte in decimal digits without needless zeros. -/
def isByte (cs : List Char) : Bool :=
  match cs with
  | [] => false
  | ['0'] => true
  | '0' :: _ => false
  | _ => cs.all Char.isDigit && cs.length ≤ 3 &&
    cs.foldl (fun n c => n * 10 + (c.toNat - 48)) 0 ≤ 255

/-- Four bytes with points between them. -/
def isDotted (cs : List Char) : Bool :=
  let octets := Text.splitOn (· = '.') cs
  octets.length == 4 && octets.all isByte

/-- A group of one to four hexadecimal digits. -/
def isGroup (cs : List Char) : Bool :=
  !cs.isEmpty && cs.length ≤ 4 && cs.all fun c => (Text.hexDigit? c).isSome

/-- The groups of an address; a dotted end counts as two. -/
def groups? (cs : List Char) : Option (List (List Char)) :=
  let parts := Text.splitOn (· = ':') cs
  if parts.length < 3 then none
  else
    match parts.reverse with
    | final :: before =>
      if !final.contains '.' then some parts
      else if isDotted final then some (before.reverse ++ [['0'], ['0']])
      else none
    | [] => none

/-- One side of a run that is left out: an empty outermost group is allowed if it is alone. -/
def side (outer : Option (List Char)) (parts : List (List Char)) : Option (List (List Char)) :=
  if outer != some [] then some parts else if parts.length == 1 then some [] else none

/-- Whether groups, at most one run of which is left out, make an address. -/
def isComplete (parts : List (List Char)) : Bool :=
  let inner := (parts.drop 1).dropLast
  match inner.zipIdx.filter fun (g, _) => g.isEmpty with
  | [] => parts.length == 8 && parts.all isGroup
  | [(_, i)] =>
    let before := parts.take (i + 1)
    let behind := parts.drop (i + 2)
    match side before.head? before, side behind.getLast? behind with
    | some before, some behind =>
      before.length + behind.length < 8 && (before ++ behind).all isGroup
    | _, _ => false
  | _ => false

/-- Groups with colons between them, with or without the name of a zone. -/
def isColonned (cs : List Char) : Bool :=
  let (address, zone) := match Text.cut? '%' cs with
    | some (a, z) => (a, some z)
    | none => (cs, none)
  zone.all (fun z => !z.isEmpty && !z.contains '%') &&
    match groups? address with
    | some parts => parts.length ≤ 9 && isComplete parts
    | none => false

end Maquette.Numeric
