/-
A builder makes outlines one after the other. It keeps the slots it has found and the nodes it has
met, also when it stops at a fault; every outline begins anew.
-/
import Maquette.Outline.Document

namespace Maquette.Outline

/-- A scene to be outlined, and where it is from. -/
structure Order where
  scene : Scene
  url : Datum
  fileKey : Datum

structure Builder where
  extractedAt : Datum
  slots : List Slot
  met : List Nat

namespace Builder

/-- A builder that has made nothing yet. -/
def new (extractedAt : Datum) : Builder := ⟨extractedAt, [], []⟩

/-- The nodes of a walk one after the other. -/
def nodes (s : Scene) (b : Builder) :
    List Visit → Outcome (List (Visit × List (String × Datum))) × Builder
  | [] => (.ok [], b)
  | v :: rest =>
    match node (s.dataAt v.node) v.place b.slots with
    | .error f => (.error f, b)
    | .ok (fields, slots) =>
      let (others, b) := nodes s { b with slots } rest
      (return (v, fields) :: (← others), b)

/-- The tree below a scene's root, of the nodes that were not met before. -/
def tree (s : Scene) (b : Builder) : Outcome (Option Datum) × Builder :=
  match s.root with
  | .node i =>
    let fresh := (List.range s.nodes.size).filter (!b.met.contains ·)
    let trail := s.walkFrom true fresh [⟨i, 0, 0⟩]
    let (visits, b) := nodes s { b with met := b.met ++ trail.visits.map Visit.node } trail.visits
    (do
      let visits ← visits
      match trail.fault with
      | some f => throw f
      | none => return (assemble visits).head?, b)
  | .other d =>
    if d.isTruthy then (.ok none, b)
    else match node .empty 0 b.slots with
      | .error f => (.error f, b)
      | .ok (fields, slots) => (.ok (assemble [(⟨0, 0, 0⟩, fields)]).head?, { b with slots })

/-- The next outline. -/
def build (b : Builder) (o : Order) : Outcome Datum × Builder :=
  let (grown, b) := tree o.scene { b with slots := [], met := [] }
  (do document o.scene ⟨o.url, o.fileKey, b.extractedAt⟩ (← grown) b.slots, b)

/-- Outlines one after the other; a fault ends its own outline only. -/
def builds (b : Builder) : List Order → List (Outcome Datum)
  | [] => []
  | o :: rest =>
    let (doc, b) := b.build o
    doc :: b.builds rest

end Builder

end Maquette.Outline
