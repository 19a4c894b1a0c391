/-
Designs in export files. An export holds either one document or documents by their nodes, as the
design service sends them; its variables stand beside the documents or in its metadata.
-/
import Maquette.Act
import Maquette.Design.Basic
import Maquette.Scene.Walk

namespace Maquette.Design

/-! ## The document -/

/-- The first node of a document, in walking order, with an id. -/
def findNode (document nodeId : Datum) : Outcome (Option Datum) :=
  (Walked.ofDatum document).find nodeId

/-- A node is not in an export. -/
def noNode (nodeId : Datum) : Fault :=
  .missing (quoteText (s!"node {nodeId.shown} not found in export"))

/-- An export holds no document. -/
def noDocument : Fault := .missing (quoteText "export has no 'document' or 'nodes' entry")

/-- The entry of a node, or the first one when no node is asked for. -/
def entryOf (entries : List (String × Datum)) (nodeId : Datum) : Outcome Datum := do
  if !nodeId.isTruthy then return (entries.head?.map (·.2)).getD .null
  match ← nodeId.asKey with
  | .text id => return (entries.lookup id).getD .null
  | _ => return .null

/-- The document among entries by nodes. -/
def documentOf (entries : List (String × Datum)) (nodeId : Datum) : Outcome Datum := do
  let entry ← entryOf entries nodeId
  if !entry.isTruthy then throw (noNode nodeId)
  let document ← entry.get "document"
  if !document.isTruthy then throw (noNode nodeId)
  return document

/-- The document of an export, or the node in it that is asked for. -/
def documentFrom (content nodeId : Datum) : Outcome Datum := do
  match ← content.get "nodes" with
  | .record entries => documentOf entries nodeId
  | _ =>
    let document ← content.get "document"
    if !document.isRecord then throw noDocument
    if !nodeId.isTruthy then return document
    match ← findNode document nodeId with
    | some node => return node
    | none => throw (noNode nodeId)

/-! ## The tables -/

/-- A table that is given itself or in the metadata. -/
def tableFrom (content : Datum) (key : String) : Outcome Datum := do
  let info ← content.get "meta"
  let fallback := (info.at? key).getD .null
  return (← content.fieldOr key fallback).orElse .empty

/-- Collections, by their ids if they are listed. -/
def collectionsOf (d : Datum) : Outcome Collections :=
  match d with
  | .list items => return .listed (← Datum.byId items)
  | d => .ok (.given d)

/-! ## The export -/

/-- The design in an export, or the part below a node of it. -/
def ofExport (path : String) (content nodeId : Datum) : Outcome Design := do
  if !content.isRecord then throw (.notAnObject path)
  let vars ← tableFrom content "variables"
  let collections ← collectionsOf (← tableFrom content "variableCollections")
  return {
    document := ← documentFrom content nodeId
    vars
    collections
    fileKey := ← content.fieldOr "fileKey" (.text "")
    url := ← content.fieldOr "figmaUrl" (.text "") }

/-- The design in an export file. -/
def load (path : String) (nodeId : Datum) : Job Design := do
  let content ← Job.readDocument path
  (ofExport path content nodeId : Outcome Design)

end Maquette.Design
