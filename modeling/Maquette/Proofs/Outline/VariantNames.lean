/-
Variants that are told by their names. What a list of properties is spelled as reads back as these
properties: a comma parts one property from the next, the first equals sign of a part stands behind
its key, and the blank after a comma is trimmed. So a set of components whose layers have such names
has the variants that it has when the layers carry their properties besides, and gives a component
the same axes and parameters.
-/
import Maquette.Outline.Document
import Maquette.Proofs.Datum
import Maquette.Proofs.Text

namespace Maquette.Outline

/-! ## Spelled properties -/

/-- Properties as they are spelled in the name of a layer. -/
def spelled (ps : Table String String) : String :=
  ", ".intercalate (ps.map fun (key, value) => key ++ "=" ++ value)

/-- A text with no comma in it and no white space around it. -/
def IsTrimmed (s : String) : Prop := ',' ∉ s.toList ∧ Text.trim Text.isBlank s.toList = s.toList

/-- Properties that can be spelled out: distinct keys that are not empty and have no equals sign;
keys and values are trimmed and have no comma. -/
structure Spellable (ps : Table String String) : Prop where
  distinct : (ps.map Prod.fst).Nodup
  key : ∀ p ∈ ps, p.1 ≠ "" ∧ '=' ∉ p.1.toList ∧ IsTrimmed p.1
  value : ∀ p ∈ ps, IsTrimmed p.2

/-- The characters of one spelled property. -/
def part (p : String × String) : List Char := p.1.toList ++ '=' :: p.2.toList

theorem toList_spelled (ps : Table String String) :
    (spelled ps).toList = [',', ' '].intercalate (ps.map part) := by
  rw [spelled, String.toList_intercalate, List.map_map]
  congr 1
  refine List.map_congr_left fun p _ => ?_
  simp [part]

/-- A comma with a blank behind it parts one piece from the next, and the blank stays in front. -/
theorem splitOn_spaced {w : List Char} {ws : List (List Char)} (hw : ',' ∉ w)
    (hws : ∀ w ∈ ws, ',' ∉ w) :
    Text.splitOn (· == ',') ([',', ' '].intercalate (w :: ws)) = w :: ws.map (' ' :: ·) := by
  have hpiece : ∀ {w : List Char}, ',' ∉ w → ∀ c ∈ w, (c == ',') = false := fun h c hc =>
    beq_false_of_ne fun heq => h (heq ▸ hc)
  induction ws generalizing w with
  | nil => rw [List.intercalate_singleton, Text.splitOn_word (hpiece hw), List.map_nil]
  | cons next ws ih =>
    obtain ⟨hnext, hrest⟩ := List.forall_mem_cons.1 hws
    rw [List.intercalate_cons_cons, List.append_assoc, List.cons_append,
      Text.splitOn_append (hpiece hw) (by rfl), List.singleton_append,
      Text.splitOn_char (by rfl) (ih hnext hrest), List.map_cons]

theorem trim_spaced {p : Char → Bool} {c : Char} (hc : p c = true) (cs : List Char) :
    Text.trim p (c :: cs) = Text.trim p cs := by
  rw [Text.trim, List.dropWhile_cons_of_pos hc, Text.trim]

/-- One spelled property is read back, also with a blank in front of it. -/
theorem propertyOf?_part {p : String × String} (hkey : p.1 ≠ "" ∧ '=' ∉ p.1.toList ∧ IsTrimmed p.1)
    (hvalue : IsTrimmed p.2) :
    propertyOf? (part p) = some p ∧ propertyOf? (' ' :: part p) = some p := by
  obtain ⟨hne, hmark, -, htrim⟩ := hkey
  have hnonempty : p.1.toList.isEmpty = false := by simpa using hne
  have hread : ∀ front : List Char, '=' ∉ front → Text.trim Text.isBlank front = p.1.toList →
      propertyOf? (front ++ '=' :: p.2.toList) = some p := by
    intro front hfront hkept
    unfold propertyOf?
    rw [Text.cut?_append hfront]
    simp only [Option.bind_eq_bind, Option.bind_some, hkept, hnonempty, hvalue.2,
      Bool.false_eq_true, if_false, String.ofList_toList]
  refine ⟨hread _ hmark htrim, hread (' ' :: p.1.toList) ?_ ?_⟩
  · simpa using hmark
  · rw [trim_spaced (by rfl), htrim]

theorem comma_not_mem_part {p : String × String} (hkey : IsTrimmed p.1) (hvalue : IsTrimmed p.2) :
    ',' ∉ part p := by
  simp [part, hkey.1, hvalue.1]

/-- What properties are spelled as reads back as these properties, in their order. -/
theorem nameProperties_spelled {ps : Table String String} (h : Spellable ps) :
    nameProperties (spelled ps) = ps := by
  have hparts : (Text.splitOn (· == ',') (spelled ps).toList).filterMap propertyOf? = ps := by
    have hcommas : ∀ w ∈ ps.map part, ',' ∉ w := by
      intro w hw
      obtain ⟨p, hp, rfl⟩ := List.mem_map.1 hw
      exact comma_not_mem_part (h.key p hp).2.2 (h.value p hp)
    have hread := fun p hp => propertyOf?_part (h.key p hp) (h.value p hp)
    rw [toList_spelled]
    cases ps with
    | nil => rfl
    | cons p ps =>
      obtain ⟨hp, hps⟩ := List.forall_mem_cons.1 hread
      obtain ⟨hw, hws⟩ := List.forall_mem_cons.1 hcommas
      rw [List.map_cons, splitOn_spaced hw hws, List.filterMap_cons_some hp.1, List.map_map,
        List.filterMap_map]
      exact congrArg (p :: ·)
        ((List.filterMap_congr fun q hq => (hps q hq).2).trans List.filterMap_some)
  rw [nameProperties, hparts]
  refine Table.ofRows_eq ((List.pairwise_map.1 h.distinct).imp fun hne => ?_)
  simpa using hne

/-! ## Layers with and without their properties -/

/-- Two layers that differ in their children and in the properties that they carry at most. -/
structure Alike (layer layer' : Datum) : Prop where
  record : layer'.isRecord = layer.isRecord
  field : ∀ key, key ≠ "children" → key ≠ "variantProperties" → layer'.at? key = layer.at? key

/-- The first layer has its properties in its name only; the second one carries them besides. -/
structure IsGiven (ps : Table String String) (layer layer' : Datum) : Prop where
  spellable : Spellable ps
  name : layer.at? "name" = some (.text (spelled ps))
  bare : Variant.ownProperties layer = .ok []
  given : layer'.at? "variantProperties" = some (Variant.texts ps)

/-- The variant that a layer of this name is; without properties it is none. -/
def variant? (ps : Table String String) (layer : Datum) : Option Variant :=
  if ps.isEmpty then none
  else some ⟨.text (spelled ps), ps, (layer.at? "id").getD (.text "")⟩

section Layers

variable {ps : Table String String} {layer layer' : Datum}

theorem isRecord_of_at? {d v : Datum} {key : String} (h : d.at? key = some v) : d.isRecord = true := by
  cases d <;> first | rfl | cases h

theorem ownProperties_texts (h : layer.at? "variantProperties" = some (Variant.texts ps)) :
    Variant.ownProperties layer = .ok ps := by
  rw [Variant.ownProperties, Datum.get_eq (isRecord_of_at? h), h]
  show Except.ok ((ps.map fun p => (p.1, Datum.text p.2)).map fun p => (p.1, p.2.shown)) = _
  rw [List.map_map]
  exact congrArg _ (List.map_id ps)

/-- A child of a set whose own properties are those of its name, or none, is the variant of its name. -/
theorem ofChild_eq (h : Spellable ps) (hname : layer.at? "name" = some (.text (spelled ps)))
    {own : Table String String} (hown : Variant.ownProperties layer = .ok own) (heq : own = [] ∨ own = ps) :
    Variant.ofChild layer = .ok (variant? ps layer) := by
  have hrecord := isRecord_of_at? hname
  have hnode : Variant.ofNode layer ps =
      .ok ⟨.text (spelled ps), ps, (layer.at? "id").getD (.text "")⟩ := by
    rw [Variant.ofNode, Datum.fieldOr_eq hrecord, Datum.fieldOr_eq hrecord, hname]
    rfl
  have hmade : (if ps.isEmpty then pure none else do return some (← Variant.ofNode layer ps) :
      Outcome (Option Variant)) = .ok (variant? ps layer) := by
    rw [hnode, variant?]
    split <;> rfl
  rw [Variant.ofChild, hown, Outcome.ok_bind]
  split
  -- the name is only read when the layer carries nothing, and then it tells the same
  · rw [Datum.fieldOr_eq hrecord, hname, Option.getD_some, Outcome.ok_bind, Datum.textOrEmpty_text,
      Outcome.ok_bind, nameProperties_spelled h]
    exact hmade
  · next hown =>
    rcases heq with rfl | rfl
    · exact absurd rfl hown
    · exact hmade

/-- A child of a set is the same variant with and without its properties. -/
theorem IsGiven.ofChild (h : IsGiven ps layer layer') (ha : Alike layer layer') :
    Variant.ofChild layer = .ok (variant? ps layer) ∧
      Variant.ofChild layer' = .ok (variant? ps layer) := by
  have hname' : layer'.at? "name" = some (.text (spelled ps)) := by
    rw [ha.field _ (by decide) (by decide), h.name]
  refine ⟨ofChild_eq h.spellable h.name h.bare (.inl rfl), ?_⟩
  rw [ofChild_eq h.spellable hname' (ownProperties_texts h.given) (.inr rfl), variant?, variant?,
    ha.field _ (by decide) (by decide)]

/-- What slot a layer makes is told by its name and its id. -/
theorem node_slots {place : Nat} {slots slots' : List Slot} {fields : List (String × Datum)}
    (h : node layer place slots = .ok (fields, slots')) :
    ∃ name, ((layer.at? "name").getD .null).orElse (.text "") = .text name ∧
      slots' = slots ++
        (Slot.ofLayer? name ((layer.at? "id").getD (.text "")) slots).toList := by
  unfold node at h
  obtain ⟨name, hname, h⟩ := Outcome.bind_ok h
  obtain ⟨kind, -, h⟩ := Outcome.bind_ok h
  obtain ⟨id, hid, h⟩ := Outcome.bind_ok h
  obtain ⟨nameText, htext, h⟩ := Outcome.bind_ok h
  obtain ⟨box, -, h⟩ := Outcome.bind_ok h
  obtain ⟨arranged, -, h⟩ := Outcome.bind_ok h
  obtain ⟨painted, -, h⟩ := Outcome.bind_ok h
  obtain ⟨written, -, h⟩ := Outcome.ite_bind_ok h
  obtain ⟨pinned, -, h⟩ := Outcome.bind_ok h
  obtain ⟨surface, -, h⟩ := Outcome.bind_ok h
  obtain ⟨paths, -, h⟩ := Outcome.bind_ok h
  obtain ⟨bound, -, h⟩ := Outcome.bind_ok h
  obtain ⟨properties, -, h⟩ := Outcome.bind_ok h
  cases h
  rw [← (Datum.get_ok hname).2, ← Datum.fieldOr_ok hid]
  exact ⟨nameText, Datum.eq_text htext, rfl⟩

/-- Layers that are alike make the same slot. -/
theorem Alike.slots (h : Alike layer layer') {place : Nat} {slots s s' : List Slot}
    {fields fields' : List (String × Datum)} (hn : node layer place slots = .ok (fields, s))
    (hn' : node layer' place slots = .ok (fields', s')) : s' = s := by
  obtain ⟨name, hname, rfl⟩ := node_slots hn
  obtain ⟨name', hname', rfl⟩ := node_slots hn'
  rw [h.field _ (by decide) (by decide), hname] at hname'
  cases hname'
  rw [h.field _ (by decide) (by decide)]

end Layers

/-! ## Sets of components -/

/-- Two designs of one set of components: in the first one the children of the root have their
properties in their names only, in the second one they carry them besides. -/
structure SpelledOut (s s' : Scene) (root : Nat) (children : List (Option Nat))
    (properties : Nat → Table String String) : Prop where
  begins : s.root = .node root
  begins' : s'.root = .node root
  size : s'.nodes.size = s.nodes.size
  branches : ∀ i, s'.branchesAt i = s.branchesAt i
  below : s.branchesAt root = .items children
  isSet : (s.dataAt root).at? "type" = some (.text "COMPONENT_SET")
  alike : ∀ i, Alike (s.dataAt i) (s'.dataAt i)
  given : ∀ i, some i ∈ children → IsGiven (properties i) (s.dataAt i) (s'.dataAt i)

/-- The variants that the names of children tell, in their order. -/
def toldVariants (s : Scene) (children : List (Option Nat)) (properties : Nat → Table String String) :
    List Variant :=
  (children.filterMap id).filterMap fun i => variant? (properties i) (s.dataAt i)

namespace SpelledOut

variable {s s' : Scene} {root : Nat} {children : List (Option Nat)}
  {properties : Nat → Table String String} (h : SpelledOut s s' root children properties)
include h

/-- The variants of the set: those that its children's names tell, in their order. -/
theorem variants : Variant.ofScene s = .ok (toldVariants s children properties) ∧
    Variant.ofScene s' = .ok (toldVariants s children properties) := by
  have hset : ∀ {t : Scene}, t.root = .node root → t.branchesAt root = .items children →
      (t.dataAt root).at? "type" = some (.text "COMPONENT_SET") → (∀ i, some i ∈ children →
        Variant.ofChild (t.dataAt i) = .ok (variant? (properties i) (s.dataAt i))) →
      Variant.ofScene t = .ok (toldVariants s children properties) := by
    intro t hroot hchildren htype hofChild
    have hrecord := isRecord_of_at? htype
    have hdata : (t.rootData.orElse .empty) = t.dataAt root := by
      rw [Scene.rootData, hroot]
      show (t.dataAt root).orElse .empty = _
      unfold Datum.orElse
      split
      · rfl
      · obtain ⟨fields, hfields⟩ := Datum.eq_record hrecord
        rw [hfields] at htype ⊢
        cases fields <;> simp_all [Datum.isTruthy, Datum.at?]
    have hrows : t.rootChildren = .ok ((children.filterMap id).map t.dataAt) := by
      rw [Scene.rootChildren, hroot]
      simp only [hchildren, List.map_filterMap, id_eq]
    have hmade : ((children.filterMap id).map t.dataAt).mapM Variant.ofChild =
        .ok ((children.filterMap id).map fun i => variant? (properties i) (s.dataAt i)) := by
      rw [List.mapM_map]
      exact Outcome.mapM_ok fun i hi => hofChild i (by simpa using hi)
    rw [Variant.ofScene, hdata, Variant.extract, Datum.get_eq hrecord, htype, Outcome.ok_bind, hrows,
      Outcome.ok_bind, hmade, Outcome.ok_bind, List.filterMap_map]
    rfl
  refine ⟨hset h.begins h.below h.isSet fun i hi => ((h.given i hi).ofChild (h.alike i)).1,
    hset h.begins' (by rw [h.branches, h.below]) ?_ fun i hi =>
      ((h.given i hi).ofChild (h.alike i)).2⟩
  rw [(h.alike root).field _ (by decide) (by decide), h.isSet]

end SpelledOut

end Maquette.Outline
