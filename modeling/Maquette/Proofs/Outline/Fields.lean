/-
The fields of one node of an outline: it is numbered with its place among its parent's children, it
names the slot that its layer makes, and none of its own fields is taken for its children, which are
put on it later.
-/
import Maquette.Proofs.Datum
import Maquette.Outline.Node

namespace Maquette.Outline

/-! ## The names of fields -/

/-- What a node tells about itself, its slot apart. -/
def ownKeys : List String :=
  ["id", "name", "type", "zIndex", "roleHint", "boundingBox", "layout", "fills", "strokes",
   "effects", "typography", "characters", "textPath", "constraints", "blendMode", "opacity",
   "cornerRadius", "rectangleCornerRadii", "vectorPaths", "boundVariables", "variantProperties"]

/-- All fields are called by some of the keys. -/
def Among (keys : List String) (fields : List (String × Datum)) : Prop := ∀ row ∈ fields, row.1 ∈ keys

/-- All fields are among those that a node tells about itself. -/
abbrev Own (fields : List (String × Datum)) : Prop := Among ownKeys fields

/-- None of the fields is taken for children. -/
def Childless (fields : List (String × Datum)) : Prop := ∀ row ∈ fields, row.1 ≠ "children"

namespace Among

variable {keys keys' : List String} {fields fields' : List (String × Datum)}

theorem mono (h : Among keys fields) (hkeys : keys ⊆ keys') : Among keys' fields :=
  fun row hrow => hkeys (h row hrow)

theorem append (h : Among keys fields) (h' : Among keys fields') : Among keys (fields ++ fields') := by
  intro row hrow
  rcases List.mem_append.1 hrow with hrow | hrow
  · exact h row hrow
  · exact h' row hrow

theorem nil : Among keys [] := by simp [Among]

theorem single {key : String} {d : Datum} (h : key ∈ keys) : Among keys [(key, d)] := by
  simpa [Among] using h

theorem optional {key : String} (h : key ∈ keys) (d : Option Datum) :
    Among keys (Outline.optional key d) := by
  cases d with
  | none => exact nil
  | some d => exact single h

theorem ite {p : Prop} [Decidable p] (h : Among keys fields) (h' : Among keys fields') :
    Among keys (if p then fields else fields') := by
  split
  · exact h
  · exact h'

theorem listField {key : String} (h : key ∈ keys) (items : List Datum) :
    Among keys (Outline.listField key items) := ite nil (single h)

theorem recordField {key : String} (h : key ∈ keys) (fields : List (String × Datum)) :
    Among keys (Outline.recordField key fields) := ite nil (single h)

/-- The field of a name that is not among the keys is not found. -/
theorem lookup_eq_none (h : Among keys fields) {key : String} (hk : key ∉ keys) :
    fields.lookup key = none := by
  rw [List.lookup_eq_none_iff]
  intro row hrow
  rw [bne_iff_ne]
  rintro rfl
  exact hk (h row hrow)

end Among

/-! ## Parts of a node -/

theorem boundingBox_own {d : Datum} {fields : List (String × Datum)}
    (h : boundingBox d = .ok fields) : Among ["boundingBox"] fields := by
  unfold boundingBox at h
  obtain ⟨box, -, h⟩ := Outcome.bind_ok h
  split at h
  · cases h; exact .nil
  · obtain ⟨_, -, h⟩ := Outcome.bind_ok h
    obtain ⟨_, -, h⟩ := Outcome.bind_ok h
    obtain ⟨_, -, h⟩ := Outcome.bind_ok h
    obtain ⟨_, -, h⟩ := Outcome.bind_ok h
    cases h; exact .single (by decide)

theorem constraintsField_own {d : Datum} {fields : List (String × Datum)}
    (h : constraintsField d = .ok fields) : Among ["constraints"] fields := by
  unfold constraintsField at h
  obtain ⟨c, -, h⟩ := Outcome.bind_ok h
  split at h
  · cases h; exact .nil
  · obtain ⟨_, -, h⟩ := Outcome.bind_ok h
    obtain ⟨_, -, h⟩ := Outcome.bind_ok h
    cases h; exact .single (by decide)

theorem textFields_own {d : Datum} {fields : List (String × Datum)}
    (h : textFields d = .ok fields) : Among ["typography", "characters", "textPath"] fields := by
  unfold textFields at h
  obtain ⟨_, -, h⟩ := Outcome.bind_ok h
  obtain ⟨style, -, h⟩ := Outcome.bind_ok h
  obtain ⟨characters, -, h⟩ := Outcome.bind_ok h
  obtain ⟨path, -, h⟩ := Outcome.bind_ok h
  cases h
  exact .append (.append (.single (by decide)) (.ite .nil (.single (by decide))))
    (.ite (.single (by decide)) .nil)

theorem surfaceFields_own {d : Datum} {fields : List (String × Datum)}
    (h : surfaceFields d = .ok fields) :
    Among ["blendMode", "opacity", "cornerRadius", "rectangleCornerRadii"] fields := by
  unfold surfaceFields at h
  obtain ⟨blend, -, h⟩ := Outcome.bind_ok h
  obtain ⟨opacity, -, h⟩ := Outcome.bind_ok h
  obtain ⟨radius, -, h⟩ := Outcome.bind_ok h
  obtain ⟨radii, -, h⟩ := Outcome.bind_ok h
  cases h
  refine .append (.append (.append ?_ ?_) ?_) ?_
  · exact .ite (.single (by decide)) .nil
  · exact .ite .nil (.single (by decide))
  · exact .ite (.single (by decide)) .nil
  · cases radii with
    | list items => exact .ite (.single (by decide)) .nil
    | _ => exact .nil

theorem paintFields_own {d : Datum} {fields : List (String × Datum)}
    (h : paintFields d = .ok fields) : Among ["fills", "strokes", "effects"] fields := by
  unfold paintFields at h
  obtain ⟨_, -, h⟩ := Outcome.bind_ok h
  obtain ⟨fills, -, h⟩ := Outcome.bind_ok h
  obtain ⟨_, -, h⟩ := Outcome.bind_ok h
  obtain ⟨strokes, -, h⟩ := Outcome.bind_ok h
  obtain ⟨_, -, h⟩ := Outcome.bind_ok h
  obtain ⟨effects, -, h⟩ := Outcome.bind_ok h
  cases h
  exact .append (.append (.listField (by decide) _) (.listField (by decide) _))
    (.listField (by decide) _)

/-- The keys of what a node tells behind its layout. -/
def lateKeys : List String :=
  ["fills", "strokes", "effects", "typography", "characters", "textPath", "constraints", "blendMode",
   "opacity", "cornerRadius", "rectangleCornerRadii", "vectorPaths", "boundVariables",
   "variantProperties"]

/-- What a node tells about itself begins with its id, name, kind and place, and ends with the slot that
its layer makes among those found so far; between other fields there is its layout, if it has one. -/
theorem node_ok {layer : Datum} {place : Nat} {slots slots' : List Slot}
    {fields : List (String × Datum)} (h : node layer place slots = .ok (fields, slots')) :
    ∃ id name kind early arranged late, Among ["roleHint", "boundingBox"] early ∧
      layout layer = .ok arranged ∧ Among lateKeys late ∧
      slots' = slots ++ (Slot.ofLayer? name id slots).toList ∧
      fields = [("id", id), ("name", .text name), ("type", kind), ("zIndex", .int place)] ++
        (early ++ optional "layout" arranged ++ late) ++
        optional "slotName" ((Slot.ofLayer? name id slots).map fun s => .text s.name) := by
  unfold node at h
  obtain ⟨name, -, h⟩ := Outcome.bind_ok h
  obtain ⟨kind, -, h⟩ := Outcome.bind_ok h
  obtain ⟨id, -, h⟩ := Outcome.bind_ok h
  obtain ⟨nameText, hname, h⟩ := Outcome.bind_ok h
  obtain ⟨box, hbox, h⟩ := Outcome.bind_ok h
  obtain ⟨arranged, harranged, h⟩ := Outcome.bind_ok h
  obtain ⟨painted, hpainted, h⟩ := Outcome.bind_ok h
  obtain ⟨written, hwritten, h⟩ := Outcome.ite_bind_ok h
  obtain ⟨pinned, hpinned, h⟩ := Outcome.bind_ok h
  obtain ⟨surface, hsurface, h⟩ := Outcome.bind_ok h
  obtain ⟨paths, -, h⟩ := Outcome.bind_ok h
  obtain ⟨bound, -, h⟩ := Outcome.bind_ok h
  obtain ⟨properties, -, h⟩ := Outcome.bind_ok h
  have hw : Among lateKeys written := by
    split at hwritten
    · exact (textFields_own hwritten).mono (by decide)
    · cases hwritten; exact .nil
  cases h
  rw [Datum.eq_text hname]
  have hearly : Among ["roleHint", "boundingBox"]
      (optional "roleHint" ((roleHint nameText).map .text) ++ box) :=
    (Among.optional (by decide) _).append ((boundingBox_own hbox).mono (by decide))
  have hlate : Among lateKeys (painted ++ written ++ pinned ++ surface ++
      listField "vectorPaths" paths ++ recordField "boundVariables" bound ++
      (if properties.isEmpty then [] else [("variantProperties", Variant.texts properties)])) :=
    ((paintFields_own hpainted).mono (by decide)).append hw
      |>.append ((constraintsField_own hpinned).mono (by decide))
      |>.append ((surfaceFields_own hsurface).mono (by decide))
      |>.append (.listField (by decide) _) |>.append (.recordField (by decide) _)
      |>.append (.ite .nil (.single (by decide)))
  exact ⟨id, nameText, kind.orElse (.text "FRAME"), _, arranged, _, hearly, harranged, hlate, rfl,
    by simp only [List.append_assoc]⟩

section Node

variable {layer : Datum} {place : Nat} {slots slots' : List Slot} {fields : List (String × Datum)}

/-- What stands between the place and the slot of a node. -/
theorem own_of_parts {early late : List (String × Datum)} (hearly : Among ["roleHint", "boundingBox"] early)
    (arranged : Option Datum) (hlate : Among lateKeys late) :
    Own (early ++ optional "layout" arranged ++ late) :=
  ((hearly.mono (by decide)).append (.optional (by decide) _)).append (hlate.mono (by decide))

theorem node_place (h : node layer place slots = .ok (fields, slots')) :
    fields.lookup "zIndex" = some (.int place) := by
  obtain ⟨id, name, kind, early, arranged, late, -, -, -, -, rfl⟩ := node_ok h
  rfl

/-- The layout of a node is that of its layer. -/
theorem node_layout (h : node layer place slots = .ok (fields, slots')) :
    ∃ arranged, layout layer = .ok arranged ∧ fields.lookup "layout" = arranged := by
  obtain ⟨id, name, kind, early, arranged, late, hearly, harranged, hlate, -, rfl⟩ := node_ok h
  refine ⟨arranged, harranged, ?_⟩
  have hslot : (optional "slotName" ((Slot.ofLayer? name id slots).map fun s => .text s.name)).lookup
      "layout" = none := by
    have hamong : ∀ d, Among ["slotName"] (optional "slotName" d) := Among.optional (by decide)
    exact (hamong _).lookup_eq_none (by decide)
  rw [List.lookup_append, List.lookup_append, List.lookup_append, List.lookup_append,
    hearly.lookup_eq_none (by decide), hlate.lookup_eq_none (by decide), hslot]
  cases arranged <;> rfl

/-- A node has no children yet. -/
theorem node_childless (h : node layer place slots = .ok (fields, slots')) : Childless fields := by
  obtain ⟨id, name, kind, early, arranged, late, hearly, -, hlate, -, rfl⟩ := node_ok h
  intro row hrow
  simp only [List.mem_append, List.mem_cons, List.not_mem_nil, or_false] at hrow
  rcases hrow with ((rfl | rfl | rfl | rfl) | hrow) | hrow
  · simp
  · simp
  · simp
  · simp
  · rintro hkey
    have hown := own_of_parts hearly arranged hlate row (by simpa [or_assoc] using hrow)
    rw [hkey] at hown
    exact absurd hown (by decide)
  · cases ho : Slot.ofLayer? name id slots with
    | none => rw [ho] at hrow; cases hrow
    | some slot =>
      rw [ho] at hrow
      obtain rfl := List.mem_singleton.1 hrow
      simp

/-- The name, the id and the slot of a node's fields are those of its layer. -/
theorem node_slot (h : node layer place slots = .ok (fields, slots')) :
    ∃ name id, fields.lookup "name" = some (.text name) ∧ fields.lookup "id" = some id ∧
      fields.lookup "slotName" = (Slot.ofLayer? name id slots).map (fun s => .text s.name) ∧
      slots' = slots ++ (Slot.ofLayer? name id slots).toList := by
  obtain ⟨id, name, kind, early, arranged, late, hearly, -, hlate, hslots, rfl⟩ := node_ok h
  refine ⟨name, id, rfl, rfl, ?_, hslots⟩
  rw [List.lookup_append, List.lookup_append,
    (own_of_parts hearly arranged hlate).lookup_eq_none (by decide)]
  cases Slot.ofLayer? name id slots <;> rfl

end Node

end Maquette.Outline
