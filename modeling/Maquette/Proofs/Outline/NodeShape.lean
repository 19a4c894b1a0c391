/-
A layer makes a node of the shape that an outline asks for, whichever of its fields it has. Each group
of fields is made by a part of its own, so it is shown for each part that it is made and that its
fields fit; a node is these parts one after the other.
-/
import Maquette.Proofs.Outline.PaintShape
import Maquette.Proofs.Outline.SlotNames
import Maquette.Proofs.Outline.Grown

namespace Maquette.Outline

open Check

/-- Fields that fit a node, however deep its fills are checked and whatever its children are. -/
def FitsNode (fields : List (String × Datum)) : Prop :=
  ∀ depth child, Fits (Schema.nodeFields (Schema.paint depth) child) fields

namespace FitsNode

variable {fields fields' : List (String × Datum)}

theorem nil : FitsNode [] := fun _ _ => .nil

theorem append (h : FitsNode fields) (h' : FitsNode fields') : FitsNode (fields ++ fields') :=
  fun depth child => (h depth child).append (h' depth child)

theorem ite {p : Prop} [Decidable p] (h : p → FitsNode fields) (h' : ¬ p → FitsNode fields') :
    FitsNode (if p then fields else fields') :=
  fun depth child => .ite (fun hp => h hp depth child) fun hp => h' hp depth child

theorem optional {key : String} {d : Option Datum} (h : ∀ v ∈ d, FitsNode [(key, v)]) :
    FitsNode (Outline.optional key d) := by
  cases d with
  | none => exact nil
  | some v => exact h v rfl

theorem listField {key : String} {items : List Datum} (h : FitsNode [(key, .list items)]) :
    FitsNode (Outline.listField key items) := .ite (fun _ => .nil) fun _ => h

end FitsNode

/-! ## Geometry -/

section Parts

variable {d : Datum}

theorem boundingBox_valid (h : IsLayer d) :
    ∃ fields, boundingBox d = .ok fields ∧ FitsNode fields := by
  obtain ⟨box, hbox, hbox'⟩ := h.box.get h.record
  unfold boundingBox
  simp only [hbox, Outcome.ok_bind]
  rcases hbox' with rfl | hbox'
  · exact ⟨[], rfl, .nil⟩
  · obtain ⟨x, hx, hx'⟩ := (hbox'.place "x" (by decide)).fieldOr hbox'.record zero_isNumber
    obtain ⟨y, hy, hy'⟩ := (hbox'.place "y" (by decide)).fieldOr hbox'.record zero_isNumber
    obtain ⟨width, hw, hw'⟩ := (hbox'.size "width" (by decide)).fieldOr hbox'.record zero_isSize
    obtain ⟨height, hh, hh'⟩ := (hbox'.size "height" (by decide)).fieldOr hbox'.record zero_isSize
    simp only [hbox'.record, hx, hy, hw, hh, Outcome.ok_bind, Outcome.pure_eq, Bool.not_true,
      Bool.false_eq_true, if_false]
    refine ⟨_, rfl, fun depth child => .single (optional_eq_nil ?_) rfl⟩
    simp [Schema.boundingBox, model, Field.issues, need, List.lookup, under, hx'.passes, hy'.passes,
      hw'.passes, hh'.passes]

theorem constraintsField_valid (h : IsLayer d) :
    ∃ fields, constraintsField d = .ok fields ∧ FitsNode fields := by
  unfold constraintsField
  rw [Datum.get_eq h.record, Outcome.ok_bind]
  generalize (d.at? "constraints").getD .null = c
  cases hc : c.isRecord with
  | false => exact ⟨[], rfl, .nil⟩
  | true =>
    simp only [Datum.fieldOr_eq hc, Outcome.ok_bind, Outcome.pure_eq, Bool.not_true,
      Bool.false_eq_true, if_false]
    refine ⟨_, rfl, fun depth child => .single (optional_eq_nil ?_) rfl⟩
    exact tableOf_eq_nil.2 (by simp)

theorem vectorPath_valid {entry p : Datum} (h : IsCurve entry) (hp : vectorPath? entry = some p) :
    Schema.vectorPath p = [] := by
  obtain ⟨rule, hrule, hrule'⟩ := (h.word "windingRule" (by decide)).fieldOr h.record
    (isText_text "NONZERO")
  rw [Datum.fieldOr_eq h.record] at hrule
  cases hrule
  unfold vectorPath? at hp
  simp only at hp
  have hword := Datum.orElse_of (P := fun v => v = .null ∨ IsText v)
    (.inr (h.word "data" (by decide)).getD) (h.word "path" (by decide)).getD
  generalize ((entry.at? "data").getD .null).orElse ((entry.at? "path").getD .null) = data at hp hword
  split at hp
  · have hdata : IsText data := Datum.of_truthy hword (by assumption)
    cases hp
    simp [Schema.vectorPath, model, Field.issues, need, may, List.lookup, under, hdata.passes,
      hrule'.passes]
  · cases hp

theorem vectorPaths_valid (h : IsLayer d) :
    ∃ paths, vectorPaths d = .ok paths ∧ ∀ p ∈ paths, Schema.vectorPath p = [] := by
  obtain ⟨kind, hkind, -⟩ := (h.word "type" (by decide)).get h.record
  obtain ⟨paths, hpaths, hpaths'⟩ := (h.vectorPaths "vectorPaths" (by decide)).get h.record
  obtain ⟨shapes, hshapes, hshapes'⟩ := (h.vectorPaths "fillGeometry" (by decide)).get h.record
  obtain ⟨items, hitems, hcurves⟩ := Datum.orElse_of
    (Datum.orElse_of (P := fun v => v = .null ∨ IsListOf IsCurve v) (.inr hpaths') hshapes') .nil
  unfold vectorPaths
  simp only [hkind, hpaths, hshapes, Outcome.ok_bind, hitems]
  split
  · exact ⟨[], rfl, by simp⟩
  · refine ⟨_, rfl, fun p hp => ?_⟩
    obtain ⟨entry, hentry, hp⟩ := List.mem_filterMap.1 hp
    exact vectorPath_valid (hcurves entry hentry) hp

/-! ## Layout -/

theorem measure_valid (h : IsLayer d) (key : String) (hk : key ∈ layerMeasures) :
    ∃ v, measure d key = .ok v ∧ number v = [] := by
  obtain ⟨v, hv, hv'⟩ := (h.measure key hk).get h.record
  unfold measure
  rw [hv, Outcome.ok_bind]
  exact ⟨_, rfl, (Datum.orElse_of hv' zero_isNumber).passes⟩

theorem layout_valid (h : IsLayer d) :
    ∃ r, layout d = .ok r ∧ ∀ l ∈ r, Schema.layout l = [] := by
  obtain ⟨main, hmain, hmain'⟩ := (h.word "primaryAxisAlignItems" (by decide)).fieldOr h.record
    (isText_text "MIN")
  obtain ⟨cross, hcross, hcross'⟩ := (h.word "counterAxisAlignItems" (by decide)).fieldOr h.record
    (isText_text "MIN")
  obtain ⟨justify, hjustify, -⟩ := named_ok justifications (.inr hmain')
  obtain ⟨align, halign, -⟩ := named_ok alignments (.inr hcross')
  obtain ⟨top, ht, ht'⟩ := measure_valid h "paddingTop" (by decide)
  obtain ⟨right, hr, hr'⟩ := measure_valid h "paddingRight" (by decide)
  obtain ⟨bottom, hb, hb'⟩ := measure_valid h "paddingBottom" (by decide)
  obtain ⟨left, hl, hl'⟩ := measure_valid h "paddingLeft" (by decide)
  obtain ⟨gap, hg, hg'⟩ := measure_valid h "itemSpacing" (by decide)
  unfold layout
  simp only [Datum.get_eq h.record, hmain, hcross, hjustify, halign, ht, hr, hb, hl, hg,
    Outcome.ok_bind]
  split
  · exact ⟨none, rfl, by simp⟩
  · refine ⟨_, rfl, fun l hl => ?_⟩
    obtain rfl := Option.some.inj hl
    have hdisplay : oneOf ["flex"] (.text "flex") = [] := oneOf_text (by decide)
    generalize hdirection : (if ((d.at? "layoutMode").getD .null).isThe "HORIZONTAL" = true
      then "row" else "column") = direction
    have hdirection' : oneOf ["row", "column"] (.text direction) = [] :=
      oneOf_text (by rw [← hdirection]; split <;> decide)
    have hwrap : ∀ s, Check.optional text (.text s) = [] := fun s => rfl
    split <;> simp [Schema.layout, Schema.padding, model, Field.issues, need, may, maybe, List.lookup,
      under, hdisplay, hdirection', hwrap, ht', hr', hb', hl', hg']

/-! ## Text -/

theorem lineHeight_ok (h : d.isRecord = true) : ∃ s, lineHeight d = .ok s := by
  unfold lineHeight
  simp only [Datum.get_eq h, Outcome.ok_bind]
  generalize (d.at? "lineHeight").getD .null = height
  cases hh : height.isRecord with
  | true =>
    simp only [Datum.get_eq hh, Outcome.ok_bind, if_true]
    split_ifs <;> exact ⟨_, rfl⟩
  | false =>
    simp only [Bool.false_eq_true, if_false]
    split_ifs <;> exact ⟨_, rfl⟩

theorem textAlign_ok (h : d = .null ∨ IsText d) : ∃ s, textAlign d = .ok s := by
  unfold textAlign
  split
  · exact ⟨_, rfl⟩
  · obtain ⟨s, hs⟩ := eq_text (Datum.orElse_of h (isText_text "LEFT"))
    rw [hs]
    exact ⟨_, rfl⟩

theorem typography_valid (h : IsStyle d) :
    ∃ t, typography d = .ok t ∧ Schema.typography t = [] := by
  obtain ⟨family, hfamily, hfamily'⟩ := (h.word "fontFamily" (by decide)).get h.record
  obtain ⟨size, hsize, hsize'⟩ := h.size.get h.record
  obtain ⟨weight, hweight, hweight'⟩ := h.weight.get h.record
  obtain ⟨align, halign, halign'⟩ := (h.word "textAlignHorizontal" (by decide)).get h.record
  obtain ⟨decoration, hdecoration, hdecoration'⟩ := (h.word "textDecoration" (by decide)).get h.record
  obtain ⟨case, hcase, hcase'⟩ := (h.word "textCase" (by decide)).get h.record
  obtain ⟨height, hheight⟩ := lineHeight_ok h.record
  obtain ⟨made, hmade⟩ := textAlign_ok halign'
  obtain ⟨line, hline, -⟩ := named_ok [("UNDERLINE", "underline"), ("STRIKETHROUGH", "line-through")]
    hdecoration'
  obtain ⟨transform, htransform, -⟩ :=
    named_ok [("UPPER", "uppercase"), ("LOWER", "lowercase"), ("TITLE", "capitalize")] hcase'
  have hname := (Datum.orElse_of hfamily' (isText_text "Inter")).passes
  have hpositive : positive (size.orElse (.int 16)) = [] := by
    unfold Datum.orElse
    split
    · rename_i htruthy
      exact (Datum.of_truthy hsize' htruthy).positive htruthy
    · exact positive_passes (x := 16.0) (double_eq rfl) (by decide)
  have hnumber : number (weight.orElse (.int 400)) = [] :=
    (Datum.orElse_of hweight' ⟨400.0, rfl⟩).passes
  unfold typography
  simp only [hfamily, hsize, hweight, halign, hdecoration, hcase, hheight, hmade, hline, htransform,
    Datum.get_eq h.record, Outcome.ok_bind]
  refine ⟨_, rfl, ?_⟩
  simp [Schema.typography, model, Field.issues, need, List.lookup, under, hname, hpositive, hnumber]

theorem textFields_valid (h : IsLayer d) :
    ∃ fields, textFields d = .ok fields ∧ FitsNode fields := by
  obtain ⟨style, hstyle, hstyle'⟩ := h.style.get h.record
  obtain ⟨t, ht, ht'⟩ := typography_valid (Datum.orElse_of hstyle'
    ⟨rfl, fun key _ => part_empty key _, part_empty _ _, part_empty _ _⟩)
  obtain ⟨path, hpath, hpath'⟩ := h.textPath.get h.record
  unfold textFields
  simp only [hstyle, ht, hpath, Datum.get_eq h.record, Outcome.ok_bind]
  refine ⟨_, rfl, .append (.append ?_ ?_) ?_⟩
  · exact fun depth child => .single (optional_eq_nil ht') rfl
  · refine .ite (fun _ => .nil) fun _ depth child => .single (optional_eq_nil ?_) rfl
    rfl
  · refine .ite (fun hdata depth child => .single (optional_eq_nil ?_) rfl) fun _ => .nil
    rcases hpath' with rfl | hcurve
    · cases hdata
    · have htext := (Datum.of_truthy (hcurve.word "data" (by decide)).getD hdata).passes
      simp [Schema.textPath, model, Field.issues, need, List.lookup, under, htext]

/-! ## Surface and paints -/

theorem surfaceFields_valid (h : IsLayer d) :
    ∃ fields, surfaceFields d = .ok fields ∧ FitsNode fields := by
  obtain ⟨blend, hblend, hblend'⟩ := (h.word "blendMode" (by decide)).get h.record
  obtain ⟨opacity, hop, hop'⟩ := h.opacity.get h.record
  obtain ⟨radius, hradius, hradius'⟩ := h.cornerRadius.get h.record
  obtain ⟨radii, hradii, hradii'⟩ := h.cornerRadii.get h.record
  unfold surfaceFields
  simp only [hblend, hop, hradius, hradii, Outcome.ok_bind]
  refine ⟨_, rfl, .append (.append (.append ?_ ?_) ?_) ?_⟩
  · refine .ite (fun ht depth child => .single (optional_eq_nil ?_) rfl) fun _ => .nil
    exact (Datum.of_truthy hblend' ht).passes
  · refine .ite (fun _ => .nil) fun hn depth child => .single (optional_eq_nil ?_) rfl
    exact (hop'.resolve_left (by rintro rfl; exact hn rfl)).passes
  · refine .ite (fun hn depth child => .single (optional_eq_nil ?_) rfl) fun _ => .nil
    exact (hradius'.resolve_left (by rintro rfl; cases hn)).passes
  · rcases hradii' with rfl | hradii'
    · exact .nil
    · obtain ⟨items, rfl, hitems⟩ := hradii'
      refine .ite (fun _ depth child => .single (optional_eq_nil ?_) rfl) fun _ => .nil
      exact listOf_eq_nil.2 fun i hi => (hitems i hi).isNumber.passes

theorem paintFields_valid (h : IsLayer d) :
    ∃ fields, paintFields d = .ok fields ∧ FitsNode fields := by
  obtain ⟨fills, hfills, hfills'⟩ := itemsOf_ok h.fills h.record
  obtain ⟨strokes, hstrokes, hstrokes'⟩ := itemsOf_ok h.strokes h.record
  obtain ⟨effects, heffects, heffects'⟩ := itemsOf_ok h.effects h.record
  obtain ⟨paints, hpaints, hpaints'⟩ := Outcome.mapM_all
    (fun i hi => hfills' i (List.mem_of_mem_filter hi) : ∀ i ∈ fills.filter isVisible, IsPaint i)
    fun i => paint_valid
  obtain ⟨lines, hlines, hlines'⟩ := Outcome.mapM_all
    (fun i hi => hstrokes' i (List.mem_of_mem_filter hi) : ∀ i ∈ strokes.filter isVisible, IsPaint i)
    fun i hi => stroke_valid hi h
  obtain ⟨shown, hshown, hshown'⟩ := Outcome.mapM_all
    (fun i hi => heffects' i (List.mem_of_mem_filter hi) :
      ∀ i ∈ effects.filter Datum.isRecord, IsEffect i) fun i => effect_valid
  unfold paintFields
  simp only [hfills, hstrokes, heffects, hpaints, hlines, hshown, Outcome.ok_bind]
  refine ⟨_, rfl, .append (.append (.listField ?_) (.listField ?_)) (.listField ?_)⟩
  · exact fun depth child => .single (listOf_eq_nil.2 fun p hp => hpaints' p hp depth) rfl
  · exact fun depth child => .single (listOf_eq_nil.2 hlines') rfl
  · exact fun depth child => .single (listOf_eq_nil.2 hshown') rfl

/-! ## Bindings and names -/

theorem refId_text {ref id : Datum} (h : ref.Part "id" IsText) (hid : refId? ref = some id) :
    IsText id := by
  unfold refId? at hid
  cases hv : ref.at? "id" with
  | none => rw [hv] at hid; cases hid
  | some v =>
    rw [hv] at hid
    simp only at hid
    split at hid
    · cases hid
      exact h _ hv
    · cases hid

theorem boundVariables_valid (h : IsLayer d) :
    ∃ bound, boundVariables d = .ok bound ∧ ∀ row ∈ bound, IsText row.2 := by
  obtain ⟨v, hv, hv'⟩ := h.bindings.get h.record
  unfold boundVariables
  rw [hv, Outcome.ok_bind]
  rcases hv' with rfl | ⟨fields, rfl, hfields⟩
  · exact ⟨[], rfl, by simp⟩
  · refine ⟨_, rfl, fun row hrow => ?_⟩
    obtain ⟨⟨property, ref⟩, href, hrow⟩ := List.mem_filterMap.1 hrow
    have hbinding := hfields _ href
    obtain ⟨id, hid, rfl⟩ := Option.map_eq_some_iff.1 hrow
    cases ref with
    | list refs =>
      obtain ⟨ref, hmem, hid⟩ := List.exists_of_findSome?_eq_some hid
      exact refId_text (hbinding.several refs rfl ref hmem) hid
    | _ => exact refId_text hbinding.one hid

theorem ownProperties_ok (h : d.isRecord = true) : ∃ t, Variant.ownProperties d = .ok t := by
  unfold Variant.ownProperties
  rw [Datum.get_eq h, Outcome.ok_bind]
  split <;> exact ⟨_, rfl⟩

theorem texts_passes (t : Table String String) : tableOf text (Variant.texts t) = [] :=
  tableOf_eq_nil.2 fun row hrow => by
    obtain ⟨_, -, rfl⟩ := List.mem_map.1 hrow
    rfl

theorem roleHint_mem {name role : String} (h : roleHint name = some role) : role ∈ Schema.roles := by
  unfold roleHint roleOf at h
  simp only at h
  split_ifs at h <;> cases h <;> decide

/-- The slot that a layer makes, whatever slots there are. -/
theorem slot_valid {name : String} {id : Datum} {slots : List Slot} {slot : Slot} (hid : IsText id)
    (h : Slot.ofLayer? name id slots = some slot) : Schema.slot slot.toDatum = [] := by
  obtain ⟨w, hw, rfl⟩ := Option.map_eq_some_iff.1 h
  have hmem : w ∈ Slot.vocabulary := List.mem_of_find?_eq_some hw
  have hword : ∀ w ∈ Slot.vocabulary, w.base.isEmpty = false ∧
      w.kind ∈ ["text", "icon", "content", "action", "prefix", "suffix"] := by decide
  obtain ⟨hbase, hkind⟩ := hword w hmem
  obtain ⟨ending, hending, -⟩ :=
    (Slot.nameFor_getsName w.base (Text.lower name) (slots.map Slot.name)).eq_append
  have hname : nonEmptyText
      (.text (Slot.nameFor w.base (Text.lower name) (slots.map Slot.name))) = [] := by
    rw [hending, nonEmptyText, if_neg]
    rw [String.isEmpty_iff, String.append_eq_empty_iff]
    rintro ⟨hempty, -⟩
    rw [hempty] at hbase
    cases hbase
  simp [Slot.toDatum, Schema.slot, model, Field.issues, need, may, maybe, List.lookup, under, hname,
    oneOf_text hkind, truth, optional_eq_nil hid.passes]

end Parts

/-! ## Nodes -/

theorem nodeFields_plain (fill child : Check) : Plain (Schema.nodeFields fill child) := by
  constructor
  · simp [Schema.nodeFields, need, may, maybe]
  · simp [Schema.nodeFields, need, may, maybe]

/-- The fields of a node together with children that pass. -/
theorem FitsNode.passes {fields : List (String × Datum)} (h : FitsNode fields)
    (hneeded : ∀ key ∈ ["id", "name", "type"], fields.lookup key ≠ none) {depth : Nat}
    {children : List Datum} (hchildren : ∀ c ∈ children, Schema.node depth c = []) :
    Schema.node (depth + 1) (withChildren fields children) = [] := by
  rw [Schema.node, withChildren]
  refine model_passes (nodeFields_plain _ _) (fun f hf hr => ?_)
    ((h depth _).append (.single (listOf_eq_nil.2 hchildren) rfl))
  have hkey : f.key ∈ ["id", "name", "type"] := by
    simp only [Schema.nodeFields, List.mem_cons, List.not_mem_nil, or_false] at hf
    rcases hf with rfl | rfl | rfl | hf
    · simp [need]
    · simp [need]
    · simp [need]
    · -- the other fields may be left out
      rcases hf with rfl | rfl | rfl | rfl | rfl | rfl | rfl | rfl | rfl | rfl | rfl | rfl | rfl |
        rfl | rfl | rfl | rfl | rfl | rfl | rfl <;> cases hr
  rw [List.lookup_append]
  cases hl : fields.lookup f.key with
  | none => exact absurd hl (hneeded f.key hkey)
  | some d => simp

/-- A layer makes a node, and it has the right shape. -/
theorem node_valid {layer : Datum} (h : IsLayer layer) (place : Nat) (slots : List Slot) :
    ∃ fields slots', node layer place slots = .ok (fields, slots') ∧ FitsNode fields ∧
      (∀ key ∈ ["id", "name", "type"], fields.lookup key ≠ none) ∧
      ∀ s ∈ slots', s ∈ slots ∨ Schema.slot s.toDatum = [] := by
  obtain ⟨name, hname, hname'⟩ := (h.word "name" (by decide)).get h.record
  obtain ⟨kind, hkind, hkind'⟩ := (h.word "type" (by decide)).get h.record
  obtain ⟨id, hid, hid'⟩ := (h.word "id" (by decide)).fieldOr h.record
    (isText_text "")
  obtain ⟨s, hs⟩ := eq_text (Datum.orElse_of hname' (isText_text ""))
  have hkind'' := Datum.orElse_of hkind' (isText_text "FRAME")
  obtain ⟨box, hbox, hbox'⟩ := boundingBox_valid h
  obtain ⟨arranged, harranged, harranged'⟩ := layout_valid h
  obtain ⟨painted, hpainted, hpainted'⟩ := paintFields_valid h
  obtain ⟨written, hwritten, hwritten'⟩ := textFields_valid h
  obtain ⟨pinned, hpinned, hpinned'⟩ := constraintsField_valid h
  obtain ⟨surface, hsurface, hsurface'⟩ := surfaceFields_valid h
  obtain ⟨paths, hpaths, hpaths'⟩ := vectorPaths_valid h
  obtain ⟨bound, hbound, hbound'⟩ := boundVariables_valid h
  obtain ⟨properties, hproperties⟩ := ownProperties_ok h.record
  -- only a text layer has the fields of a text
  obtain ⟨extra, hextra, hextra'⟩ : ∃ extra,
      (if (kind.orElse (.text "FRAME")).isThe "TEXT" then textFields layer else pure []) =
        (.ok extra : Outcome _) ∧ FitsNode extra := by
    split
    · exact ⟨written, hwritten, hwritten'⟩
    · exact ⟨[], rfl, .nil⟩
  unfold node
  simp only [hname, hkind, hid, hs, Datum.textMember, hbox, harranged, hpainted, hpinned, hsurface,
    hpaths, hbound, hproperties, Outcome.ok_bind]
  rw [Outcome.ite_bind, hextra, Outcome.ok_bind]
  refine ⟨_, _, rfl, ?_, ?_, fun slot hslot => ?_⟩
  · have hown : FitsNode [("id", id), ("name", .text s), ("type", kind.orElse (.text "FRAME")),
        ("zIndex", .int place)] := fun depth child =>
      .cons hid'.passes rfl <| .cons (text_text s) rfl <| .cons hkind''.passes rfl <|
        .single (show integer (.int place) = [] from rfl) rfl
    have hrole : FitsNode (optional "roleHint" ((roleHint s).map .text)) := by
      refine .optional fun v hv depth child => .single (optional_eq_nil ?_) rfl
      obtain ⟨role, hrole, rfl⟩ := Option.map_eq_some_iff.1 hv
      exact oneOf_text (roleHint_mem hrole)
    have hslot : FitsNode
        (optional "slotName" ((Slot.ofLayer? s id slots).map fun s => .text s.name)) := by
      refine .optional fun v hv depth child => .single (optional_eq_nil ?_) rfl
      obtain ⟨slot, -, rfl⟩ := Option.map_eq_some_iff.1 hv
      exact text_text slot.name
    refine hown |>.append hrole |>.append hbox' |>.append ?_ |>.append hpainted' |>.append hextra'
      |>.append hpinned' |>.append hsurface' |>.append ?_ |>.append ?_ |>.append ?_ |>.append hslot
    · exact .optional fun v hv depth child => .single (optional_eq_nil (harranged' v hv)) rfl
    · exact .listField fun depth child => .single (listOf_eq_nil.2 hpaths') rfl
    · exact .ite (fun _ => .nil) fun _ depth child =>
        .single (tableOf_eq_nil.2 fun row hrow => (hbound' row hrow).passes) rfl
    · exact .ite (fun _ => .nil) fun _ depth child => .single (texts_passes properties) rfl
  · simp
  · rcases List.mem_append.1 hslot with hslot | hslot
    · exact .inl hslot
    · exact .inr (slot_valid hid' (Option.mem_toList.1 hslot))

end Maquette.Outline
