/-
The slots that are shown: those of the nodes that become elements. A graphic shows none, neither that
of its own node nor those below it; a text shows its own one, and so does an input, whose element
stays empty. Every node becomes at most one element, so the slots that are shown are some of those
that the nodes name, in walking order, and their ids are all the ids that the nodes write out.
-/
import Maquette.Proofs.Component.Attributes
import Maquette.Proofs.Scene.Planted
import Maquette.Interaction.Document

namespace Maquette.Component

open Markup (Attribute Bears Carries Named)
open Interaction (slotId)

/-! ## Slots of layers -/

/-- The slot that a node names, as it is written. -/
def ownSlot? (d : Datum) : Option String := ((d.at? "slotName").filter Datum.isTruthy).map Datum.shown

namespace Layer

/-- Whether a node becomes a graphic. -/
def isGraphic (d : Datum) : Bool :=
  let kind := (d.at? "type").getD .null
  let curve := ((d.at? "textPath").getD .null).orElse .empty
  kind.isOneOf Svg.shapeKinds || kind.isThe "TEXT" && ((curve.at? "data").getD .null).isTruthy

/-- Whether the element of a node shows nothing of what is inside of the node. -/
def isClosed (d : Datum) : Bool :=
  ((d.at? "type").getD .null).isThe "TEXT" || isVoid (roleTag ((d.at? "roleHint").getD .null))

mutual

/-- The slots whose nodes become elements. -/
def slots : Layer → List String
  | broken _ => []
  | node d children =>
    if isGraphic d then []
    else (ownSlot? d).toList ++ if isClosed d then [] else allSlots children

def allSlots : List Layer → List String
  | [] => []
  | l :: rest => slots l ++ allSlots rest

end

end Layer

/-! ## Slots of nodes in walking order -/

/-- The slots that nodes name. -/
def slotsAmong (nodes : List Datum) : List String := nodes.filterMap ownSlot?

theorem slotsAmong_cons (d : Datum) (nodes : List Datum) :
    slotsAmong (d :: nodes) = (ownSlot? d).toList ++ slotsAmong nodes := by
  rw [slotsAmong, List.filterMap_cons]
  cases ownSlot? d <;> rfl

theorem slotsAmong_append (nodes nodes' : List Datum) :
    slotsAmong (nodes ++ nodes') = slotsAmong nodes ++ slotsAmong nodes' := List.filterMap_append

mutual

/-- The slots that are shown are some of those that the nodes name, in walking order. -/
theorem slots_sublist (depth : Nat) (d : Datum) :
    (Layer.read d).slots.Sublist (slotsAmong ((d.preorder depth).map Prod.fst)) := by
  match d with
  | .record fields =>
    have hin := slotsFields_sublist (depth + 1) fields
    rw [Layer.read, Layer.slots, Datum.preorder, List.map_cons, slotsAmong_cons]
    split
    · exact List.nil_sublist _
    · refine List.Sublist.append (.refl _) ?_
      split
      · exact List.nil_sublist _
      · exact hin
  | .null | .bool _ | .int _ | .float _ | .text _ | .list _ => exact List.nil_sublist _

theorem slotsFields_sublist (depth : Nat) (fields : List (String × Datum)) :
    (Layer.allSlots (Layer.readFields fields)).Sublist
      (slotsAmong ((Datum.preorderFields depth fields).map Prod.fst)) := by
  match fields with
  | [] => exact List.nil_sublist _
  | (k, v) :: rest =>
    rw [Layer.readFields, Datum.preorderFields]
    split
    · exact slotsChildren_sublist depth v
    · exact slotsFields_sublist depth rest

theorem slotsChildren_sublist (depth : Nat) (d : Datum) :
    (Layer.allSlots (Layer.readChildren d)).Sublist
      (slotsAmong ((Datum.preorderChildren depth d).map Prod.fst)) := by
  match d with
  | .list items => exact slotsItems_sublist depth items
  | .record fields => rw [Layer.readChildren]; split <;> exact List.nil_sublist _
  | .text s => rw [Layer.readChildren]; split <;> exact List.nil_sublist _
  | .null | .bool _ | .int _ | .float _ =>
    rw [Layer.readChildren.eq_def]; simp only; split <;> exact List.nil_sublist _

theorem slotsItems_sublist (depth : Nat) (items : List Datum) :
    (Layer.allSlots (Layer.readItems items)).Sublist
      (slotsAmong ((Datum.preorderItems depth items).map Prod.fst)) := by
  match items with
  | [] => exact List.nil_sublist _
  | d :: rest =>
    rw [Layer.readItems, Layer.allSlots, Datum.preorderItems, List.map_append,
      slotsAmong_append]
    exact (slots_sublist depth d).append (slotsItems_sublist depth rest)

end

/-! ## Ids of elements -/

theorem labelMarks_named {label : Datum} {as : List Attribute} (h : labelMarks label = .ok as) :
    Named ["role", "aria-label", "aria-hidden"] as := by
  unfold labelMarks at h
  split at h
  · obtain ⟨mark, hmark, h⟩ := Outcome.bind_ok h
    cases h
    have hnamed : Named ["role", "aria-label"] [Attribute.text "role" "img", mark] :=
      .of_eq (by simp [Attribute.name_ofDatum hmark]) (by decide)
    exact hnamed.mono (by decide)
  · cases h
    exact (Named.of_eq rfl (by decide) : Named ["aria-hidden"] _).mono (by decide)

theorem styleAttributes_named {style : List (String × Datum)} {as : List Attribute}
    (h : styleAttributes style = .ok as) : Named ["style"] as := by
  unfold styleAttributes at h
  split at h
  · cases h; exact .nil
  · obtain ⟨c, -, h⟩ := Outcome.bind_ok h
    cases h
    exact .of_eq rfl (by decide)

/-- The marks of an element that stands for a slot write out its id. -/
theorem slotMarks_bears {d : Datum} {as : List Attribute}
    (h : slotMarks ((d.at? "slotName").getD .null) = .ok as) :
    Bears ["data-slot", "id"] as ((ownSlot? d).toList.map slotId) [] := by
  unfold slotMarks at h
  unfold ownSlot?
  split at h
  · rename_i ht
    obtain ⟨mark, hmark, h⟩ := Outcome.bind_ok h
    cases h
    have hname := Attribute.name_ofDatum hmark
    have hid : mark.literalId? = none := Attribute.literalId?_ne (by rw [hname]; decide)
    have hrefs : mark.references = [] :=
      Attribute.references_ne (by rw [hname]; decide) (by rw [hname]; decide)
    refine ⟨.of_eq (by simp [hname]) (by decide), ?_, by simp [Markup.referencesOf, hrefs]; rfl⟩
    cases hs : d.at? "slotName" with
    | none => rw [hs] at ht; cases ht
    | some slot =>
      rw [hs] at ht
      simp only [Option.getD_some] at ht
      rw [Markup.idsOf, Option.filter_some, ht, List.filterMap_cons_none hid]
      rfl
  · rename_i ht
    cases h
    refine ⟨.nil, ?_, rfl⟩
    cases hs : d.at? "slotName" with
    | none => rfl
    | some slot =>
      rw [hs] at ht
      simp only [Option.getD_some] at ht
      simp [Markup.idsOf, ht]

/-- Class, slot and style of an element: its id is that of the slot. -/
theorem commonAttributes_bears {tokens : TokenTable} {d : Datum} {as : List Attribute}
    (h : commonAttributes tokens d = .ok as) :
    Bears ["className", "data-slot", "id", "style"] as ((ownSlot? d).toList.map slotId) [] := by
  unfold commonAttributes at h
  obtain ⟨name, -, h⟩ := Outcome.bind_ok h
  obtain ⟨slot, hslot, h⟩ := Outcome.bind_ok h
  obtain ⟨marks, hmarks, h⟩ := Outcome.bind_ok h
  obtain ⟨style, -, h⟩ := Outcome.bind_ok h
  obtain ⟨styled, hstyled, h⟩ := Outcome.bind_ok h
  cases h
  rw [(Datum.get_ok hslot).2] at hmarks
  have hclass : Bears ["className"] [Attribute.text "className" name] [] [] :=
    .of_named (.of_eq rfl (by decide)) (by decide) (by decide) (by decide)
  have hstyle : Bears ["style"] styled [] [] :=
    .of_named (styleAttributes_named hstyled) (by decide) (by decide) (by decide)
  exact ((hclass.append (slotMarks_bears hmarks) (by decide)).append hstyle (by decide)).congr
    (List.append_nil _) rfl

theorem graphic_carries {d : Datum} {svg : Svg} {label : Datum} {m : Markup}
    (h : graphic d svg label = .ok m) : Carries [m] [] [] := by
  unfold graphic at h
  obtain ⟨name, -, h⟩ := Outcome.bind_ok h
  obtain ⟨told, htold, h⟩ := Outcome.bind_ok h
  cases h
  have hclass : Named ["className"] [Attribute.text "className" name] := .of_eq rfl (by decide)
  have hhtml : Named ["dangerouslySetInnerHTML"] [Attribute.code "dangerouslySetInnerHTML"
    [.raw "\x7b __html: ", .literal svg.render, .raw " \x7d"]] := .of_eq rfl (by decide)
  have hall := (hclass.append (labelMarks_named htold) (by decide)).append hhtml (by decide)
  exact .element .inline (.plain "div")
    (.of_named hall (by decide) (by decide) (by decide)) .nil

theorem textContent_carries {characters : Datum} {slot : Option Datum} {ms : List Markup}
    (h : textContent characters slot = .ok ms) : Carries ms [] [] := by
  unfold textContent at h
  split at h
  · cases h; exact .expr _
  · cases h
  · cases h
    split
    · exact .nil
    · exact .text _

theorem plainText_carries {tokens : TokenTable} {d : Datum} {slot : Option Datum} {m : Markup}
    (h : plainText tokens d slot = .ok m) :
    Carries [m] ((ownSlot? d).toList.map slotId) [] := by
  unfold plainText at h
  obtain ⟨attributes, hattributes, h⟩ := Outcome.bind_ok h
  obtain ⟨characters, -, h⟩ := Outcome.bind_ok h
  obtain ⟨content, hcontent, h⟩ := Outcome.bind_ok h
  cases h
  exact (Carries.element .inline (.plain "span") (commonAttributes_bears hattributes)
    (textContent_carries hcontent)).congr (List.append_nil _) rfl

/-- Whether a text runs along a curve can be told from its node. -/
theorem hasCurve_ok {d : Datum} {b : Bool} (ht : ((d.at? "type").getD .null).isThe "TEXT" = true)
    (h : Svg.hasCurve d = .ok b) :
    b = (((((d.at? "textPath").getD .null).orElse .empty).at? "data").getD .null).isTruthy := by
  unfold Svg.hasCurve at h
  obtain ⟨kind, hkind, h⟩ := Outcome.bind_ok h
  rw [(Datum.get_ok hkind).2, ht] at h
  obtain ⟨path, hpath, h⟩ := Outcome.bind_ok h
  obtain ⟨data, hdata, h⟩ := Outcome.bind_ok h
  cases h
  rw [(Datum.get_ok hdata).2, (Datum.get_ok hpath).2]

/-- A text is drawn as a graphic if it has one along a curve. -/
theorem isGraphic_of_text {d : Datum} {svg : Option Svg}
    (ht : ((d.at? "type").getD .null).isThe "TEXT" = true)
    (hs : ((d.at? "type").getD .null).isOneOf Svg.shapeKinds = false)
    (h : Svg.curvedText? d = .ok svg) : Layer.isGraphic d = svg.isSome := by
  unfold Svg.curvedText? at h
  obtain ⟨curved, hcurved, h⟩ := Outcome.bind_ok h
  have hgraphic : Layer.isGraphic d = curved := by
    rw [hasCurve_ok ht hcurved, Layer.isGraphic, hs, ht]
    rfl
  rw [hgraphic]
  cases curved with
  | false => cases h; rfl
  | true =>
    obtain ⟨⟨width, height⟩, -, h⟩ := Outcome.bind_ok h
    iterate 12 obtain ⟨_, -, h⟩ := Outcome.bind_ok h
    cases h
    rfl

theorem textMarkup_carries {tokens : TokenTable} {d : Datum} {slot : Option Datum} {m : Markup}
    (ht : ((d.at? "type").getD .null).isThe "TEXT" = true)
    (hs : ((d.at? "type").getD .null).isOneOf Svg.shapeKinds = false)
    (h : textMarkup tokens d slot = .ok m) :
    Carries [m] ((if Layer.isGraphic d then [] else (ownSlot? d).toList).map slotId) [] := by
  unfold textMarkup at h
  obtain ⟨svg, hsvg, h⟩ := Outcome.bind_ok h
  rw [isGraphic_of_text ht hs hsvg]
  cases svg with
  | none => exact plainText_carries h
  | some svg =>
    obtain ⟨_, -, h⟩ := Outcome.bind_ok h
    obtain ⟨_, -, h⟩ := Outcome.bind_ok h
    exact graphic_carries h

/-- The tag of what is no text is that of its role. -/
theorem elementTag_ok {d : Datum} {tag : String}
    (ht : ((d.at? "type").getD .null).isThe "TEXT" = false) (h : elementTag d = .ok tag) :
    tag = roleTag ((d.at? "roleHint").getD .null) := by
  unfold elementTag at h
  obtain ⟨kind, hkind, h⟩ := Outcome.bind_ok h
  rw [(Datum.get_ok hkind).2, if_neg (by simp [ht])] at h
  obtain ⟨role, hrole, h⟩ := Outcome.bind_ok h
  obtain ⟨key, hkey, h⟩ := Outcome.bind_ok h
  cases h
  rw [Datum.asKey_ok hkey, (Datum.get_ok hrole).2]

/-- An element carries the slot of its node and, unless it is closed, what is inside of it. -/
theorem elementOf_carries {tag : String} {attributes : List Attribute} {slot : Option Datum}
    {children : List Markup} {ids inner : List String}
    (ha : Bears ["className", "data-slot", "id", "style"] attributes ids [])
    (hc : Carries children inner []) :
    Carries [elementOf tag attributes slot children]
      (ids ++ if isVoid tag then [] else inner) [] := by
  have htype : Bears ["type"] (if tag == "button" then [Attribute.text "type" "button"] else []) []
      [] := .of_named (.ite (.of_eq rfl (by decide))) (by decide) (by decide) (by decide)
  have hinner : Carries (if children.isEmpty then slot.toList.map fun name => Markup.expr [.ref name.shown]
      else children) inner [] := by
    cases children with
    | nil =>
      cases hc.ids_eq
      cases slot with
      | none => exact .nil
      | some name => exact .expr _
    | cons m ms => exact hc
  have hbody : Carries (if isVoid tag then [] else
      if children.isEmpty then slot.toList.map fun name => Markup.expr [.ref name.shown] else children)
      (if isVoid tag then [] else inner) [] := by
    split
    · exact .nil
    · exact hinner
  exact .element (.block 1) (.plain tag) (htype.append ha (by decide)) hbody

mutual

/-- Layers write out the ids of the slots that they show, and refer to nothing. -/
theorem layer_carries {tokens : TokenTable} {table : SlotTable} (l : Layer) {m : Markup}
    (h : l.markup tokens table = .ok m) : Carries [m] (l.slots.map slotId) [] := by
  match l with
  | .broken f => cases h
  | .node d children =>
    rw [Layer.markup] at h
    obtain ⟨slot, -, h⟩ := Outcome.bind_ok h
    obtain ⟨shape, hshape, h⟩ := Outcome.bind_ok h
    obtain ⟨kind, hkind, hshape⟩ := Outcome.bind_ok hshape
    cases hshape
    rw [(Datum.get_ok hkind).2] at h
    rw [Layer.slots]
    split at h
    · rename_i hs
      obtain ⟨svg, -, h⟩ := Outcome.bind_ok h
      have hgraphic : Layer.isGraphic d = true := by simp [Layer.isGraphic, hs]
      rw [if_pos hgraphic]
      exact graphic_carries h
    · rename_i hs
      rw [Bool.not_eq_true] at hs
      obtain ⟨kind', hkind', h⟩ := Outcome.bind_ok h
      rw [(Datum.get_ok hkind').2] at h
      split at h
      · rename_i ht
        have hclosed : Layer.isClosed d = true := by simp [Layer.isClosed, ht]
        rw [if_pos hclosed, List.append_nil]
        exact textMarkup_carries ht hs h
      · rename_i ht
        rw [Bool.not_eq_true] at ht
        obtain ⟨tag, htag, h⟩ := Outcome.bind_ok h
        obtain ⟨common, hcommon, h⟩ := Outcome.bind_ok h
        obtain ⟨inner, hinner, h⟩ := Outcome.bind_ok h
        cases h
        have hgraphic : Layer.isGraphic d = false := by
          simp [Layer.isGraphic, hs, ht]
        have hclosed : Layer.isClosed d = isVoid tag := by
          rw [elementTag_ok ht htag, Layer.isClosed]
          simp [ht]
        rw [hgraphic, hclosed]
        refine (elementOf_carries (commonAttributes_bears hcommon)
          (layers_carries children hinner)).congr ?_ rfl
        cases isVoid tag <;> simp

theorem layers_carries {tokens : TokenTable} {table : SlotTable} (ls : List Layer) {ms : List Markup}
    (h : Layer.allMarkup tokens table ls = .ok ms) : Carries ms ((Layer.allSlots ls).map slotId) [] := by
  match ls with
  | [] => cases h; exact .nil
  | l :: rest =>
    rw [Layer.allMarkup] at h
    obtain ⟨m, hm, h⟩ := Outcome.bind_ok h
    obtain ⟨ms, hms, h⟩ := Outcome.bind_ok h
    cases h
    rw [Layer.allSlots, List.map_append]
    exact (layer_carries l hm).cons (layers_carries rest hms)

end

end Maquette.Component
