/-
The outline of a design is always made and always has the right shape. Each layer makes a node that
passes, so by induction on how the tree has grown every node passes with its children, however deep
it is checked; the slots pass because their names are distinct. The hints are read from the tree, and
what passes can be read.

The slots of every outline that a builder makes, whatever it has made before. They are those that the
nodes of the outline's tree name, in the order in which a walk meets these nodes; no two have one name,
and each node has the name that the rule gives it after the nodes before it.
-/
import Maquette.Proofs.Outline.NodeShape
import Maquette.Proofs.Outline.Slots
import Maquette.Schema.Document

namespace Maquette.Outline

open Check

/-! ## The tree -/

section Tree

variable {s : Scene}

/-- Layers are turned into nodes. -/
theorem nodes_valid {visits : List Visit} (h : ∀ v ∈ visits, IsLayer (s.dataAt v.node))
    (slots : List Slot) : ∃ rows slots', nodes s slots visits = .ok (rows, slots') := by
  induction visits generalizing slots with
  | nil => exact ⟨[], slots, rfl⟩
  | cons v visits ih =>
    obtain ⟨hv, hvisits⟩ := List.forall_mem_cons.1 h
    obtain ⟨fields, slots₁, hnode, -⟩ := node_valid hv v.place slots
    obtain ⟨rows, slots', hrows⟩ := ih hvisits slots₁
    refine ⟨(v, fields) :: rows, slots', ?_⟩
    rw [nodes, hnode, Outcome.ok_bind]
    simp only [hrows]
    rfl

/-- What grows from layers passes: all slots, and each node with the nodes below it. -/
theorem Grown.valid {slots slots' : List Slot} {forest : Forest Visit} {trees : List Datum}
    (h : Grown s slots forest trees slots')
    (hlayers : ∀ v ∈ forest.preorder, IsLayer (s.dataAt v.node))
    (hslots : ∀ slot ∈ slots, Schema.slot slot.toDatum = []) :
    (∀ slot ∈ slots', Schema.slot slot.toDatum = []) ∧
      (∀ depth, ∀ t ∈ trees, Schema.node depth t = []) ∧
      ∀ depth k, ∀ row ∈ Datum.preorderItems k trees, Schema.node depth row.1 = [] := by
  induction h with
  | nil => exact ⟨hslots, by simp, by simp [Datum.preorderItems]⟩
  | @cons v below after fields children trees slots slots₁ slots₂ slots' hv _ _ ihb iha =>
    rw [Forest.preorder] at hlayers
    obtain ⟨hlayer, hlayers⟩ := List.forall_mem_cons.1 hlayers
    obtain ⟨fields', slots₁', hnode, hfits, hneeded, hmade⟩ := node_valid hlayer v.place slots
    rw [hv] at hnode
    cases hnode
    obtain ⟨hslots₂, hbelow, hbelow'⟩ := ihb (fun w hw => hlayers w (List.mem_append_left _ hw))
      fun slot hslot => (hmade slot hslot).elim (hslots slot) id
    obtain ⟨hslots', hafter, hafter'⟩ := iha (fun w hw => hlayers w (List.mem_append_right _ hw)) hslots₂
    -- checked one step deeper, a node asks its children to pass one step less deep
    have hpasses : ∀ depth, Schema.node depth (withChildren fields children) = [] := by
      intro depth
      cases depth with
      | zero => rfl
      | succ depth => exact hfits.passes hneeded (hbelow depth)
    refine ⟨hslots', fun depth => List.forall_mem_cons.2 ⟨hpasses depth, hafter depth⟩,
      fun depth k row hrow => ?_⟩
    rw [Datum.preorderItems, withChildren, Datum.preorder, preorderFields_children (node_childless hv),
      List.cons_append, List.mem_cons, List.mem_append] at hrow
    rcases hrow with rfl | hrow | hrow
    · exact hpasses depth
    · exact hbelow' depth _ row hrow
    · exact hafter' depth _ row hrow

end Tree

/-! ## Hints -/

theorem anyM_ok {f : Datum → Outcome Bool} {items : List Datum} (h : ∀ i ∈ items, ∃ b, f i = .ok b) :
    ∃ b, items.anyM f = .ok b := by
  induction items with
  | nil => exact ⟨false, rfl⟩
  | cons i items ih =>
    obtain ⟨hi, hitems⟩ := List.forall_mem_cons.1 h
    obtain ⟨b, hb⟩ := hi
    obtain ⟨b', hb'⟩ := ih hitems
    rw [List.anyM, hb, Outcome.ok_bind]
    cases b
    · exact ⟨b', hb'⟩
    · exact ⟨true, rfl⟩

/-- The field of a node that passes, if it is there, passes the check of its name. -/
theorem field_passes {given : List (String × Datum)} {depth : Nat}
    (h : Schema.node (depth + 1) (.record given) = []) {key : String} {c : Check} {v : Datum}
    (hf : ((Schema.nodeFields (Schema.paint depth) (Schema.node depth)).find? (·.key == key)).map
      Field.check = some c) (hv : given.lookup key = some v) : c v = [] := by
  obtain ⟨f, hfind, rfl⟩ := Option.map_eq_some_iff.1 hf
  have hkey : f.key = key := by simpa using List.find?_some hfind
  rw [Schema.node, model_eq_nil (nodeFields_plain _ _)] at h
  exact (h f (List.mem_of_find?_eq_some hfind)).2 v (by rw [hkey, hv])

/-- A list of records among a node's fields. -/
theorem records_ok {given : List (String × Datum)} {key name : String} {fields : List Field}
    (h : ∀ v, given.lookup key = some v → listOf (model name fields) v = []) :
    ∃ items, (do (← (Datum.record given).fieldOr key (.list [])).items) = .ok items ∧
      ∀ i ∈ items, i.isRecord = true := by
  rw [Datum.fieldOr_eq rfl, Outcome.ok_bind]
  show ∃ items, ((given.lookup key).getD (.list [])).items = _ ∧ _
  cases hv : given.lookup key with
  | none => exact ⟨[], rfl, by simp⟩
  | some v =>
    have hlist := h v hv
    cases v with
    | list items =>
      refine ⟨items, rfl, fun i hi => ?_⟩
      obtain ⟨given, rfl⟩ := record_of_model (listOf_eq_nil.1 hlist i hi)
      rfl
    | _ => cases hlist

/-- What a node that passes needs can be read from it. -/
theorem ofNode_ok (needs : Needs) {n : Datum} (h : Schema.node 2 n = []) :
    ∃ needs', needs.ofNode n = .ok needs' := by
  obtain ⟨given, rfl⟩ := record_of_model h
  have hr : (Datum.record given).isRecord = true := rfl
  obtain ⟨strokes, hstrokes, hstrokes'⟩ := records_ok fun v (hv : given.lookup "strokes" = some v) =>
    field_passes h (c := listOf Schema.stroke) rfl hv
  obtain ⟨fills, hfills, hfills'⟩ := records_ok fun v (hv : given.lookup "fills" = some v) =>
    field_passes h (c := listOf (Schema.paint 1)) rfl hv
  obtain ⟨inner, hinner⟩ : ∃ b, strokes.anyM (fun s =>
      return (← s.get "position").isOneOf ["inside", "center"]) = (.ok b : Outcome Bool) :=
    anyM_ok fun i hi => ⟨_, by rw [Datum.get_eq (hstrokes' i hi)]; rfl⟩
  obtain ⟨blended, hblended⟩ : ∃ b, fills.anyM (fun f =>
      return (← f.get "type").isThe "gradient") = (.ok b : Outcome Bool) :=
    anyM_ok fun i hi => ⟨_, by rw [Datum.get_eq (hfills' i hi)]; rfl⟩
  have hblend : (((Datum.record given).at? "blendMode").getD .null).isKey = true := by
    cases hv : (Datum.record given).at? "blendMode" with
    | none => rfl
    | some v =>
      have htext := field_passes h (c := Check.optional text) rfl hv
      cases v <;> first | rfl | cases htext
  rw [Datum.fieldOr_eq hr, Outcome.ok_bind] at hstrokes hfills
  unfold Needs.ofNode
  simp only [Datum.fieldOr_eq hr, Datum.get_eq hr, Outcome.ok_bind, hstrokes, hfills, hinner]
  generalize ((Datum.record given).at? "blendMode").getD .null = blend at hblend
  split
  · simp only [hblended, Datum.asKey_eq hblend, Outcome.ok_bind]
    split <;> exact ⟨_, rfl⟩
  · simp only [Datum.asKey_eq hblend, Outcome.ok_bind]
    split <;> exact ⟨_, rfl⟩

theorem visualHints_valid {t : Datum} {rows : List (Datum × Nat)} (hw : Walked.ofDatum t = ⟨rows, none⟩)
    (h : ∀ row ∈ rows, Schema.node 2 row.1 = []) :
    ∃ hints, visualHints t = .ok hints ∧ Schema.visualHints hints = [] := by
  have hfold : ∀ needs : Needs, ∃ needs', rows.foldlM (fun (needs : Needs) (row : Datum × Nat) =>
      needs.ofNode row.1) needs = .ok needs' := by
    clear hw
    induction rows with
    | nil => exact fun needs => ⟨needs, rfl⟩
    | cons row rows ih =>
      obtain ⟨hrow, hrows⟩ := List.forall_mem_cons.1 h
      intro needs
      obtain ⟨needs₁, hneeds⟩ := ofNode_ok needs hrow
      rw [List.foldlM_cons, hneeds]
      exact ih hrows needs₁
  obtain ⟨needs, hneeds⟩ := hfold ⟨false, false, false⟩
  unfold visualHints
  rw [hw]
  have hwalk : Walked.foldM ⟨rows, none⟩ (fun (needs : Needs) node _ => needs.ofNode node)
      ⟨false, false, false⟩ = .ok needs := by
    rw [Walked.foldM]
    simp only [hneeds]
    rfl
  rw [hwalk]
  refine ⟨_, rfl, ?_⟩
  have hstrategy : oneOf ["pseudo", "outline"]
      (.text (if needs.pseudo then "pseudo" else "outline")) = [] :=
    oneOf_text (by split <;> decide)
  simp [Needs.toDatum, Schema.visualHints, model, Field.issues, may, List.lookup, under, truth, hstrategy]

/-! ## Beside the tree -/

/-- A layer of which nothing is known but its id, its name and its kind. -/
theorem isLayer_of_words {fields : List (String × Datum)}
    (h : ∀ row ∈ fields, row.1 = "children" ∨ row.1 ∈ ["id", "name", "type"] ∧ IsText row.2) :
    IsLayer (.record fields) := by
  have hat : ∀ key v, (Datum.record fields).at? key = some v →
      key = "children" ∨ key ∈ ["id", "name", "type"] ∧ IsText v := by
    intro key v hv
    obtain ⟨before, after, rfl, -⟩ := List.lookup_eq_some_iff.1 hv
    exact h (key, v) (by simp)
  have hforeign : ∀ key, key ∉ ["children", "id", "name", "type"] → ∀ P,
      (Datum.record fields).Part key P := by
    intro key hkey P v hv
    rcases hat key v hv with rfl | ⟨hmem, -⟩
    · exact absurd hkey (by decide)
    · exact absurd (List.mem_cons_of_mem "children" hmem) hkey
  have hmeasures : ∀ key ∈ layerMeasures, key ∉ ["children", "id", "name", "type"] := by decide
  have hshapes : ∀ key ∈ ["vectorPaths", "fillGeometry"], key ∉ ["children", "id", "name", "type"] := by
    decide
  constructor
  case record => rfl
  case word =>
    intro key hkey v hv
    rcases hat key v hv with rfl | ⟨-, htext⟩
    · exact absurd hkey (by decide)
    · exact htext
  case measure => exact fun key hkey => hforeign key (hmeasures key hkey) _
  case vectorPaths => exact fun key hkey => hforeign key (hshapes key hkey) _
  all_goals exact hforeign _ (by decide) _

theorem empty_isLayer : IsLayer .empty := isLayer_of_words (by simp)

theorem layoutIntent_valid {root : Datum} (h : IsLayer root) :
    ∃ intent, layoutIntent root = .ok intent ∧ Schema.layoutIntent intent = [] := by
  have hword : ∀ key ∈ layerWords, (root.at? key).getD .null = .null ∨
      IsText ((root.at? key).getD .null) := fun key hk => (h.word key hk).getD
  have hsizing : ∀ v : Datum, v = .null ∨ IsText v → ∃ r, named sizings v = .ok r ∧
      oneOf ["fixed", "fluid", "intrinsic"] (.text (r.getD "intrinsic")) = [] := by
    intro v hv
    obtain ⟨r, hr, hmem⟩ := named_ok sizings hv
    refine ⟨r, hr, oneOf_text ?_⟩
    cases r with
    | none => decide
    | some s =>
      have : s ∈ sizings.map Prod.snd := hmem s rfl
      simp only [sizings, List.map_cons, List.map_nil, List.mem_cons, List.not_mem_nil, or_false] at this
      rcases this with rfl | rfl <;> decide
  have hboth : ∀ v w : Datum, (v = .null ∨ IsText v) → (w = .null ∨ IsText w) → ∃ intent,
      (do return .record [("horizontal", .text ((← named sizings v).getD "intrinsic")),
        ("vertical", .text ((← named sizings w).getD "intrinsic"))]) = (.ok intent : Outcome Datum) ∧
        Schema.layoutIntent intent = [] := by
    intro v w hv hw
    obtain ⟨r, hr, hr'⟩ := hsizing v hv
    obtain ⟨r', hw, hw'⟩ := hsizing w hw
    simp only [hr, hw, Outcome.ok_bind]
    refine ⟨_, rfl, ?_⟩
    simp [Schema.layoutIntent, model, Field.issues, need, List.lookup, under, hr', hw']
  unfold layoutIntent
  simp only [Datum.get_eq h.record, Outcome.ok_bind]
  split_ifs <;> exact hboth _ _ (hword _ (by decide)) (hword _ (by decide))

theorem componentType_ok {root : Datum} (h : root.isRecord = true) : ∃ t, componentType root = .ok t ∧
    oneOf ["component-set", "component", "frame"] (.text t) = [] := by
  unfold componentType
  rw [Datum.get_eq h, Outcome.ok_bind]
  refine ⟨_, rfl, oneOf_text ?_⟩
  split_ifs <;> decide

/-! ## Variants -/

/-- The name and the id of a variant are texts. -/
def IsVariant (v : Variant) : Prop := IsText v.name ∧ IsText v.nodeId

theorem ofNode_valid {d : Datum} (h : IsLayer d) (properties : Table String String) :
    ∃ v, Variant.ofNode d properties = .ok v ∧ IsVariant v := by
  obtain ⟨name, hname, hname'⟩ := (h.word "name" (by decide)).fieldOr h.record
    (isText_text "")
  obtain ⟨id, hid, hid'⟩ := (h.word "id" (by decide)).fieldOr h.record
    (isText_text "")
  unfold Variant.ofNode
  simp only [hname, hid, Outcome.ok_bind]
  exact ⟨_, rfl, hname', hid'⟩

theorem ofChild_valid {d : Datum} (h : IsLayer d) :
    ∃ r, Variant.ofChild d = .ok r ∧ ∀ v ∈ r, IsVariant v := by
  obtain ⟨own, hown⟩ := ownProperties_ok h.record
  obtain ⟨name, hname, hname'⟩ := (h.word "name" (by decide)).fieldOr h.record
    (isText_text "")
  obtain ⟨s, rfl⟩ := eq_text hname'
  have hmade : ∀ properties : Table String String, ∃ r,
      (if properties.isEmpty then return none else return some (← Variant.ofNode d properties)) =
        (.ok r : Outcome (Option Variant)) ∧ ∀ v ∈ r, IsVariant v := by
    intro properties
    obtain ⟨v, hv, hvariant⟩ := ofNode_valid h properties
    split
    · exact ⟨none, rfl, by simp⟩
    · refine ⟨some v, by rw [hv]; rfl, fun w hw => ?_⟩
      cases hw
      exact hvariant
  unfold Variant.ofChild
  simp only [hown, hname, Datum.textOrEmpty_text, Outcome.ok_bind]
  split
  · exact hmade _
  · exact hmade own

theorem extract_valid {root : Datum} (h : IsLayer root) {children : List Datum}
    (hchildren : ∀ d ∈ children, IsLayer d) :
    ∃ vs, Variant.extract root (.ok children) = .ok vs ∧ ∀ v ∈ vs, IsVariant v := by
  obtain ⟨own, hown⟩ := ownProperties_ok h.record
  obtain ⟨rs, hrs, hvariants⟩ := Outcome.mapM_all hchildren fun d => ofChild_valid
  obtain ⟨v, hv, hvariant⟩ := ofNode_valid h own
  unfold Variant.extract
  simp only [Datum.get_eq h.record, hown, hrs, hv, Outcome.ok_bind]
  split
  · refine ⟨_, rfl, fun v hv => ?_⟩
    obtain ⟨r, hr, hv⟩ := List.mem_filterMap.1 hv
    exact hvariants r hr v hv
  · split
    · exact ⟨[], rfl, by simp⟩
    · exact ⟨[v], rfl, by simpa using hvariant⟩

theorem IsVariant.passes {v : Variant} (h : IsVariant v) :
    model "Variant" [need "name" text, need "properties" (tableOf text), may "nodeId" text]
      v.toDatum = [] := by
  simp [Variant.toDatum, model, Field.issues, need, may, List.lookup, under, h.1.passes, h.2.passes,
    texts_passes]

theorem semanticState_mem (words : String) : semanticState words ∈ Schema.stateNames := by
  have hall : ∀ row ∈ stateWords, row.2 ∈ Schema.stateNames := by decide
  unfold semanticState
  simp only
  generalize hf : List.find? _ stateWords = found
  cases found with
  | none => decide
  | some row => exact hall row (List.mem_of_find?_eq_some hf)

theorem joinItems_ok (sep : String) {items : List Datum} (h : ∀ d ∈ items, IsText d) :
    ∃ s, Datum.joinItems sep items = .ok s := by
  unfold Datum.joinItems
  rw [Outcome.mapM_ok (g := fun d => d.text?.getD "")]
  · exact ⟨_, rfl⟩
  · intro d hd
    obtain ⟨s, rfl⟩ := eq_text (h d hd)
    rfl

theorem stateEntry_valid {v : Variant} (h : IsVariant v) :
    ∃ e, v.stateEntry = .ok e ∧
      model "StateMappingEntry"
        [need "figmaVariant" text, need "semanticState" (oneOf Schema.stateNames)] e = [] := by
  obtain ⟨w, hw⟩ : ∃ w, v.words = .ok w := by
    refine joinItems_ok " " (List.forall_mem_cons.2 ⟨h.1, fun d hd => ?_⟩)
    obtain ⟨_, -, rfl⟩ := List.mem_map.1 hd
    rfl
  unfold Variant.stateEntry
  rw [hw, Outcome.ok_bind]
  refine ⟨_, rfl, ?_⟩
  simp [model, Field.issues, need, List.lookup, under, h.1.passes, oneOf_text (semanticState_mem w)]

/-! ## The document -/

theorem repeated?_eq_none {names seen : List String} (h : names.Nodup) (hseen : ∀ n ∈ names, n ∉ seen) :
    Schema.repeated? seen names = none := by
  induction names generalizing seen with
  | nil => rfl
  | cons n names ih =>
    obtain ⟨hn, hnames⟩ := List.nodup_cons.1 h
    obtain ⟨hfresh, hrest⟩ := List.forall_mem_cons.1 hseen
    rw [Schema.repeated?, if_neg (by simpa using hfresh)]
    refine ih hnames fun m hm hmem => ?_
    rcases List.mem_cons.1 hmem with rfl | hmem
    · exact hn hm
    · exact hrest m hm hmem

/-- Slots with different names pass. -/
theorem slots_pass {slots : List Slot} (h : ∀ slot ∈ slots, Schema.slot slot.toDatum = [])
    (hd : (slots.map Slot.name).Nodup) : Schema.slots (.list (slots.map Slot.toDatum)) = [] := by
  have hlist : listOf Schema.slot (.list (slots.map Slot.toDatum)) = [] := by
    refine listOf_eq_nil.2 fun d hmem => ?_
    obtain ⟨slot, hslot, rfl⟩ := List.mem_map.1 hmem
    exact h slot hslot
  have hnames : (slots.map Slot.toDatum).filterMap (fun s => (s.at? "name").bind Datum.text?) =
      slots.map Slot.name := by
    rw [List.filterMap_map, ← List.filterMap_eq_map]
    rfl
  unfold Schema.slots followedBy
  have hrepeated : Schema.repeated? [] (slots.map Slot.name) = none := repeated?_eq_none hd (by simp)
  simp only [hlist, Schema.distinctSlots, hnames, hrepeated]

theorem nonEmptyText_orElse {d : Datum} (h : d = .null ∨ IsText d) {s : String} (hs : s ≠ "") :
    nonEmptyText (d.orElse (.text s)) = [] := by
  have hgiven : ∀ t : String, t ≠ "" → nonEmptyText (.text t) = [] := by
    intro t ht
    rw [nonEmptyText, if_neg (by simpa using ht)]
  unfold Datum.orElse
  split
  · rename_i htruthy
    obtain ⟨t, rfl⟩ := eq_text (Datum.of_truthy h htruthy)
    exact hgiven t (by simpa [Datum.isTruthy] using htruthy)
  · exact hgiven s hs

theorem document_valid {s : Scene} {source : Origin} {t : Datum} {slots : List Slot}
    {rows : List (Datum × Nat)} {children : List Datum} (ho : IsOrigin source)
    (hroot : IsLayer s.rootData) (hchildren : s.rootChildren = .ok children)
    (hlayers : ∀ d ∈ children, IsLayer d) (ht : ∀ depth, Schema.node depth t = [])
    (hw : Walked.ofDatum t = ⟨rows, none⟩) (hrows : ∀ row ∈ rows, Schema.node 2 row.1 = [])
    (hslots : ∀ slot ∈ slots, Schema.slot slot.toDatum = []) (hd : (slots.map Slot.name).Nodup) :
    ∃ doc, document s source (some t) slots = .ok doc ∧ Schema.outline doc = [] := by
  have hroot : IsLayer (s.rootData.orElse .empty) := Datum.orElse_of (.inr hroot) empty_isLayer
  obtain ⟨vs, hvs, hvs'⟩ : ∃ vs, Variant.ofScene s = .ok vs ∧ ∀ v ∈ vs, IsVariant v := by
    unfold Variant.ofScene
    rw [hchildren]
    exact extract_valid hroot hlayers
  obtain ⟨name, hname, hname'⟩ := (hroot.word "name" (by decide)).get hroot.record
  obtain ⟨id, hid, hid'⟩ := (hroot.word "id" (by decide)).fieldOr hroot.record
    (isText_text "")
  obtain ⟨kind, hkind, hkind'⟩ := (hroot.word "type" (by decide)).fieldOr hroot.record
    (isText_text "FRAME")
  obtain ⟨intent, hintent, hintent'⟩ := layoutIntent_valid hroot
  obtain ⟨hints, hhints, hhints'⟩ := visualHints_valid hw hrows
  obtain ⟨states, hstates, hstates'⟩ : ∃ states, vs.mapM Variant.stateEntry = .ok states ∧
      Schema.stateMapping (.list states) = [] := by
    obtain ⟨states, hstates, hpass⟩ := Outcome.mapM_all hvs' fun v => stateEntry_valid
    exact ⟨states, hstates, listOf_eq_nil.2 hpass⟩
  obtain ⟨component, hcomponent, hcomponent'⟩ := componentType_ok hroot.record
  have hcount : (Walked.ofDatum t).count = .ok rows.length := by rw [hw]; rfl
  have hvariants : Schema.variants (.list (vs.map Variant.toDatum)) = [] := by
    refine listOf_eq_nil.2 fun d hd => ?_
    obtain ⟨v, hv, rfl⟩ := List.mem_map.1 hd
    exact (hvs' v hv).passes
  have hat : IsText (source.extractedAt.orElse (.text epoch)) :=
    Datum.orElse_of ho.extractedAt rfl
  unfold document
  simp only [Option.getD_some, hvs, hname, hid, hkind, hintent, hhints, hstates, hcomponent, hcount,
    Outcome.ok_bind]
  refine ⟨_, rfl, ?_⟩
  simp [Schema.outline, Schema.origin, model, Field.issues, need, may, List.lookup, under,
    nonEmptyText_orElse hname' (show "Unnamed" ≠ "" by decide), ho.url.passes, hid'.passes,
    hkind'.passes, hcomponent', hat.passes, ho.fileKey.passes, ht, hvariants, slots_pass hslots hd,
    hintent', hhints', hstates']

/-! ## Outlines -/

section Outline

variable {s : Scene} {root : Nat} {source : Origin}

/-- A graph of layers always has an outline, and it has the right shape. -/
theorem ofScene_valid (hs : s.IsGraph) (hroot : s.root = .node root) (hr : root < s.nodes.size)
    (hlayers : ∀ i, s.Reachable root i → IsLayer (s.dataAt i)) (ho : IsOrigin source) :
    ∃ doc, ofScene s source = .ok doc ∧ Schema.validateOutline doc = .ok () := by
  obtain ⟨below, h⟩ := Scene.exists_explored hs hr
  have hvisits : ∀ v ∈ (Forest.cons ⟨root, 0, 0⟩ below .nil).preorder, IsLayer (s.dataAt v.node) :=
    fun v hv => hlayers v.node ((Scene.mem_explored h _).1 (List.mem_map_of_mem hv))
  obtain ⟨rows, slots, hnodes⟩ := nodes_valid hvisits []
  rcases tree_eq hs hroot hr h with ⟨f, hf, -⟩ | ⟨t, slots, htree, hg⟩
  · rw [hnodes] at hf
    cases hf
  · obtain ⟨hslots, htrees, hall⟩ := hg.valid hvisits (by simp)
    obtain ⟨ts, hts⟩ := hs.listed root hr
    have hchildren : s.rootChildren = .ok (ts.filterMap (·.map s.dataAt)) := by
      rw [Scene.rootChildren, hroot]
      simp only [hts]
    have hrows : ∀ row ∈ t.preorder 0, Schema.node 2 row.1 = [] := by
      intro row hrow
      exact hall 2 0 row (by simpa [Datum.preorderItems] using hrow)
    obtain ⟨doc, hdoc, hpasses⟩ := document_valid ho
      (by rw [Scene.rootData, hroot]; exact hlayers root .refl) hchildren
      (fun d hd => by
        obtain ⟨target, htarget, hd⟩ := List.mem_filterMap.1 hd
        obtain ⟨i, rfl, rfl⟩ := Option.map_eq_some_iff.1 hd
        exact hlayers i (.single ⟨ts, hts, htarget⟩))
      (fun depth => htrees depth t (by simp)) (walked_eq hg) hrows hslots
      ((hg.slotted 0).nodup (by simp))
    refine ⟨doc, ?_, ?_⟩
    · rw [ofScene, htree, Outcome.ok_bind]
      exact hdoc
    · rw [Schema.validateOutline, Schema.validate, hpasses]

end Outline

/-! ## A design with few fields -/

/-- A gradient without stops that is nested in another one. -/
def nestedGradient : Datum :=
  .record [("type", .text "GRADIENT_LINEAR"),
    ("parentGradient", .record [("type", .text "GRADIENT_RADIAL"), ("opacity", .float 0.5)])]

/-- A text layer that has neither an id nor a name. -/
def caption : Datum :=
  .record [("type", .text "TEXT"), ("style", .record [("fontSize", .int 0)]),
    ("fills", .list [nestedGradient])]

/-- A component of one text that has nothing but a name. -/
def card : Datum := .record [("name", .text "Card"), ("children", .list [caption])]

theorem isPaint_nested : IsPaint nestedGradient := by
  have hparent : IsPaint (.record [("type", .text "GRADIENT_RADIAL"), ("opacity", .float 0.5)]) := by
    refine .intro rfl ?_ ?_ ?_ ?_ ?_ ?_ ?_
    · intro key hkey v hv
      simp only [List.mem_cons, List.not_mem_nil, or_false] at hkey
      rcases hkey with rfl | rfl | rfl | rfl <;> cases hv
      rfl
    · intro v hv
      cases hv
      exact ⟨0.5, rfl, by decide⟩
    all_goals
      intro v hv
      cases hv
  refine .intro rfl ?_ ?_ ?_ ?_ ?_ ?_ ?_
  · intro key hkey v hv
    simp only [List.mem_cons, List.not_mem_nil, or_false] at hkey
    rcases hkey with rfl | rfl | rfl | rfl <;> cases hv
    rfl
  all_goals
    intro v hv
    cases hv
  exact hparent

theorem isLayer_caption : IsLayer caption := by
  constructor
  case record => rfl
  case word =>
    intro key hkey v hv
    simp only [layerWords, List.mem_cons, List.not_mem_nil, or_false] at hkey
    rcases hkey with rfl | rfl | rfl | rfl | rfl | rfl | rfl | rfl | rfl | rfl <;> cases hv
    rfl
  case measure =>
    intro key hkey v hv
    simp only [layerMeasures, List.mem_cons, List.not_mem_nil, or_false] at hkey
    rcases hkey with rfl | rfl | rfl | rfl | rfl <;> cases hv
  case vectorPaths =>
    intro key hkey v hv
    simp only [List.mem_cons, List.not_mem_nil, or_false] at hkey
    rcases hkey with rfl | rfl <;> cases hv
  case fills =>
    intro v hv
    cases hv
    exact ⟨[nestedGradient], rfl, by simpa using isPaint_nested⟩
  case style =>
    intro v hv
    cases hv
    refine ⟨rfl, fun key hkey v hv => ?_, fun v hv => ?_, fun v hv => ?_⟩
    · simp only [List.mem_cons, List.not_mem_nil, or_false] at hkey
      rcases hkey with rfl | rfl | rfl | rfl <;> cases hv
    · cases hv
      exact zero_isSize
    · cases hv
  all_goals
    intro v hv
    cases hv

theorem isDesign_card : IsDesign card := by
  refine ⟨rfl, by decide, fun row hrow => ?_⟩
  have hrows : card.preorder 0 = [(card, 0), (caption, 1)] := rfl
  rw [hrows] at hrow
  simp only [List.mem_cons, List.not_mem_nil, or_false] at hrow
  rcases hrow with rfl | rfl
  · refine isLayer_of_words fun row hrow => ?_
    simp only [List.mem_cons, List.not_mem_nil, or_false] at hrow
    rcases hrow with rfl | rfl
    · exact .inr ⟨by decide, rfl⟩
    · exact .inl rfl
  · exact isLayer_caption

section Builds

variable {b : Builder} {orders : List Order} {k : Nat} {o : Order} {root : Nat}

/-- A node of a grown tree that names a slot is listed with it. -/
theorem slots_of_tree {s : Scene} (hs : s.IsGraph) (hroot : s.root = .node root)
    (hr : root < s.nodes.size) {source : Origin} {doc : Datum} (h : ofScene s source = .ok doc) :
    ∃ t slots, doc.at? "tree" = some t ∧ doc.at? "slots" = some (.list (slots.map Slot.toDatum)) ∧
      Walked.ofDatum t = ⟨t.preorder 0, none⟩ ∧ Slotted [] ((t.preorder 0).map (·.1)) slots := by
  obtain ⟨t', slots', ht', hdoc⟩ := ofScene_ok h
  obtain ⟨htree, hslots, -⟩ := document_ok hdoc
  obtain ⟨below, hx⟩ := Scene.exists_explored hs hr
  rcases tree_eq hs hroot hr hx with ⟨f, -, hf⟩ | ⟨t, slots, ht, hg⟩
  · rw [hf] at ht'
    cases ht'
  · rw [ht] at ht'
    cases ht'
    have hslotted := hg.slotted 0
    rw [Datum.preorderItems, Datum.preorderItems, List.append_nil] at hslotted
    exact ⟨t, _, htree, hslots, walked_eq hg, hslotted⟩

/-- A toolbar with three icons, two of them of one name. -/
def toolbar : List Datum :=
  let layer (id name : String) (children : List Datum) : Datum :=
    .record [("id", .text id), ("name", .text name), ("children", .list children)]
  [layer "0" "Toolbar" [.int 1, .int 2, .int 3], layer "1" "Icon" [], layer "2" "Icon left" [],
    layer "3" "Icon" []]

/-- The toolbar, to be outlined. -/
def toolbarOrder : Order := ⟨Scene.ofShared toolbar 0, .text "", .text ""⟩

theorem isNumbered_toolbar : ∀ d ∈ toolbar, Scene.IsNumbered d := by
  intro d hd
  simp only [toolbar, List.mem_cons, List.not_mem_nil, or_false] at hd
  rcases hd with rfl | rfl | rfl | rfl
  · exact ⟨rfl, .inr ⟨_, rfl, by decide⟩⟩
  · exact ⟨rfl, .inl rfl⟩
  · exact ⟨rfl, .inl rfl⟩
  · exact ⟨rfl, .inl rfl⟩

theorem isLayer_toolbar (i : Nat) (hi : i < (Scene.ofShared toolbar 0).nodes.size) :
    IsLayer ((Scene.ofShared toolbar 0).dataAt i) := by
  have hdata : ∀ i < 4, (Scene.ofShared toolbar 0).dataAt i ∈ toolbar := by
    intro i hi
    have : i = 0 ∨ i = 1 ∨ i = 2 ∨ i = 3 := by omega
    rcases this with rfl | rfl | rfl | rfl
    · exact .head _
    · exact .tail _ (.head _)
    · exact .tail _ (.tail _ (.head _))
    · exact .tail _ (.tail _ (.tail _ (.head _)))
  have hall : ∀ d ∈ toolbar, IsLayer d := by
    intro d hd
    simp only [toolbar, List.mem_cons, List.not_mem_nil, or_false] at hd
    rcases hd with rfl | rfl | rfl | rfl <;>
    · refine isLayer_of_words fun row hrow => ?_
      simp only [List.mem_cons, List.not_mem_nil, or_false] at hrow
      rcases hrow with rfl | rfl | rfl
      · exact .inr ⟨by decide, rfl⟩
      · exact .inr ⟨by decide, rfl⟩
      · exact .inl rfl
  exact hall _ (hdata i hi)

end Builds

end Maquette.Outline
