/-
The component of an outline. Its nodes are nodes of the outline's tree, which name the slots that the
outline lists, each one once; so it shows slots of the outline, each at most once, and the ids that it
writes out are distinct.
-/
import Maquette.Proofs.Component.Built
import Maquette.Proofs.Component.Elements
import Maquette.Proofs.Outline.Listed

namespace Maquette.Component

open Markup (Attribute)
open Interaction (slotId)

/-! ## Slots of the nodes -/

theorem readItems_eq (items : List Datum) : Layer.readItems items = items.map Layer.read := by
  induction items with
  | nil => rfl
  | cons d items ih => rw [Layer.readItems, ih, List.map_cons]

theorem preorderItems_sublist (depth : Nat) {nodes items : List Datum} (h : nodes.Sublist items) :
    (Datum.preorderItems depth nodes).Sublist (Datum.preorderItems depth items) := by
  induction h with
  | slnil => exact .refl _
  | cons d _ ih => exact ih.trans (List.sublist_append_right _ _)
  | cons_cons d _ ih => exact (List.Sublist.refl _).append ih

/-- The slots that nodes name as they are written are those that they name. -/
theorem slotsAmong_sublist {slots slots' : List Outline.Slot} {nodes : List Datum}
    (h : Outline.Slotted slots nodes slots') :
    (slotsAmong nodes).Sublist (Outline.slotNames nodes) := by
  induction h with
  | nil => exact .slnil
  | @cons slots slots' n id name rest _ _ hslot _ ih =>
    have hown : (ownSlot? n).toList.Sublist ((n.at? "slotName").bind Datum.text?).toList := by
      rw [ownSlot?, hslot]
      cases Outline.Slot.ofLayer? name id slots with
      | none => exact .slnil
      | some slot =>
        rw [Option.map_some, Option.filter_some]
        split
        · exact .refl _
        · exact List.nil_sublist _
    rw [slotsAmong_cons, Outline.slotNames, List.filterMap_cons]
    cases hname : (n.at? "slotName").bind Datum.text? with
    | none => rw [hname] at hown; exact hown.append ih
    | some slot => rw [hname] at hown; exact hown.append ih

/-! ## The component of an outline -/

section Outlined

variable {scene : Scene} {origin : Outline.Origin} {outline : Datum}

/-- The nodes of a plan for an outline are nodes of its tree, so the slots that they and the nodes below
them name are slots of the outline, each named at most once. -/
theorem Plan.nodes_of_scene {p : Plan} (ho : Outline.ofScene scene origin = .ok outline)
    (hp : p.blueprint.outline = outline) :
    ∃ (nodes : List Datum) (slots : List Outline.Slot), p.nodes = .ok nodes ∧
      outline.at? "slots" = some (.list (slots.map Outline.Slot.toDatum)) ∧
      (slots.map Outline.Slot.name).Nodup ∧ (∀ slot ∈ slots, Outline.Slot.IsName slot.name) ∧
      (∀ d ∈ nodes, Outline.IsNode d) ∧
      (slotsAmong ((Datum.preorderItems 1 nodes).map (·.1))).Sublist (slots.map Outline.Slot.name) := by
  obtain ⟨t, slots, htree, hslots, hslotted, hshape⟩ := Outline.slots_of_scene ho
  obtain ⟨info, hinfo⟩ := Outline.meta_of_scene ho
  have hrecord : outline.isRecord = true := by
    cases outline with
    | record => rfl
    | _ => cases hinfo
  have hmeta : outline.fieldOr "meta" .empty = .ok (.record info) := by
    rw [Datum.fieldOr_eq hrecord, hinfo]; rfl
  have hget : outline.get "tree" = .ok t := by rw [Datum.get_eq hrecord, htree]; rfl
  suffices hnodes : ∃ nodes, p.nodes = .ok nodes ∧ (∀ d ∈ nodes, Outline.IsNode d) ∧
      (slotsAmong ((Datum.preorderItems 1 nodes).map (·.1))).Sublist
        (slotsAmong ((t.preorder 0).map (·.1))) by
    obtain ⟨nodes, hnodes, hare, hsub⟩ := hnodes
    refine ⟨nodes, slots, hnodes, hslots, hslotted.nodup List.nodup_nil,
      hslotted.isName (by simp), hare, ?_⟩
    rw [hslotted.names]
    exact hsub.trans (slotsAmong_sublist hslotted)
  unfold Plan.nodes treeOf
  rw [hp, hget]
  rcases hshape with rfl | hnode
  · exact ⟨[], rfl, by simp, List.nil_sublist _⟩
  · obtain ⟨fields, children, hfields, rfl, hare⟩ := hnode.childless
    have hchildren : (Outline.withChildren fields children).get "children" = .ok (.list children) := by
      rw [Datum.get_eq rfl, Outline.withChildren_children hfields]
      rfl
    have htruthy : (Outline.withChildren fields children).orElse .empty =
        Outline.withChildren fields children := by
      cases fields <;> rfl
    simp only [Outcome.ok_bind, Outcome.pure_eq, htruthy, hchildren, hmeta]
    -- all children are nodes, or the first one, or none
    have hsub : ∀ nodes : List Datum, nodes.Sublist children →
        (∀ d ∈ nodes, Outline.IsNode d) ∧ (slotsAmong ((Datum.preorderItems 1 nodes).map (·.1))).Sublist
          (slotsAmong (((Outline.withChildren fields children).preorder 0).map (·.1))) := by
      intro nodes hnodes
      rw [Outline.withChildren, Datum.preorder, Outline.preorderFields_children hfields, List.map_cons,
        slotsAmong_cons]
      exact ⟨fun d hd => hare d (hnodes.subset hd),
        (((preorderItems_sublist 1 hnodes).map _).filterMap _).trans (List.sublist_append_right _ _)⟩
    split
    · exact ⟨[], rfl, hsub _ (List.nil_sublist _)⟩
    · obtain ⟨kind, hkind⟩ : ∃ kind, (Datum.record info).get "componentType" = .ok kind := ⟨_, rfl⟩
      rw [hkind, Outcome.ok_bind]
      split
      · exact ⟨_, rfl, hsub _ (List.take_sublist _ _)⟩
      · exact ⟨_, rfl, hsub _ (.refl _)⟩

/-- The slots of a plan for an outline are the slots that the outline lists. -/
theorem slots_of_read {interaction : Datum} {p : Plan} {slots : List Outline.Slot}
    (hb : Blueprint.read outline interaction = .ok p.blueprint)
    (hp : p.parameters = parameters p.blueprint p.handlesKeys) (hr : outline.isRecord = true)
    (hs : outline.at? "slots" = some (.list (slots.map Outline.Slot.toDatum))) :
    p.slots.map (·.source) = (slots.map Outline.Slot.name).map Datum.text := by
  obtain ⟨-, -, ⟨items, hitems, hread⟩, -⟩ := Blueprint.read_ok hb
  have hget : outline.get "slots" = .ok (.list (slots.map Outline.Slot.toDatum)) := by
    rw [Datum.get_eq hr, hs]; rfl
  rw [Datum.itemsOf_list hget] at hitems
  cases hitems
  rw [Plan.slots, hp, slot_sources]
  have hpairs := List.forall₂_map_left_iff.1 (Outcome.forall₂_mapM hread)
  refine (List.forall₂_eq_eq_eq ▸ List.forall₂_map_left_iff.2 (List.forall₂_map_left_iff.2
    (List.forall₂_map_right_iff.2 (hpairs.imp fun slot spec hspec => ?_))) :
    (slots.map Outline.Slot.name).map Datum.text = p.blueprint.slots.map SlotSpec.name).symm
  obtain ⟨name, hname, hspec⟩ := Outcome.bind_ok hspec
  obtain ⟨pieces, -, hspec⟩ := Outcome.bind_ok hspec
  cases hspec
  exact Except.ok.inj hname

variable {title tokens matched intelligence interaction : Datum} {s : Source} {notices : List Notice}

/-- The component of an outline exposes slots of the outline, each at most once. -/
theorem exposes_of_scene (ho : Outline.ofScene scene origin = .ok outline)
    (hc : Archetype.classify outline = .ok intelligence)
    (hi : Interaction.build outline intelligence = .ok interaction)
    (hs : (compose title outline tokens interaction matched).exec = (.ok s, notices)) :
    Blueprint.read outline interaction = .ok s.plan.blueprint ∧
      ∃ (nodes : List Datum) (slots : List Outline.Slot), s.plan.nodes = .ok nodes ∧
        outline.at? "slots" = some (.list (slots.map Outline.Slot.toDatum)) ∧
        (slots.map Outline.Slot.name).Nodup ∧ (∀ slot ∈ slots, Outline.Slot.IsName slot.name) ∧
        s.plan.slots.map (·.source.shown) = slots.map Outline.Slot.name ∧
        (s.plan.shown nodes).Sublist (slots.map Outline.Slot.name) ∧
        s.plan.Exposes s.plan.ownIds (s.plan.shown nodes) s.body.markup := by
  obtain ⟨name, ms, -, hplan, hbody⟩ := compose_ok hs
  obtain ⟨-, hb, hparameters, -⟩ := plan_steps hplan
  obtain ⟨nodes, slots, hnodes, hslots, hnodup, hnames, -, hsub⟩ :=
    Plan.nodes_of_scene ho (Blueprint.read_ok hb).1
  have hrecord : outline.isRecord = true := by
    cases outline with
    | record => rfl
    | _ => cases hslots
  have hsources := slots_of_read hb hparameters hrecord hslots
  have hshown : s.plan.slots.map (·.source.shown) = slots.map Outline.Slot.name := by
    have := congrArg (List.map Datum.shown) hsources
    rw [List.map_map, List.map_map] at this
    exact this.trans (List.map_id _)
  refine ⟨hb, nodes, slots, hnodes, hslots, hnodup, hnames, hshown, ?_,
    Plan.body_exposes (usual_of_build hc hi hb) hsources hnodup hnodes hbody⟩
  unfold Plan.shown Plan.contentSlots
  split
  · exact hshown ▸ .refl _
  · split
    · exact hshown ▸ .refl _
    · rw [← readItems_eq]
      exact (slotsItems_sublist 1 nodes).trans hsub

/-! ## Distinct ids -/

theorem slotId_injective : Function.Injective slotId := by
  intro name name' h
  have := congrArg String.toList h
  rw [slotId, slotId, String.toList_append, String.toList_append] at this
  exact String.toList_inj.1 (List.append_cancel_right this)

/-- No slot has an id that a component writes out besides those of its slots. -/
theorem slotId_ne {name : String} (h : Outline.Slot.IsName name) :
    slotId name ≠ "listbox-id" ∧ slotId name ≠ "dialog-title" := by
  obtain ⟨w, hw, hbase⟩ := h.begins
  have hbegins : w.base.toList <+: (slotId name).toList := by
    rw [slotId, String.toList_append]
    exact hbase.trans (List.prefix_append _ _)
  have hother : ∀ w ∈ Outline.Slot.vocabulary, ¬ w.base.toList <+: "listbox-id".toList ∧
      ¬ w.base.toList <+: "dialog-title".toList := by decide
  exact ⟨fun he => (hother w hw).1 (he ▸ hbegins), fun he => (hother w hw).2 (he ▸ hbegins)⟩

theorem Plan.slotId_own {p : Plan} {name : String} (h : Outline.Slot.IsName name) :
    slotId name ∉ p.ownIds := by
  obtain ⟨hlist, hdialog⟩ := slotId_ne h
  unfold Plan.ownIds
  split
  · simpa using hlist
  · split
    · simpa using hdialog
    · simp
  · simp

theorem Plan.ownIds_nodup (p : Plan) : p.ownIds.Nodup := by
  unfold Plan.ownIds
  split
  · simp
  · split <;> simp
  · simp

/-- In the component of any scene, the attributes of each element have distinct names, and the ids that
are written out are distinct. -/
theorem elements_distinct (ho : Outline.ofScene scene origin = .ok outline)
    (hc : Archetype.classify outline = .ok intelligence)
    (hi : Interaction.build outline intelligence = .ok interaction)
    (hs : (compose title outline tokens interaction matched).exec = (.ok s, notices)) :
    (∀ as ∈ s.body.markup.elements, (as.map Attribute.name).Nodup) ∧ s.body.markup.ids.Nodup := by
  obtain ⟨-, nodes, slots, -, -, hnodup, hnames, -, hsub, hdistinct, hids, -⟩ :=
    exposes_of_scene ho hc hi hs
  refine ⟨hdistinct, hids.nodup_iff.2 ?_⟩
  rw [List.nodup_append]
  refine ⟨s.plan.ownIds_nodup, (hsub.nodup hnodup).map slotId_injective, ?_⟩
  rintro _ hown _ hid rfl
  obtain ⟨name, hname, rfl⟩ := List.mem_map.1 hid
  obtain ⟨slot, hslot, rfl⟩ := List.mem_map.1 (hsub.subset hname)
  exact Plan.slotId_own (hnames slot hslot) hown

end Outlined

/-! ## A button -/

/-- A component that does not answer to keys is composed of its plan and its markup. -/
theorem compose_of_plan {title outline tokens interaction matched : Datum} {name : String} {p : Plan}
    {body : Body} {notices : List Notice} (hname : componentName title = .ok name)
    (hp : (plan name outline tokens interaction matched).exec = (.ok p, notices))
    (hb : p.body = .ok body) (hk : p.handlesKeys = false) :
    (compose title outline tokens interaction matched).exec = (.ok ⟨p, body, []⟩, notices) := by
  rw [Run.exec_eq] at hp ⊢
  unfold compose
  rw [hname, Run.lift_ok, pure_bind, Run.after_bind, hp]
  simp [hb, hk]

/-- A button with two slots: a shape for its label, and a text that helps. -/
def buttonLayer : Datum :=
  .record
    [("id", .text "1:1"), ("name", .text "Button"), ("type", .text "FRAME"),
     ("children", .list
       [.record [("id", .text "1:2"), ("name", .text "Label"), ("type", .text "VECTOR")],
        .record [("id", .text "1:3"), ("name", .text "Helper"), ("type", .text "TEXT")]])]

/-- The nodes of the shape and of the text. -/
def buttonNodes : List Datum :=
  [.record
     [("id", .text "1:2"), ("name", .text "Label"), ("type", .text "VECTOR"), ("zIndex", .int 0),
      ("roleHint", .text "label"), ("slotName", .text "label"), ("children", .list [])],
   .record
     [("id", .text "1:3"), ("name", .text "Helper"), ("type", .text "TEXT"), ("zIndex", .int 1),
      ("typography", .record
        [("fontFamily", .text "Inter"), ("fontSize", .int 16), ("fontWeight", .int 400),
         ("lineHeight", .text "normal"), ("letterSpacing", .text "0px"), ("textAlign", .text "left"),
         ("textDecoration", .text "none"), ("textTransform", .text "none")]),
      ("slotName", .text "helperText"), ("children", .list [])]]

def buttonTree : Datum :=
  .record
    [("id", .text "1:1"), ("name", .text "Button"), ("type", .text "FRAME"), ("zIndex", .int 0),
     ("roleHint", .text "button-root"), ("children", .list buttonNodes)]

def buttonSlots : List Outline.Slot :=
  [⟨"label", "text", false, .text "1:2"⟩, ⟨"helperText", "text", false, .text "1:3"⟩]

theorem buttonTree_made :
    Outline.tree (Scene.ofDatum buttonLayer) = .ok (some buttonTree, buttonSlots) := by
  have hsearch : (Scene.ofDatum buttonLayer).Search [] [⟨2, 0, 0⟩]
      (.cons ⟨2, 0, 0⟩ (.cons ⟨0, 1, 0⟩ .nil (.cons ⟨1, 1, 1⟩ .nil .nil)) .nil) [1, 0, 2] :=
    .visit (by simp) rfl (.visit (by simp) rfl (.nil _) (.visit (by simp) rfl (.nil _) (.nil _)))
      (.nil _)
  have htrail := Scene.trailFrom_search hsearch (by decide) true
  have hroot : (Scene.ofDatum buttonLayer).root = .node 2 := rfl
  unfold Outline.tree
  rw [hroot]
  simp only [htrail]
  rfl

def buttonOutline : Datum :=
  .record
    [("version", .text Outline.version),
     ("meta", .record
       [("name", .text "Button"), ("figmaUrl", .text ""), ("nodeId", .text "1:1"),
        ("type", .text "FRAME"), ("componentType", .text "frame"),
        ("extractedAt", .text Outline.epoch), ("sourceFileKey", .text "")]),
     ("tree", buttonTree), ("variants", .list []),
     ("slots", .list (buttonSlots.map Outline.Slot.toDatum)),
     ("layoutIntent", .record [("horizontal", .text "intrinsic"), ("vertical", .text "intrinsic")]),
     ("visualHints", (⟨false, false, false⟩ : Outline.Needs).toDatum), ("stateMapping", .list []),
     ("stats", .record [("nodeCount", .int 3)])]

theorem buttonTree_walked : Walked.ofDatum buttonTree = ⟨buttonTree.preorder 0, none⟩ :=
  Walked.ofDatum_tree rfl rfl rfl

theorem buttonOutline_made :
    Outline.ofScene (Scene.ofDatum buttonLayer) ⟨.text "", .text "", .null⟩ = .ok buttonOutline := by
  have hhints : Outline.visualHints buttonTree =
      .ok (⟨false, false, false⟩ : Outline.Needs).toDatum := by
    unfold Outline.visualHints
    rw [buttonTree_walked]
    rfl
  have hcount : (Walked.ofDatum buttonTree).count = .ok 3 := by rw [buttonTree_walked]; rfl
  unfold Outline.ofScene
  rw [buttonTree_made]
  unfold Outline.document
  simp only [Outcome.ok_bind, Option.getD_some, hhints, hcount]
  rfl

/-- What is known about the button. -/
def buttonIntelligence : Datum :=
  (⟨.button, .name⟩ : Archetype.Verdict).toDatum
    { Archetype.Features.none with hasText := true, hasIcon := true, depth := 1 }
    [.text "label", .text "helperText"]

theorem buttonOutline_classified : Archetype.classify buttonOutline = .ok buttonIntelligence := by
  have htree : buttonOutline.get "tree" = .ok buttonTree := rfl
  unfold Archetype.classify Archetype.Features.ofOutline
  rw [htree, Outcome.ok_bind, buttonTree_walked]
  rfl

def buttonAria : Table String Datum :=
  [("role", .text "button"), ("ariaLabelledBy", .text "label-id"),
   ("ariaDescribedBy", .text "helperText-id")]

def buttonInteraction : Datum :=
  interactionOf .button [Interaction.stateDatum .button (.text "default")] buttonAria
    (Interaction.ownRules .button)

theorem buttonInteraction_built :
    Interaction.build buttonOutline buttonIntelligence = .ok buttonInteraction := by rfl

def buttonBlueprint : Blueprint where
  outline := buttonOutline
  interaction := buttonInteraction
  variants := []
  slots := [⟨.text "label", "label"⟩, ⟨.text "helperText", "helperText"⟩]
  states := [⟨.text "default", .text ""⟩]
  aria := buttonAria
  rules := [⟨.text "onClick", .text "activate", .text "button", .null⟩]
  category := .text "button"

def buttonPlan : Plan where
  name := "Button"
  base := "button"
  blueprint := buttonBlueprint
  parameters := parameters buttonBlueprint false
  tokens := .ok []
  template := .button
  primitive := none
  handlesKeys := false

theorem buttonPlan_made :
    (plan "Button" buttonOutline .null buttonInteraction (.list [])).exec = (.ok buttonPlan, []) := by
  rfl

/-- The component of the button refers to both slots, and writes out the id of the text alone. -/
theorem buttonComponent_made : ∃ body,
    (compose (.text "Button") buttonOutline .null buttonInteraction (.list [])).exec =
      (.ok ⟨buttonPlan, body, []⟩, []) ∧
    body.markup.ids = ["helperText-id"] ∧ body.markup.references = ["label-id", "helperText-id"] := by
  have hnodes : buttonPlan.nodes = .ok buttonNodes := rfl
  have hslots : Plan.slotsIn buttonNodes = .ok [.text "label", .text "helperText"] := by
    simp only [Plan.slotsIn, buttonNodes, List.foldlM_cons, List.foldlM_nil]
    rw [Walked.ofDatum_tree rfl rfl rfl, Walked.ofDatum_tree rfl rfl rfl]
    rfl
  have hbody : ∃ body, buttonPlan.body = .ok body ∧ body.markup.ids = ["helperText-id"] ∧
      body.markup.references = ["label-id", "helperText-id"] := by
    have hbutton : buttonPlan.body = buttonPlan.button := rfl
    rw [hbutton]
    unfold Plan.button Plan.content
    rw [hnodes]
    simp only [Outcome.ok_bind]
    rw [hslots]
    exact ⟨_, rfl, rfl, rfl⟩
  obtain ⟨body, hbody, hids, hrefs⟩ := hbody
  refine ⟨body, ?_, hids, hrefs⟩
  have hname : componentName (.text "Button") = .ok "Button" := rfl
  exact compose_of_plan hname buttonPlan_made hbody rfl

/-- The attributes and the ids of the button's elements are distinct. -/
theorem elements_distinct_button : ∃ s notices,
    Outline.ofScene (Scene.ofDatum buttonLayer) ⟨.text "", .text "", .null⟩ = .ok buttonOutline ∧
    Archetype.classify buttonOutline = .ok buttonIntelligence ∧
    Interaction.build buttonOutline buttonIntelligence = .ok buttonInteraction ∧
    (compose (.text "Button") buttonOutline .null buttonInteraction (.list [])).exec =
      (.ok s, notices) ∧
    s.body.markup.ids = ["helperText-id"] ∧
    (∀ as ∈ s.body.markup.elements, (as.map Attribute.name).Nodup) ∧ s.body.markup.ids.Nodup := by
  obtain ⟨body, hs, hids, -⟩ := buttonComponent_made
  exact ⟨_, [], buttonOutline_made, buttonOutline_classified, buttonInteraction_built, hs, hids,
    elements_distinct buttonOutline_made buttonOutline_classified buttonInteraction_built hs⟩

end Maquette.Component
