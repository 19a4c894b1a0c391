/-
The elements that a component refers to, to say what labels and what describes it. The entries of its
interaction refer to slots of the outline by their names alone: to the first one that is called like a
label, the first one that is called like a help text, and the first one that is called like an error.
A slot has an element with its id only if the component shows it, which depends on what its node is and
where it stands. So a component can refer to an element that it does not have.
-/
import Maquette.Proofs.Component.Outlined

namespace Maquette.Component

open Interaction (slotId)

/-! ## The slots that label and describe -/

/-- The slots that label a component, that help with it, and that tell its errors. -/
def guides (names : List String) : List String :=
  (leading ["label"] names).toList ++
    ((leading ["helperText", "description"] names).toList ++ (leading ["errorText"] names).toList)

theorem guides_subset (names : List String) : ∀ name ∈ guides names, name ∈ names := by
  have hleading : ∀ words, ∀ name ∈ (leading words names).toList, name ∈ names :=
    fun words name hname => List.mem_of_find?_eq_some (Option.mem_toList.1 hname)
  unfold guides
  simp only [List.forall_mem_append]
  exact ⟨hleading _, hleading _, hleading _⟩

/-- The ids of slots, written one after the other, are read one by one. -/
theorem idsIn_slots {names : List String} (h : ∀ name ∈ names, ' ' ∉ name.toList) :
    idsIn (" ".intercalate (names.map slotId)) = names.map slotId := by
  have hwords : ∀ word ∈ (names.map slotId).map String.toList, word ≠ [] ∧
      ∀ c ∈ word, (c == ' ') = false := by
    simp only [List.forall_mem_map, slotId, String.toList_append]
    intro name hname
    refine ⟨by simp, fun c hc => beq_false_of_ne ?_⟩
    rintro rfl
    rcases List.mem_append.1 hc with hc | hc
    · exact h name hname hc
    · revert hc; decide
  have hblank : " ".toList = [' '] := rfl
  rw [idsIn, String.toList_intercalate, hblank, Text.words_intercalate (by rfl) hwords, List.map_map]
  simp [Function.comp_def]

section Entries

variable {b : Blueprint} {a : Archetype} {hasText : Bool} {label described options : List String}

/-- The refined entries of an archetype refer to the slots that they were refined with, and else only
to the title of a dialog. -/
theorem refersTo_iff (hb : b.aria = refined (a.aria hasText) label described options)
    (hl : ∀ name ∈ label, ' ' ∉ name.toList) (hd : ∀ name ∈ described, ' ' ∉ name.toList)
    {name : String} (hn : slotId name ≠ "dialog-title") :
    b.RefersTo (slotId name) ↔ name ∈ label ++ described := by
  obtain ⟨hnodup, -⟩ := suggested_spec a hasText
  unfold Blueprint.RefersTo
  rw [hb, List.mem_append]
  constructor
  · rintro ⟨row, hrow, hk, s, hs, hid⟩
    obtain ⟨-, hlabelled, hdescribed⟩ := (refined_spec a hasText label described options).2 row hrow
    rcases List.mem_cons.1 hk with hk | hk
    · rw [hlabelled hk] at hs
      obtain rfl := Datum.text.inj hs
      split at hid
      · have htitle : idsIn "dialog-title" = ["dialog-title"] := by decide +kernel
        rw [htitle, List.mem_singleton] at hid
        exact absurd hid hn
      · rw [idsIn_slots hl] at hid
        exact .inl ((List.mem_map_of_injective slotId_injective).1 hid)
    · rw [hdescribed (List.mem_singleton.1 hk)] at hs
      obtain rfl := Datum.text.inj hs
      rw [idsIn_slots hd] at hid
      exact .inr ((List.mem_map_of_injective slotId_injective).1 hid)
  · rintro (hmem | hmem)
    · refine ⟨_, (mem_refined hnodup).2 (.inr (.inr (.inl ⟨List.ne_nil_of_mem hmem, rfl⟩))),
        by simp [referenceKeys], _, rfl, ?_⟩
      rw [idsIn_slots hl]
      exact List.mem_map_of_mem hmem
    · refine ⟨_, (mem_refined hnodup).2 (.inr (.inl ⟨List.ne_nil_of_mem hmem, rfl⟩)),
        by simp [referenceKeys], _, rfl, ?_⟩
      rw [idsIn_slots hd]
      exact List.mem_map_of_mem hmem

end Entries

/-! ## References of a component -/

section Outlined

variable {scene : Scene} {origin : Outline.Origin}
  {outline title tokens matched intelligence interaction : Datum} {s : Source} {notices : List Notice}

/-- The component of a scene refers to a slot exactly if the slot labels or describes it by its name,
and has an element with the slot's id exactly if it is a field, if it shows no nodes at all, or if the
node of the slot becomes an element. -/
theorem references_iff (ho : Outline.ofScene scene origin = .ok outline)
    (hc : Archetype.classify outline = .ok intelligence)
    (hi : Interaction.build outline intelligence = .ok interaction)
    (hs : (compose title outline tokens interaction matched).exec = (.ok s, notices)) :
    ∃ (nodes : List Datum) (slots : List Outline.Slot), s.plan.nodes = .ok nodes ∧
      outline.at? "slots" = some (.list (slots.map Outline.Slot.toDatum)) ∧
      ∀ slot ∈ slots,
        (slotId slot.name ∈ s.body.markup.references ↔
          slot.name ∈ guides (slots.map Outline.Slot.name)) ∧
        (slotId slot.name ∈ s.body.markup.ids ↔ s.plan.template = .field ∨ nodes = [] ∨
          slot.name ∈ Layer.allSlots (nodes.map Layer.read)) := by
  obtain ⟨hb, nodes, slots, hnodes, hslots, -, hnames, hshown, -, -, hids, hrefs⟩ :=
    exposes_of_scene ho hc hi hs
  refine ⟨nodes, slots, hnodes, hslots, fun slot hslot => ⟨?refers, ?has⟩⟩
  case refers =>
    obtain ⟨a, hasText, d, items, label, help, error, options, hd, hitems, hlabel, hhelp, herror,
      haria⟩ := aria_of_build hc hi hb
    obtain rfl : d = .list (slots.map Outline.Slot.toDatum) := by
      rw [Datum.fieldOr_ok hd, hslots]; rfl
    cases hitems
    rw [firstSlot_eq] at hlabel hhelp herror
    cases hlabel
    cases hhelp
    cases herror
    have hunbroken : ∀ name ∈ guides (slots.map Outline.Slot.name), ' ' ∉ name.toList := by
      intro name hname
      obtain ⟨slot, hslot, rfl⟩ := List.mem_map.1 (guides_subset _ name hname)
      exact (hnames slot hslot).unbroken
    obtain ⟨hl, hd⟩ := List.forall_mem_append.1 hunbroken
    rw [hrefs, refersTo_iff haria hl hd (slotId_ne (hnames slot hslot)).2]
    rfl
  case has =>
    have hmem : slot.name ∈ slots.map Outline.Slot.name := List.mem_map_of_mem hslot
    have hown := Plan.slotId_own (p := s.plan) (hnames slot hslot)
    rw [hids.mem_iff, List.mem_append, or_iff_right hown,
      List.mem_map_of_injective slotId_injective, Plan.shown, Plan.contentSlots, hshown]
    split
    · rename_i ht
      simp [hmem, ht]
    · rename_i ht
      split
      · rename_i hempty
        simp [hmem, List.isEmpty_iff.1 hempty]
      · rename_i hempty
        simp [ht, List.isEmpty_iff.not.1 hempty]

end Outlined

/-- The button refers to both of its slots, and shows the text that helps, but not the label. -/
theorem references_button : ∃ s notices,
    Outline.ofScene (Scene.ofDatum buttonLayer) ⟨.text "", .text "", .null⟩ = .ok buttonOutline ∧
    Archetype.classify buttonOutline = .ok buttonIntelligence ∧
    Interaction.build buttonOutline buttonIntelligence = .ok buttonInteraction ∧
    (compose (.text "Button") buttonOutline .null buttonInteraction (.list [])).exec =
      (.ok s, notices) ∧
    guides (buttonSlots.map Outline.Slot.name) = ["label", "helperText"] ∧
    Layer.allSlots (buttonNodes.map Layer.read) = ["helperText"] ∧
    (slotId "helperText" ∈ s.body.markup.references ∧ slotId "helperText" ∈ s.body.markup.ids) ∧
    slotId "label" ∈ s.body.markup.references ∧ slotId "label" ∉ s.body.markup.ids := by
  obtain ⟨body, hs, -⟩ := buttonComponent_made
  obtain ⟨nodes, slots, hnodes, hslots, hall⟩ :=
    references_iff buttonOutline_made buttonOutline_classified buttonInteraction_built hs
  obtain rfl : buttonNodes = nodes := Except.ok.inj hnodes
  obtain rfl : buttonSlots = slots :=
    List.map_injective_iff.2 Outline.Slot.toDatum_injective (Datum.list.inj (Option.some.inj hslots))
  have hguides : guides (buttonSlots.map Outline.Slot.name) = ["label", "helperText"] := by
    decide +kernel
  have hshown : Layer.allSlots (buttonNodes.map Layer.read) = ["helperText"] := by decide +kernel
  rw [hguides, hshown] at hall
  obtain ⟨⟨hlabel, hno⟩, hhelp, hyes⟩ : _ ∧ _ := ⟨hall _ List.mem_cons_self,
    hall _ (List.mem_cons_of_mem _ List.mem_cons_self)⟩
  refine ⟨_, [], buttonOutline_made, buttonOutline_classified, buttonInteraction_built, hs, hguides,
    hshown, ⟨hhelp.2 ?_, hyes.2 ?_⟩, hlabel.2 ?_, hno.not.2 ?_⟩
  all_goals simp [buttonPlan, buttonNodes]

/-- The label of the button is referred to, and no element has its id. -/
theorem reference_missing : ∃ outline intelligence interaction s notices,
    Outline.ofScene (Scene.ofDatum buttonLayer) ⟨.text "", .text "", .null⟩ = .ok outline ∧
    Archetype.classify outline = .ok intelligence ∧
    Interaction.build outline intelligence = .ok interaction ∧
    (compose (.text "Button") outline .null interaction (.list [])).exec = (.ok s, notices) ∧
    outline.at? "slots" = some (.list (buttonSlots.map Outline.Slot.toDatum)) ∧
    slotId "label" ∈ s.body.markup.references ∧ slotId "label" ∉ s.body.markup.ids := by
  obtain ⟨body, hs, hids, hrefs⟩ := buttonComponent_made
  refine ⟨_, _, _, _, _, buttonOutline_made, buttonOutline_classified, buttonInteraction_built, hs,
    rfl, ?_, ?_⟩
  · rw [hrefs]; decide
  · rw [hids]; decide

end Maquette.Component
