/-
The documents that are built from an outline, and what the component of such documents is made from.
What is known about an outline is one of the archetypes with its own accessibility entries; building
the interaction adds references to slots to these entries, and rules for states to the archetype's
own rules.
-/
import Maquette.Proofs.Component.Attributes
import Maquette.Proofs.Component.Binding
import Maquette.Archetype.Intelligence
import Maquette.Interaction.Document

namespace Maquette.Component

open Interaction (KeyBinding Rule)

/-! ## The interaction of an archetype -/

/-- The interaction that is built for a component of an archetype. -/
def interactionOf (a : Archetype) (states : List Datum) (aria : Table String Datum)
    (rules : List Rule) : Datum :=
  .record
    [("version", .text Interaction.version), ("componentCategory", .text a.name),
     ("states", .list states), ("aria", .record aria),
     ("keyboard", .list ((Interaction.keys a).map KeyBinding.toDatum)),
     ("interactions", .list (rules.map Rule.toDatum)),
     ("requiredPrimitives", .list (a.primitives.map .text))]

theorem ofDatum_name (a : Archetype) : Archetype.ofDatum (.text a.name) = a := by
  cases a <;> rfl

/-- Building an interaction from what is known about an outline. -/
theorem build_record {outline intelligence interaction : Datum}
    (hc : Archetype.classify outline = .ok intelligence)
    (hi : Interaction.build outline intelligence = .ok interaction) :
    ∃ (a : Archetype) (hasText : Bool) (slots : Datum) (states : List Datum)
        (aria : Table String Datum) (rules : List Rule),
      intelligence.at? "category" = some (.text a.name) ∧
      outline.fieldOr "slots" (.list []) = .ok slots ∧
      Interaction.states outline a = .ok states ∧
      Interaction.refineAria (a.aria hasText) slots a = .ok aria ∧
      Interaction.rules a states = .ok rules ∧ interaction = interactionOf a states aria rules := by
  unfold Archetype.classify at hc
  obtain ⟨f, -, hc⟩ := Outcome.bind_ok hc
  obtain ⟨info, -, hc⟩ := Outcome.bind_ok hc
  obtain ⟨name, -, hc⟩ := Outcome.bind_ok hc
  obtain ⟨text, -, hc⟩ := Outcome.bind_ok hc
  obtain ⟨slots, -, hc⟩ := Outcome.bind_ok hc
  obtain ⟨items, -, hc⟩ := Outcome.bind_ok hc
  obtain ⟨slotNames, -, hc⟩ := Outcome.bind_ok hc
  cases hc
  generalize Archetype.judge _ _ _ = verdict at hi ⊢
  refine ⟨verdict.archetype, f.hasText, ?_⟩
  unfold Interaction.build at hi
  obtain ⟨category, hcategory, hi⟩ := Outcome.bind_ok hi
  obtain rfl : Datum.text verdict.archetype.name = category := Except.ok.inj hcategory
  rw [ofDatum_name] at hi
  obtain ⟨states, hstates, hi⟩ := Outcome.bind_ok hi
  obtain ⟨given, hgiven, hi⟩ := Outcome.bind_ok hi
  obtain rfl : Datum.record (verdict.archetype.aria f.hasText) = given := Except.ok.inj hgiven
  obtain ⟨suggested, hsuggested, hi⟩ := Outcome.bind_ok hi
  obtain ⟨slots, hslots, hi⟩ := Outcome.bind_ok hi
  obtain ⟨aria, haria, hi⟩ := Outcome.bind_ok hi
  obtain ⟨key, -, hi⟩ := Outcome.bind_ok hi
  obtain ⟨rules, hrules, hi⟩ := Outcome.bind_ok hi
  obtain ⟨required, hrequired, hi⟩ := Outcome.bind_ok hi
  obtain rfl : Datum.list (verdict.archetype.primitives.map .text) = required :=
    Except.ok.inj hrequired
  obtain ⟨primitives, hprimitives, hi⟩ := Outcome.bind_ok hi
  obtain rfl : verdict.archetype.primitives.map Datum.text = primitives := Except.ok.inj hprimitives
  cases hi
  have hsame : verdict.archetype.aria f.hasText = suggested := by
    unfold Interaction.suggestedOf Datum.orElse at hsuggested
    cases he : verdict.archetype.aria f.hasText with
    | nil => rw [he] at hsuggested; exact Except.ok.inj hsuggested
    | cons row rows => rw [he] at hsuggested; exact Except.ok.inj hsuggested
  subst hsame
  exact ⟨slots, states, aria, rules, rfl, hslots, hstates, haria, hrules, rfl⟩

/-! ## Accessibility entries -/

/-- What archetypes suggest. -/
theorem suggested_spec (a : Archetype) (hasText : Bool) :
    ((a.aria hasText).map Prod.fst).Nodup ∧ ∀ row ∈ a.aria hasText, row.1 ∈ ariaKeys ∧
      row.1 ≠ "ariaDescribedBy" ∧ (row.1 = "ariaLabelledBy" → row.2 = .text "dialog-title") := by
  cases a <;> cases hasText <;> simp [Archetype.aria, ariaKeys, ariaEntries]

/-- The first of some names that begins with one of the words. -/
def leading (words names : List String) : Option String :=
  names.find? fun name => words.any (Text.startsWith name)

theorem firstSlot_eq (words : List String) (slots : List Outline.Slot) :
    Interaction.firstSlot? words (slots.map Outline.Slot.toDatum) =
      .ok (leading words (slots.map Outline.Slot.name)) := by
  induction slots with
  | nil => rfl
  | cons slot slots ih =>
    have hname : slot.toDatum.need "name" = .ok (.text slot.name) := rfl
    rw [List.map_cons, Interaction.firstSlot?, hname, leading, List.map_cons, List.find?_cons]
    simp only [Outcome.ok_bind, Datum.textMember]
    cases words.any (Text.startsWith slot.name) with
    | true => rfl
    | false => exact ih

section Refer

variable {key : String} {slots : List String} {aria : Table String Datum}

theorem mem_refer (h : (aria.map Prod.fst).Nodup) {row : String × Datum} :
    row ∈ Interaction.refer key slots aria ↔
      (slots ≠ [] ∧ row = (key, .text (" ".intercalate (slots.map Interaction.slotId)))) ∨
        row ∈ aria ∧ (slots ≠ [] → row.1 ≠ key) := by
  unfold Interaction.refer
  cases slots with
  | nil => simp
  | cons slot slots =>
    rw [if_neg (by simp), Table.mem_set_iff h]
    simp

theorem nodup_refer (h : (aria.map Prod.fst).Nodup) :
    ((Interaction.refer key slots aria).map Prod.fst).Nodup := by
  unfold Interaction.refer
  split
  · exact h
  · exact Table.nodup_set h

end Refer

/-- Entries with references to the slots that label and describe, and to the list of options. -/
def refined (aria : Table String Datum) (label described options : List String) :
    Table String Datum :=
  Interaction.refer "ariaControls" options <|
    Interaction.refer "ariaDescribedBy" described <| Interaction.refer "ariaLabelledBy" label aria

/-- Refining adds references to the slots that are found. -/
theorem refineAria_ok {suggested aria : Table String Datum} {slots : Datum} {a : Archetype}
    (h : Interaction.refineAria suggested slots a = .ok aria) :
    ∃ (items : List Datum) (label help error : Option String) (options : List String),
      slots.items = .ok items ∧ Interaction.firstSlot? ["label"] items = .ok label ∧
      Interaction.firstSlot? ["helperText", "description"] items = .ok help ∧
      Interaction.firstSlot? ["errorText"] items = .ok error ∧
      aria = refined suggested label.toList (help.toList ++ error.toList) options := by
  unfold Interaction.refineAria at h
  obtain ⟨items, hitems, h⟩ := Outcome.bind_ok h
  obtain ⟨label, hlabel, h⟩ := Outcome.bind_ok h
  obtain ⟨help, hhelp, h⟩ := Outcome.bind_ok h
  obtain ⟨error, herror, h⟩ := Outcome.bind_ok h
  obtain ⟨options, -, h⟩ := Outcome.ite_bind_ok h
  cases h
  exact ⟨items, label, help, error, options.toList, hitems, hlabel, hhelp, herror, rfl⟩

section Refined

variable {aria : Table String Datum} {label described options : List String}

theorem nodup_refined (h : (aria.map Prod.fst).Nodup) :
    ((refined aria label described options).map Prod.fst).Nodup :=
  nodup_refer (nodup_refer (nodup_refer h))

/-- A refined entry refers to slots, or was there before and is not replaced. -/
theorem mem_refined (h : (aria.map Prod.fst).Nodup) {row : String × Datum} :
    row ∈ refined aria label described options ↔
      (options ≠ [] ∧
        row = ("ariaControls", .text (" ".intercalate (options.map Interaction.slotId)))) ∨
      (described ≠ [] ∧
        row = ("ariaDescribedBy", .text (" ".intercalate (described.map Interaction.slotId)))) ∨
      (label ≠ [] ∧
        row = ("ariaLabelledBy", .text (" ".intercalate (label.map Interaction.slotId)))) ∨
      row ∈ aria ∧ (options ≠ [] → row.1 ≠ "ariaControls") ∧
        (described ≠ [] → row.1 ≠ "ariaDescribedBy") ∧ (label ≠ [] → row.1 ≠ "ariaLabelledBy") := by
  unfold refined
  rw [mem_refer (nodup_refer (nodup_refer h)), mem_refer (nodup_refer h), mem_refer h]
  constructor
  · rintro (ho | ⟨hd | ⟨hl | ⟨hrow, hl⟩, hd⟩, ho⟩)
    · exact .inl ho
    · exact .inr (.inl hd)
    · exact .inr (.inr (.inl hl))
    · exact .inr (.inr (.inr ⟨hrow, ho, hd, hl⟩))
  · rintro (ho | ⟨hd, rfl⟩ | ⟨hl, rfl⟩ | ⟨hrow, ho, hd, hl⟩)
    · exact .inl ho
    · exact .inr ⟨.inl ⟨hd, rfl⟩, by simp⟩
    · exact .inr ⟨.inr ⟨.inl ⟨hl, rfl⟩, by simp⟩, by simp⟩
    · exact .inr ⟨.inr ⟨.inr ⟨hrow, hl⟩, hd⟩, ho⟩

end Refined

/-- The refined entries of an archetype are known, each key once, and refer by texts. -/
theorem refined_spec (a : Archetype) (hasText : Bool) (label described options : List String) :
    ((refined (a.aria hasText) label described options).map Prod.fst).Nodup ∧
      ∀ row ∈ refined (a.aria hasText) label described options, row.1 ∈ ariaKeys ∧
        (row.1 = "ariaLabelledBy" → row.2 =
          .text (if label = [] then "dialog-title"
            else " ".intercalate (label.map Interaction.slotId))) ∧
        (row.1 = "ariaDescribedBy" → row.2 =
          .text (" ".intercalate (described.map Interaction.slotId))) := by
  obtain ⟨hnodup, hrows⟩ := suggested_spec a hasText
  refine ⟨nodup_refined hnodup, fun row hrow => ?_⟩
  rcases (mem_refined hnodup).1 hrow with ⟨-, rfl⟩ | ⟨-, rfl⟩ | ⟨hlabel, rfl⟩ | ⟨hrow, -, -, hlabel⟩
  · simp [ariaKeys, ariaEntries]
  · simp [ariaKeys, ariaEntries]
  · simp [ariaKeys, ariaEntries, hlabel]
  · obtain ⟨hknown, hdescribed, htitle⟩ := hrows row hrow
    refine ⟨hknown, fun hkey => ?_, fun hkey => absurd hkey hdescribed⟩
    have : label = [] := by_contra fun hne => hlabel hne hkey
    rw [if_pos this, htitle hkey]

/-! ## Blueprints -/

section Blueprint

variable {outline intelligence interaction : Datum} {b : Blueprint}

/-- The entries of a blueprint are those of an archetype with references to the slots of the outline. -/
theorem aria_of_build (hc : Archetype.classify outline = .ok intelligence)
    (hi : Interaction.build outline intelligence = .ok interaction)
    (hb : Blueprint.read outline interaction = .ok b) :
    ∃ (a : Archetype) (hasText : Bool) (slots : Datum) (items : List Datum)
        (label help error : Option String) (options : List String),
      outline.fieldOr "slots" (.list []) = .ok slots ∧ slots.items = .ok items ∧
      Interaction.firstSlot? ["label"] items = .ok label ∧
      Interaction.firstSlot? ["helperText", "description"] items = .ok help ∧
      Interaction.firstSlot? ["errorText"] items = .ok error ∧
      b.aria = refined (a.aria hasText) label.toList (help.toList ++ error.toList) options := by
  obtain ⟨a, hasText, slots, states, aria, rules, -, hslots, -, haria, -, rfl⟩ := build_record hc hi
  obtain ⟨-, -, -, -, ⟨d, hd, hfields⟩, -⟩ := Blueprint.read_ok hb
  obtain ⟨items, label, help, error, options, hitems, hlabel, hhelp, herror, rfl⟩ := refineAria_ok haria
  refine ⟨a, hasText, slots, items, label, help, error, options, hslots, hitems, hlabel, hhelp, herror,
    ?_⟩
  obtain rfl := Except.ok.inj hd
  generalize refined _ _ _ _ = aria at hfields
  cases aria with
  | nil => exact (Except.ok.inj hfields).symm
  | cons row rows => exact (Except.ok.inj hfields).symm

theorem rules_events {a : Archetype} {states : List Datum} {rules : List Rule}
    (h : Interaction.rules a states = .ok rules) : ∀ rule ∈ rules, rule.trigger ∈ eventNames := by
  have hown : ∀ rule ∈ Interaction.ownRules a, rule.trigger ∈ eventNames := by cases a <;> decide
  have hpairs : ∀ event ∈ Interaction.stateEvents,
      event.2.1 ∈ eventNames ∧ event.2.2 ∈ eventNames := by decide
  obtain ⟨names, -, h⟩ := Outcome.bind_ok h
  cases h
  intro rule hrule
  rcases List.mem_append.1 hrule with hrule | hrule
  · exact hown rule hrule
  · obtain ⟨⟨state, enter, leave⟩, hevent, hrule⟩ := List.mem_flatMap.1 hrule
    simp only at hrule
    split at hrule
    · simp only [List.mem_cons, List.not_mem_nil, or_false] at hrule
      rcases hrule with rfl | rfl
      · exact (hpairs _ hevent).1
      · exact (hpairs _ hevent).2
    · cases hrule

/-- The rules of a blueprint are those of the interaction. -/
theorem events_of_build (hc : Archetype.classify outline = .ok intelligence)
    (hi : Interaction.build outline intelligence = .ok interaction)
    (hb : Blueprint.read outline interaction = .ok b) :
    ∀ rule ∈ b.rules, ∃ event ∈ eventNames, rule.trigger = .text event := by
  obtain ⟨a, _, _, states, aria, rules, -, -, -, -, hrules, rfl⟩ := build_record hc hi
  obtain ⟨-, -, -, -, -, ⟨items, hitems, hread⟩, -⟩ := Blueprint.read_ok hb
  have hget : (interactionOf a states aria rules).get "interactions" =
      .ok (.list (rules.map Rule.toDatum)) := rfl
  rw [Datum.itemsOf_list hget] at hitems
  cases hitems
  intro rule hrule
  obtain ⟨d, hd, hmade⟩ := Outcome.mem_mapM hread rule hrule
  obtain ⟨r, hr, rfl⟩ := List.mem_map.1 hd
  obtain ⟨trigger, htrigger, hmade⟩ := Outcome.bind_ok hmade
  obtain ⟨key, hkey, hmade⟩ := Outcome.bind_ok hmade
  obtain ⟨action, -, hmade⟩ := Outcome.bind_ok hmade
  obtain ⟨target, -, hmade⟩ := Outcome.bind_ok hmade
  obtain ⟨condition, -, hmade⟩ := Outcome.bind_ok hmade
  cases hmade
  cases htrigger
  exact ⟨r.trigger, rules_events hrules r hr, Datum.asKey_ok hkey⟩

/-- A blueprint of documents that are built has the entries and the events of an archetype. -/
theorem usual_of_build (hc : Archetype.classify outline = .ok intelligence)
    (hi : Interaction.build outline intelligence = .ok interaction)
    (hb : Blueprint.read outline interaction = .ok b) : b.IsUsual := by
  obtain ⟨a, hasText, -, -, label, help, error, options, -, -, -, -, -, haria⟩ := aria_of_build hc hi hb
  obtain ⟨hnodup, hrows⟩ := refined_spec a hasText label.toList (help.toList ++ error.toList) options
  rw [← haria] at hnodup hrows
  refine ⟨hnodup, fun row hrow => (hrows row hrow).1, fun row hrow hk => ?_,
    events_of_build hc hi hb⟩
  obtain ⟨-, hlabelled, hdescribed⟩ := hrows row hrow
  rcases List.mem_cons.1 hk with hk | hk
  · exact ⟨_, hlabelled hk⟩
  · exact ⟨_, hdescribed (List.mem_singleton.1 hk)⟩

end Blueprint

end Maquette.Component
