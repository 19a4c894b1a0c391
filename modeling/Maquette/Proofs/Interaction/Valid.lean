/-
A valid outline has an interaction, and this is valid itself: its archetype, its states, its keys and
its events are among those that the check knows. The states are the default one and those that the
variants of the outline are mapped to, in the order in which they are first seen.
-/
import Maquette.Proofs.Component.Built
import Maquette.Proofs.Outline.Valid

namespace Maquette.Interaction

open Check
open Component (distinct mem_distinct_iff foldl_distinct interactionOf refined eventNames)
open Outline (IsValid)

/-! ## Classification -/

theorem need_of_at {d v : Datum} {key : String} (h : d.at? key = some v) : d.need key = .ok v := by
  cases d with
  | record fields =>
    have hl : fields.lookup key = some v := h
    rw [Datum.need, hl]
  | _ => cases h

/-- What a node that passes adds to the features can be read from it. -/
theorem seeNode_ok (f : Archetype.Features) {n : Datum} {depth : Nat}
    (h : Schema.node (depth + 1) n = []) : ∃ f', f.seeNode n = .ok f' := by
  obtain ⟨given, rfl⟩ := record_of_model h
  have hname : (Datum.record given).Part "name" Outline.IsText := by
    intro v hv
    have htext := Outline.field_passes h (c := text) rfl hv
    cases v <;> first | rfl | cases htext
  obtain ⟨v, hv, hv'⟩ := hname.get rfl
  have hread : ∃ s, v.textOrEmpty = .ok s := by
    rcases hv' with rfl | hv'
    · exact ⟨"", rfl⟩
    · obtain ⟨s, rfl⟩ := Outline.eq_text hv'
      exact ⟨s, Datum.textOrEmpty_text s⟩
  obtain ⟨s, hs⟩ := hread
  unfold Archetype.Features.seeNode
  simp only [hv, hs, Datum.fieldOr_eq (d := .record given) rfl, Datum.get_eq (d := .record given) rfl,
    Outcome.ok_bind]
  exact ⟨_, rfl⟩

/-- A valid outline has features. -/
theorem features_ok {outline : Datum} (h : IsValid outline) :
    ∃ f, Archetype.Features.ofOutline outline = .ok f := by
  obtain ⟨t, ht, hrecord, htruthy, htree, hnodes⟩ := h.tree
  have hfold : ∀ (rows : List (Datum × Nat)) (f : Archetype.Features),
      (∀ row ∈ rows, ∃ k, Schema.node (k + 1) row.1 = []) →
      ∃ f', rows.foldlM (fun (f : Archetype.Features) (row : Datum × Nat) => f.seeNode row.1) f =
        .ok f' := by
    intro rows
    induction rows with
    | nil => exact fun f _ => ⟨f, rfl⟩
    | cons row rows ih =>
      intro f hrows
      obtain ⟨⟨k, hrow⟩, hrows⟩ := List.forall_mem_cons.1 hrows
      obtain ⟨f₁, hf⟩ := seeNode_ok f hrow
      rw [List.foldlM_cons, hf]
      exact ih f₁ hrows
  unfold Archetype.Features.ofOutline
  rw [Datum.get_eq h.record, ht, Outcome.ok_bind, Option.getD_some,
    Walked.ofDatum_tree htruthy hrecord htree]
  choose seen hseen using fun f => hfold (t.preorder 0) f hnodes
  simp only [Walked.maxDepth, Walked.finish, Walked.foldM, Outcome.ok_bind]
  rw [hseen]
  exact ⟨_, rfl⟩

/-- What is known about a valid outline is a verdict. -/
theorem classify_ok {outline : Datum} (h : IsValid outline) :
    ∃ (v : Archetype.Verdict) (f : Archetype.Features) (slotNames : List Datum),
      Archetype.classify outline = .ok (v.toDatum f slotNames) := by
  obtain ⟨f, hf⟩ := features_ok h
  obtain ⟨info, title, hinfo, hrecord, htitle⟩ := h.title
  obtain ⟨items, hitems, hnames⟩ := Outline.slots_valid h
  obtain ⟨slotNames, hslotNames, -⟩ : ∃ names, items.mapM (fun s => s.need "name") = .ok names ∧
      ∀ d ∈ names, True :=
    Outcome.mapM_all hnames fun i ⟨s, hs⟩ => ⟨_, need_of_at hs, trivial⟩
  refine ⟨Archetype.judge title f items.length, f, slotNames, ?_⟩
  unfold Archetype.classify
  rw [hf, Outcome.ok_bind, Datum.fieldOr_eq h.record, hinfo, Outcome.ok_bind, Option.getD_some,
    Datum.fieldOr_eq hrecord, htitle, Outcome.ok_bind, Option.getD_some, Datum.textOrEmpty_text,
    Outcome.ok_bind, hitems]
  simp only [Outcome.ok_bind, Datum.items, hslotNames]
  rfl

/-! ## States -/

/-- The states that an outline maps its variants to, entry by entry. -/
def mappedStates (outline : Datum) : List String :=
  match outline.at? "stateMapping" with
  | some (.list entries) => entries.filterMap fun e => (e.at? "semanticState").bind Datum.text?
  | _ => []

/-- The states of an outline as they are first seen, the default state before all others. -/
def statesOf (outline : Datum) : List String := distinct ("default" :: mappedStates outline)

/-- The states of a valid outline in the order in which they are first seen. -/
theorem stateNames_ok {outline : Datum} (h : IsValid outline) :
    stateNames outline = .ok ((statesOf outline).map .text) := by
  obtain ⟨entries, hitems, hlist, hentries⟩ := Outline.stateMapping_valid h
  have hmapped : mappedStates outline =
      entries.filterMap fun e => (e.at? "semanticState").bind Datum.text? := by
    unfold mappedStates
    cases hv : outline.at? "stateMapping" with
    | none =>
      rw [Datum.itemsOf, Datum.get_eq h.record, hv] at hitems
      cases hitems
      rfl
    | some v => rw [hlist v hv]
  have hcontains : ∀ (names : List String) (s : String),
      (names.map Datum.text).contains (.text s) = names.contains s := by
    intro names s
    rw [List.contains_eq_any_beq, List.contains_eq_any_beq, List.any_map]
    refine congrArg names.any (funext fun t => ?_)
    rw [Bool.eq_iff_iff, Function.comp_apply, Datum.text_same, beq_iff_eq, Datum.text.injEq, eq_comm]
  -- on texts, the entries are added as their names are
  have hfold : ∀ names : List String, entries.foldlM (m := Outcome) (fun (names : List Datum) entry => do
        let name ← entry.fieldOr "semanticState" (.text "custom")
        return if names.contains name then names else names ++ [name]) (names.map .text) =
      .ok (((mappedStates outline).foldl
        (fun seen s => if seen.contains s then seen else seen ++ [s]) names).map .text) := by
    rw [hmapped]
    clear hitems hlist hmapped
    induction entries with
    | nil => exact fun names => rfl
    | cons e entries ih =>
      intro names
      obtain ⟨⟨hrecord, s, -, hs⟩, hentries⟩ := List.forall_mem_cons.1 hentries
      rw [List.foldlM_cons, Datum.fieldOr_eq hrecord, hs, Outcome.ok_bind, Option.getD_some,
        Outcome.pure_eq, Outcome.ok_bind, hcontains,
        List.filterMap_cons_some (b := s) (by rw [hs]; rfl), List.foldl_cons]
      rw [← ih hentries]
      split <;> simp
  unfold stateNames
  rw [hitems, Outcome.ok_bind]
  have hall := hfold ["default"]
  rw [foldl_distinct] at hall
  have hnew : ∀ s : String, (!(["default"].contains s)) = !s == "default" := by simp [beq_eq_decide]
  simp only [hnew] at hall
  exact hall

/-- The states of a valid outline have names of states. -/
theorem statesOf_known {outline : Datum} (h : IsValid outline) :
    ∀ s ∈ statesOf outline, s ∈ Schema.stateNames := by
  obtain ⟨entries, -, hlist, hentries⟩ := Outline.stateMapping_valid h
  intro s hs
  rcases List.mem_cons.1 (mem_distinct_iff.1 hs) with rfl | hs
  · decide
  · unfold mappedStates at hs
    cases hv : outline.at? "stateMapping" with
    | none => rw [hv] at hs; cases hs
    | some v =>
      rw [hv, hlist v hv] at hs
      obtain ⟨e, he, hname⟩ := List.mem_filterMap.1 hs
      obtain ⟨-, t, ht, hat⟩ := hentries e he
      rw [hat] at hname
      cases hname
      exact ht

/-- The rules of a component whose states have the given names. -/
theorem rules_ok (a : Archetype) (names : List String) :
    rules a (names.map fun s => stateDatum a (.text s)) =
      .ok (ownRules a ++ stateRules (names.map .text)) := by
  unfold rules
  rw [Outcome.mapM_ok (g := fun d => (d.at? "name").getD .null)]
  · rw [Outcome.ok_bind, List.map_map]
    rfl
  · intro d hd
    obtain ⟨s, -, rfl⟩ := List.mem_map.1 hd
    rfl

/-! ## Building -/

theorem firstSlot_ok {items : List Datum} (h : ∀ i ∈ items, ∃ s, i.at? "name" = some (.text s))
    (words : List String) : ∃ found, firstSlot? words items = .ok found := by
  induction items with
  | nil => exact ⟨none, rfl⟩
  | cons i items ih =>
    obtain ⟨⟨s, hs⟩, hitems⟩ := List.forall_mem_cons.1 h
    obtain ⟨found, hfound⟩ := ih hitems
    rw [firstSlot?, need_of_at hs]
    simp only [Outcome.ok_bind, Datum.textMember]
    split
    · exact ⟨some s, rfl⟩
    · exact ⟨found, hfound⟩

theorem refineAria_of_slots {items : List Datum}
    (h : ∀ i ∈ items, ∃ s, i.at? "name" = some (.text s)) (suggested : Table String Datum)
    (a : Archetype) : ∃ label described options,
      refineAria suggested (.list items) a = .ok (refined suggested label described options) := by
  obtain ⟨label, hlabel⟩ := firstSlot_ok h ["label"]
  obtain ⟨help, hhelp⟩ := firstSlot_ok h ["helperText", "description"]
  obtain ⟨error, herror⟩ := firstSlot_ok h ["errorText"]
  obtain ⟨options, hoptions⟩ := firstSlot_ok h ["list", "options"]
  unfold refineAria
  simp only [Datum.items, Outcome.ok_bind, hlabel, hhelp, herror, hoptions]
  split
  · exact ⟨_, _, _, rfl⟩
  · exact ⟨_, _, _, rfl⟩

/-- The interaction of a valid outline, for the archetype that it is classified as. -/
theorem build_ok {outline : Datum} (h : IsValid outline) :
    ∃ (intelligence : Datum) (a : Archetype) (hasText : Bool) (label described options : List String),
      Archetype.classify outline = .ok intelligence ∧
      build outline intelligence = .ok (interactionOf a
        ((statesOf outline).map fun s => stateDatum a (.text s))
        (refined (a.aria hasText) label described options)
        (ownRules a ++ stateRules ((statesOf outline).map .text))) := by
  obtain ⟨v, f, slotNames, hc⟩ := classify_ok h
  obtain ⟨items, hitems, hnames⟩ := Outline.slots_valid h
  obtain ⟨label, described, options, haria⟩ :=
    refineAria_of_slots hnames (v.archetype.aria f.hasText) v.archetype
  refine ⟨_, v.archetype, f.hasText, label, described, options, hc, ?_⟩
  have hstates : states outline v.archetype =
      .ok ((statesOf outline).map fun s => stateDatum v.archetype (.text s)) := by
    unfold states
    rw [stateNames_ok h, Outcome.ok_bind, Outcome.mapM_ok (g := stateDatum v.archetype), List.map_map]
    · rfl
    · intro d hd
      obtain ⟨s, -, rfl⟩ := List.mem_map.1 hd
      rfl
  have hsuggested : suggestedOf (.record (v.archetype.aria f.hasText)) =
      .ok (v.archetype.aria f.hasText) := by
    unfold suggestedOf Datum.orElse
    cases v.archetype.aria f.hasText <;> rfl
  have hcategory : (v.toDatum f slotNames).fieldOr "category" (.text "unknown") =
      .ok (.text v.archetype.name) := rfl
  have haria' : (v.toDatum f slotNames).fieldOr "suggestedARIA" .empty =
      .ok (.record (v.archetype.aria f.hasText)) := rfl
  have hprimitives : (v.toDatum f slotNames).fieldOr "requiredPrimitives" (.list []) =
      .ok (.list (v.archetype.primitives.map .text)) := rfl
  unfold build
  rw [hcategory, Outcome.ok_bind, Component.ofDatum_name]
  simp only [hstates, haria', hsuggested, hitems, haria, Datum.asKey_eq (d := .text _) rfl, rules_ok,
    hprimitives, Outcome.ok_bind, Datum.items]
  rfl

/-! ## Validity -/

theorem state_plain : Plain
    [need "name" (oneOf Schema.stateNames), may "trigger" text, may "changes" anyRecord,
     maybe "ariaAttributes" (tableOf text)] :=
  ⟨by simp [need, may, maybe], by simp [need, may, maybe]⟩

theorem stateDatum_passes (a : Archetype) {s : String} (h : s ∈ Schema.stateNames) :
    Schema.state (stateDatum a (.text s)) = [] := by
  have htexts : tableOf text (.record (stateAria a (.text s))) = [] := by
    refine tableOf_eq_nil.2 fun row hrow => ?_
    unfold stateAria at hrow
    split at hrow
    · rw [List.mem_singleton.1 hrow]; rfl
    · rw [List.mem_singleton.1 hrow]; rfl
    · rw [List.mem_singleton.1 hrow]; rfl
    · cases hrow
  refine model_passes state_plain (fun f hf hr => ?_) ?_
  · -- the name is the only field that has to be there
    simp only [List.mem_cons, List.not_mem_nil, or_false] at hf
    rcases hf with rfl | rfl | rfl | rfl <;>
      first | exact absurd hr Bool.false_ne_true | simp [need]
  · refine .append (.cons (oneOf_text h) rfl (.cons (text_text _) rfl (.single rfl rfl))) ?_
    exact .ite (fun _ => .nil) fun _ => .single (optional_eq_nil htexts) rfl

theorem aria_plain : Plain
    [maybe "role" text, maybe "ariaLabel" text, maybe "ariaLabelledBy" text,
     maybe "ariaDescribedBy" text, maybe "ariaControls" text, maybe "ariaExpanded" truth,
     maybe "ariaDisabled" truth] :=
  ⟨by simp [maybe], by simp [maybe]⟩

/-- The attributes of archetypes pass with the references that are added to them. -/
theorem refined_passes (a : Archetype) (hasText : Bool) (label described options : List String) :
    Schema.aria (.record (refined (a.aria hasText) label described options)) = [] := by
  have hsuggested : ∀ row ∈ a.aria hasText, Fits
      [maybe "role" text, maybe "ariaLabel" text, maybe "ariaLabelledBy" text,
       maybe "ariaDescribedBy" text, maybe "ariaControls" text, maybe "ariaExpanded" truth,
       maybe "ariaDisabled" truth] [row] := by
    intro row hrow
    have hall : ∀ row ∈ a.aria hasText,
        (row.1 ∈ ["role", "ariaLabel", "ariaLabelledBy", "ariaControls"] ∧ row.2.isText = true) ∨
          row = ("ariaExpanded", .bool false) ∨
          row.1 ∈ ["ariaAutocomplete", "ariaModal", "ariaChecked", "ariaValueMin", "ariaValueMax",
            "ariaValueNow"] := by
      cases a <;> cases hasText <;> simp [Archetype.aria, Datum.isText]
    obtain ⟨key, v⟩ := row
    rcases hall _ hrow with ⟨hkey, htext⟩ | hrow | hkey
    · obtain ⟨s, rfl⟩ := Outline.eq_text htext
      simp only [List.mem_cons, List.not_mem_nil, or_false] at hkey
      rcases hkey with rfl | rfl | rfl | rfl <;> exact .single (optional_eq_nil (text_text s)) rfl
    · cases hrow
      exact .single rfl rfl
    · simp only [List.mem_cons, List.not_mem_nil, or_false] at hkey
      rcases hkey with rfl | rfl | rfl | rfl | rfl | rfl <;> exact .foreign rfl
  refine model_passes aria_plain (fun f hf hr => ?_) fun row hrow => ?_
  · simp only [List.mem_cons, List.not_mem_nil, or_false] at hf
    rcases hf with rfl | rfl | rfl | rfl | rfl | rfl | rfl <;> cases hr
  · rcases (Component.mem_refined (Component.suggested_spec a hasText).1).1 hrow with
      ⟨-, rfl⟩ | ⟨-, rfl⟩ | ⟨-, rfl⟩ | ⟨hrow, -⟩
    · exact Fits.single (optional_eq_nil (text_text _)) rfl _ (List.mem_singleton_self _)
    · exact Fits.single (optional_eq_nil (text_text _)) rfl _ (List.mem_singleton_self _)
    · exact Fits.single (optional_eq_nil (text_text _)) rfl _ (List.mem_singleton_self _)
    · exact hsuggested row hrow row (List.mem_singleton_self _)

theorem keyBinding_passes (b : KeyBinding) : Schema.keyBinding b.toDatum = [] := by
  obtain ⟨key, action, _ | target, preventDefault⟩ := b <;>
    simp [KeyBinding.toDatum, Schema.keyBinding, model, Field.issues, need, may, maybe, List.lookup,
      under, Check.optional, truth]

theorem rule_passes {r : Rule} (h : isTrigger r.trigger = true) :
    Schema.interactionRule r.toDatum = [] := by
  obtain ⟨trigger, action, target, _ | condition⟩ := r <;>
    simp [Rule.toDatum, Schema.interactionRule, model, Field.issues, need, maybe, List.lookup,
      under, Check.optional, Check.trigger, show isTrigger trigger = true from h]

theorem eventNames_triggers : ∀ event ∈ eventNames, isTrigger event = true := by decide +kernel

theorem name_mem (a : Archetype) : a.name ∈ Archetype.all.map Archetype.name :=
  List.mem_map_of_mem (by cases a <;> decide)

theorem interaction_plain : Plain
    [need "version" text, need "componentCategory" (oneOf (Archetype.all.map Archetype.name)),
     need "states" (nonEmptyListOf Schema.state), may "aria" Schema.aria,
     may "keyboard" (listOf Schema.keyBinding), may "interactions" (listOf Schema.interactionRule),
     may "requiredPrimitives" (listOf text)] :=
  ⟨by simp [need, may], by simp [need, may]⟩

/-- An interaction passes when its states are known ones and its events are those of archetypes. -/
theorem interactionOf_passes (a : Archetype) (hasText : Bool) (label described options : List String)
    {names : List String} {rules : List Rule} (hne : names ≠ [])
    (hnames : ∀ s ∈ names, s ∈ Schema.stateNames) (hrules : ∀ r ∈ rules, r.trigger ∈ eventNames) :
    Schema.interaction (interactionOf a (names.map fun s => stateDatum a (.text s))
      (refined (a.aria hasText) label described options) rules) = [] := by
  have hstates : nonEmptyListOf Schema.state
      (.list (names.map fun s => stateDatum a (.text s))) = [] := by
    obtain ⟨s, rest, rfl⟩ := List.exists_cons_of_ne_nil hne
    refine listOf_eq_nil.2 fun d hd => ?_
    obtain ⟨s, hs, rfl⟩ := List.mem_map.1 hd
    exact stateDatum_passes a (hnames s hs)
  have hkeys : listOf Schema.keyBinding (.list ((keys a).map KeyBinding.toDatum)) = [] := by
    refine listOf_eq_nil.2 fun d hd => ?_
    obtain ⟨b, -, rfl⟩ := List.mem_map.1 hd
    exact keyBinding_passes b
  have hrules : listOf Schema.interactionRule (.list (rules.map Rule.toDatum)) = [] := by
    refine listOf_eq_nil.2 fun d hd => ?_
    obtain ⟨r, hr, rfl⟩ := List.mem_map.1 hd
    exact rule_passes (eventNames_triggers _ (hrules r hr))
  have hprimitives : listOf text (.list (a.primitives.map .text)) = [] := by
    refine listOf_eq_nil.2 fun d hd => ?_
    obtain ⟨s, -, rfl⟩ := List.mem_map.1 hd
    rfl
  refine model_passes interaction_plain (fun f hf hr => ?_)
    (.cons (text_text _) rfl (.cons (oneOf_text (name_mem a)) rfl (.cons hstates rfl
      (.cons (refined_passes a hasText label described options) rfl (.cons hkeys rfl
        (.cons hrules rfl (.single hprimitives rfl)))))))
  simp only [List.mem_cons, List.not_mem_nil, or_false] at hf
  rcases hf with rfl | rfl | rfl | rfl | rfl | rfl | rfl <;>
    first | exact absurd hr Bool.false_ne_true | simp [need, List.lookup_cons]

end Maquette.Interaction
