/-
The states of a component. An event of the component may set its state, and only to one of the states
that the interaction lists: a rule enters a state only if it is listed, and leaves it for the default
one. So whatever events come in whatever order, the component stays within the type of its states.
-/
import Maquette.Proofs.Interaction.Valid

namespace Maquette.Component

open Interaction (Rule statesOf mappedStates stateDatum)

/-! ## Events -/

/-- The state after a change. -/
def Change.after (state : String) : Change → String
  | .setState target => target
  | .setOpen _ => state

/-- The state after an event; `taken` tells for which statements the condition holds. -/
def Handler.after (h : Handler) (taken : Statement → Bool) (state : String) : String :=
  (h.statements.filter taken).foldl (fun state s => s.change.after state) state

/-- The states that a component comes to by events, whichever of them it leaves out. -/
inductive Plan.Reaches (p : Plan) : String → Prop
  | start : Reaches p "default"
  | event {state : String} {exclude : List String} {hs : List Handler} {h : Handler}
      (taken : Statement → Bool) :
      Reaches p state → p.handlersBut exclude = .ok hs → h ∈ hs → Reaches p (h.after taken state)

/-- The states that statements set. -/
def Handler.Targets (P : String → Prop) (h : Handler) : Prop :=
  ∀ s ∈ h.statements, ∀ target, s.change = .setState target → P target

/-- An event stays within the states that it sets. -/
theorem Handler.after_mem {P : String → Prop} {h : Handler} (hset : h.Targets P)
    (taken : Statement → Bool) {state : String} (hs : P state) : P (h.after taken state) := by
  unfold Handler.after
  unfold Handler.Targets at hset
  generalize h.statements = statements at hset
  induction statements generalizing state with
  | nil => exact hs
  | cons s statements ih =>
    obtain ⟨hfirst, hrest⟩ := List.forall_mem_cons.1 hset
    rw [List.filter_cons]
    split
    · rw [List.foldl_cons]
      refine ih ?_ hrest
      cases hchange : s.change with
      | setState target => exact hfirst target hchange
      | setOpen value => exact hs
    · exact ih hs hrest

/-- A component stays within the states that its handlers set. -/
theorem Plan.Reaches.closed {p : Plan} {P : String → Prop} (hdefault : P "default")
    (hset : ∀ exclude hs, p.handlersBut exclude = .ok hs → ∀ h ∈ hs, h.Targets P) {state : String}
    (h : p.Reaches state) : P state := by
  induction h with
  | start => exact hdefault
  | event taken _ hhandlers hmem ih =>
    exact Handler.after_mem (hset _ _ hhandlers _ hmem) taken ih

/-! ## Rules -/

/-- The statements of handlers are those of rules. -/
theorem targets_of_rules {b : Blueprint} {ps : List Parameter} {exclude : List String}
    {hs : List Handler} {P : String → Prop} (h : handlers b ps exclude = .ok hs)
    (hrules : ∀ rule ∈ b.rules, rule.action.isThe "setState" = true → P rule.target.shown) :
    ∀ hd ∈ hs, hd.Targets P := by
  intro hd hhd s hs target hchange
  obtain ⟨trigger, -, hmade⟩ := Outcome.mem_mapM h hd hhd
  obtain ⟨statements, hstatements, hmade⟩ := Outcome.bind_ok hmade
  cases hmade
  obtain ⟨made, hmem, rfl⟩ := List.mem_filterMap.1 (mem_distinct hs)
  obtain ⟨rule, hrule, hstatement⟩ := Outcome.mem_mapM hstatements _ hmem
  have hin := List.mem_of_mem_filter hrule
  unfold Statement.ofRule? at hstatement
  split at hstatement
  · rename_i change hof
    obtain ⟨condition, -, hstatement⟩ := Outcome.bind_ok hstatement
    cases hstatement
    have hof : Change.ofRule? b.isMultiState rule = some (.setState target) := by
      rw [hof]; exact congrArg some hchange
    unfold Change.ofRule? at hof
    split at hof
    · rename_i hset
      split at hof
      · cases hof
        exact hrules rule hin hset
      · cases hof
    · split at hof
      · cases hof
      · split at hof <;> cases hof
  · cases hstatement

/-- A rule that sets the state sets it to one of the listed states, or back to the default one. -/
theorem rule_target {a : Archetype} {names : List String} :
    ∀ rule ∈ Interaction.ownRules a ++ Interaction.stateRules (names.map .text),
      rule.action = "setState" → rule.target = "default" ∨ rule.target ∈ names := by
  have hown : ∀ rule ∈ Interaction.ownRules a, rule.action ≠ "setState" := by cases a <;> decide
  intro rule hrule haction
  rcases List.mem_append.1 hrule with hrule | hrule
  · exact absurd haction (hown rule hrule)
  · obtain ⟨⟨state, enter, leave⟩, -, hrule⟩ := List.mem_flatMap.1 hrule
    simp only at hrule
    split at hrule
    · rename_i hlisted
      obtain ⟨d, hd, hthe⟩ := List.any_eq_true.1 hlisted
      obtain ⟨name, hname, rfl⟩ := List.mem_map.1 hd
      cases Datum.isThe_iff.1 hthe
      simp only [List.mem_cons, List.not_mem_nil, or_false] at hrule
      rcases hrule with rfl | rfl
      · exact .inr hname
      · exact .inl rfl
    · cases hrule

section Built

variable {a : Archetype} {aria : Table String Datum} {names : List String} {rules : List Rule}
  {outline : Datum} {b : Blueprint}

/-- The states of a blueprint are those of its interaction. -/
theorem stateNames_of_interaction (hne : names ≠ []) (hb : Blueprint.read outline
    (interactionOf a (names.map fun s => stateDatum a (.text s)) aria rules) = .ok b) :
    b.stateNames = names.map .text := by
  obtain ⟨-, -, -, ⟨items, hitems, hread⟩, -⟩ := Blueprint.read_ok hb
  have hget : (interactionOf a (names.map fun s => stateDatum a (.text s)) aria rules).get "states" =
      .ok (.list (names.map fun s => stateDatum a (.text s))) := rfl
  rw [Datum.itemsOf_list hget] at hitems
  cases hitems
  have hspecs : b.states.map (·.name) = names.map .text := by
    have := (Outcome.mapM_inv (P := fun _ => True)
      (g := fun d => ⟨(d.at? "name").getD .null, (d.at? "trigger").getD .null⟩) hread (by
        intro d spec hspec
        obtain ⟨name, hname, hspec⟩ := Outcome.bind_ok hspec
        obtain ⟨trigger, htrigger, hspec⟩ := Outcome.bind_ok hspec
        cases hspec
        rw [Datum.need_ok hname, (Datum.get_ok htrigger).2]
        exact ⟨trivial, rfl⟩)).2
    rw [this, List.map_map, List.map_map]
    rfl
  unfold Blueprint.stateNames
  rw [hspecs]
  cases hstates : b.states with
  | nil => rw [hstates] at hspecs; exact absurd (List.map_eq_nil_iff.1 hspecs.symm) hne
  | cons s rest => rfl

/-- The rules of a blueprint do what those of its interaction do. -/
theorem rules_of_interaction (hb : Blueprint.read outline
    (interactionOf a (names.map fun s => stateDatum a (.text s)) aria rules) = .ok b) :
    ∀ spec ∈ b.rules, ∃ rule ∈ rules, spec.action = .text rule.action ∧
      spec.target = .text rule.target := by
  obtain ⟨-, -, -, -, -, ⟨items, hitems, hread⟩, -⟩ := Blueprint.read_ok hb
  have hget : (interactionOf a (names.map fun s => stateDatum a (.text s)) aria rules).get
      "interactions" = .ok (.list (rules.map Rule.toDatum)) := rfl
  rw [Datum.itemsOf_list hget] at hitems
  cases hitems
  intro spec hspec
  obtain ⟨d, hd, hmade⟩ := Outcome.mem_mapM hread spec hspec
  obtain ⟨rule, hrule, rfl⟩ := List.mem_map.1 hd
  obtain ⟨trigger, -, hmade⟩ := Outcome.bind_ok hmade
  obtain ⟨key, -, hmade⟩ := Outcome.bind_ok hmade
  obtain ⟨action, haction, hmade⟩ := Outcome.bind_ok hmade
  obtain ⟨target, htarget, hmade⟩ := Outcome.bind_ok hmade
  obtain ⟨condition, -, hmade⟩ := Outcome.bind_ok hmade
  cases hmade
  cases haction
  cases htarget
  exact ⟨rule, hrule, rfl, rfl⟩

end Built

/-! ## The machine -/

/-- The type of the states of a component that has several. -/
theorem stateType_of_names {name : String} {names : List String} (h : 1 < names.length) :
    stateTypeLines name (names.map .text) =
      ["export type " ++ name ++ "State = " ++ " | ".intercalate (names.map Script.literal) ++ ";", ""] := by
  unfold stateTypeLines
  rw [if_pos (by simpa using h), List.map_map]
  rfl

/-- A button whose variants are mapped to states, one of them to the same state as one before it. -/
def pressedOutline : Datum :=
  let entry (variant state : String) : Datum :=
    .record [("figmaVariant", .text variant), ("semanticState", .text state)]
  .record
    [("version", .text "1.0.0"),
     ("meta", .record
       [("name", .text "Button"), ("nodeId", .text "1:1"), ("type", .text "COMPONENT_SET"),
        ("componentType", .text "component-set"), ("extractedAt", .text Outline.epoch)]),
     ("tree", .record
       [("id", .text "1:1"), ("name", .text "Button"), ("type", .text "COMPONENT_SET"),
        ("children", .list [.record
          [("id", .text "1:2"), ("name", .text "Pressed"), ("type", .text "COMPONENT")]])]),
     ("layoutIntent", .record [("horizontal", .text "fixed"), ("vertical", .text "fixed")]),
     ("stateMapping", .list
       [entry "State=Pressed" "pressed", entry "State=Default" "default", entry "State=Off" "disabled",
        entry "State=Held" "pressed", entry "State=Other" "custom"])]

end Maquette.Component
