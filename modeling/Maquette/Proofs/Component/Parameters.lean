/-
The parameters of a component have distinct names, inside of it and outside, and none that stands for
a property of the variants or for a slot is called like something that the component binds itself.

Those of properties and slots get their names one after the other, each beside the reserved names and
those before it. The names of all others are fixed and reserved, so no name that was given is among
them; outside, three of them stand in quotation marks, which no given name has.
-/
import Maquette.Proofs.Naming.Distinct
import Maquette.Component.Parameter

namespace Maquette.Component

open Naming (Lettered Unquoted Seeks)

/-! ## Given names -/

/-- The names that the properties of variants and the slots wish to have. -/
def wishes (b : Blueprint) : List String :=
  (axes b.variants).map (fun axis => Naming.camel "value" (.ofString axis.1)) ++
    b.slots.map SlotSpec.wish

/-- The names that they get. -/
def givenNames (b : Blueprint) : List String := (Naming.uniques reservedNames (wishes b)).1

theorem length_givenNames (b : Blueprint) :
    (givenNames b).length = (axes b.variants).length + b.slots.length := by
  rw [givenNames, (Naming.uniques_spec _ _).1, wishes]
  simp

theorem ownParameters_eq (b : Blueprint) : ownParameters b =
    (axes b.variants).zipWith variantParameter (givenNames b) ++
      b.slots.zipWith slotParameter ((givenNames b).drop (axes b.variants).length) := rfl

theorem ownParameters_names (b : Blueprint) :
    (ownParameters b).map Parameter.name = givenNames b := by
  have hright : ∀ {α : Type} (xs : List α) (names : List String),
      xs.zipWith (fun _ name => name) names = names.take xs.length := by
    intro α xs
    induction xs with
    | nil => simp
    | cons x xs ih =>
      intro names
      cases names <;> simp [ih]
  have hlength := length_givenNames b
  rw [ownParameters_eq, List.map_append, List.map_zipWith, List.map_zipWith]
  show List.zipWith (fun _ name => name) _ _ ++ List.zipWith (fun _ name => name) _ _ = _
  rw [hright, hright, List.take_of_length_le (l := List.drop _ _) (by simp [hlength]),
    List.take_append_drop]

/-- Inside and outside of the component, a given name is the same. -/
theorem ownParameters_key {b : Blueprint} {p : Parameter} (h : p ∈ ownParameters b) :
    p.key = p.name ∧ (p.kind = .variant ∨ p.kind = .slot) := by
  rw [ownParameters_eq, List.mem_append] at h
  rcases h with h | h
  · rw [← List.map_uncurry_zip_eq_zipWith] at h
    obtain ⟨row, -, rfl⟩ := List.mem_map.1 h
    exact ⟨rfl, .inl rfl⟩
  · rw [← List.map_uncurry_zip_eq_zipWith] at h
    obtain ⟨row, -, rfl⟩ := List.mem_map.1 h
    exact ⟨rfl, .inr rfl⟩

/-! ## Fixed names -/

/-- The parameters whose names are fixed, as far as a component has them. -/
def fixedParameters (b : Blueprint) (handlesKeys : Bool) : List Parameter :=
  (if b.stateNames.any (·.isThe "disabled") then [disabledParameter] else []) ++
    ariaParameters b ++ eventParameters b ++ (if handlesKeys then [keyParameter] else []) ++
    closingParameters

theorem parameters_eq (b : Blueprint) (handlesKeys : Bool) :
    parameters b handlesKeys = ownParameters b ++ fixedParameters b handlesKeys := by
  simp [parameters, fixedParameters, List.append_assoc]

/-- The names that fixed parameters have inside and outside of a component. -/
def fixedNames : List (String × String) :=
  [("disabled", "disabled"), ("ariaLabel", "'aria-label'"), ("ariaLabelledBy", "'aria-labelledby'"),
   ("ariaDescribedBy", "'aria-describedby'"), ("onClick", "onClick"), ("onFocus", "onFocus"),
   ("onBlur", "onBlur"), ("onOpenChange", "onOpenChange"),
   ("onKeyboardAction", "onKeyboardAction"), ("tokenOverrides", "tokenOverrides"),
   ("className", "className"), ("children", "children")]

theorem fixedParameters_sublist (b : Blueprint) (handlesKeys : Bool) :
    ((fixedParameters b handlesKeys).map fun p => (p.name, p.key)).Sublist fixedNames := by
  have hite : ∀ {c : Prop} [Decidable c] (p : Parameter),
      ((if c then [p] else []).map fun p => (p.name, p.key)).Sublist [(p.name, p.key)] := by
    intro c _ p
    split
    · exact .refl _
    · exact List.nil_sublist _
  have haria : ((ariaParameters b).map fun p => (p.name, p.key)).Sublist
      (ariaAttributes.map fun row => (row.1, "'" ++ row.2 ++ "'")) := by
    unfold ariaParameters
    rw [List.map_map]
    exact List.filter_sublist.map _
  have hevents : ((eventParameters b).map fun p => (p.name, p.key)).Sublist
      (eventTypes.map fun row => (row.1, row.1)) := by
    unfold eventParameters
    rw [List.map_map]
    exact List.filter_sublist.map _
  unfold fixedParameters
  simp only [List.map_append]
  exact ((((hite disabledParameter).append haria).append hevents).append (hite keyParameter)).append
    (.refl _)

/-- What no given name is: a name that is fixed outside of a component. -/
theorem fixedNames_given : ∀ row ∈ fixedNames,
    row.1 ∈ reservedNames ∧ (row.2 ∈ reservedNames ∨ '\'' ∈ row.2.toList) := by decide

theorem fixedParameters_kind {b : Blueprint} {handlesKeys : Bool} {p : Parameter}
    (h : p ∈ fixedParameters b handlesKeys) : p.kind ≠ .variant ∧ p.kind ≠ .slot := by
  unfold fixedParameters at h
  simp only [List.mem_append] at h
  rcases h with (((h | h) | h) | h) | h
  · split at h
    · obtain rfl := List.mem_singleton.1 h; exact ⟨nofun, nofun⟩
    · cases h
  · obtain ⟨row, -, rfl⟩ := List.mem_map.1 h; exact ⟨nofun, nofun⟩
  · obtain ⟨row, -, rfl⟩ := List.mem_map.1 h; exact ⟨nofun, nofun⟩
  · split at h
    · obtain rfl := List.mem_singleton.1 h; exact ⟨nofun, nofun⟩
    · cases h
  · simp only [closingParameters, List.mem_cons, List.not_mem_nil, or_false] at h
    rcases h with rfl | rfl | rfl <;> exact ⟨nofun, nofun⟩

/-- What no name that was given is: a name that is fixed inside of a component or outside. -/
theorem given_ne_fixed {b : Blueprint} (hw : ∀ slot ∈ b.slots, Unquoted slot.wish.toList)
    {name : String} (h : name ∈ givenNames b) : ∀ row ∈ fixedNames, name ≠ row.1 ∧ name ≠ row.2 := by
  obtain ⟨hfree, wish, hwish, taken, hname⟩ := (Naming.uniques_spec _ _).2.2 name h
  have hunquoted : Unquoted name.toList := by
    rw [hname]
    refine Naming.unique_unquoted ?_ _
    rcases List.mem_append.1 hwish with hwish | hwish
    · obtain ⟨axis, -, rfl⟩ := List.mem_map.1 hwish
      exact (Naming.camel_lettered (by simp [Lettered, Text.isLettered]) _).unquoted
    · obtain ⟨slot, hslot, rfl⟩ := List.mem_map.1 hwish
      exact hw slot hslot
  intro row hrow
  obtain ⟨hinside, houtside⟩ := fixedNames_given row hrow
  refine ⟨fun he => hfree (he ▸ hinside), fun he => ?_⟩
  rcases houtside with hreserved | hquoted
  · exact hfree (he ▸ hreserved)
  · exact hunquoted (he ▸ hquoted)

/-- The parameters of slots, in the order of the slots. -/
theorem parametersOf_slot (b : Blueprint) (handlesKeys : Bool) :
    parametersOf (parameters b handlesKeys) .slot =
      b.slots.zipWith slotParameter ((givenNames b).drop (axes b.variants).length) := by
  have hvariants : ((axes b.variants).zipWith variantParameter (givenNames b)).filter
      (·.kind = .slot) = [] := by
    rw [← List.map_uncurry_zip_eq_zipWith, List.filter_map, List.map_eq_nil_iff]
    exact List.filter_eq_nil_iff.2 fun row _ => by simp [Function.uncurry, variantParameter]
  have hslots : ((b.slots.zipWith slotParameter ((givenNames b).drop (axes b.variants).length)).filter
      (·.kind = .slot)) = b.slots.zipWith slotParameter
        ((givenNames b).drop (axes b.variants).length) := by
    rw [← List.map_uncurry_zip_eq_zipWith, List.filter_map, List.filter_eq_self.2]
    exact fun row _ => by simp [Function.uncurry, slotParameter]
  have hfixed : (fixedParameters b handlesKeys).filter (·.kind = .slot) = [] :=
    List.filter_eq_nil_iff.2 fun p hp => by simpa using (fixedParameters_kind hp).2
  unfold parametersOf
  rw [parameters_eq, ownParameters_eq, List.filter_append, List.filter_append, hvariants, hslots,
    hfixed, List.nil_append, List.append_nil]

/-- The parameters of slots stand for the slots, in their order. -/
theorem slot_sources (b : Blueprint) (handlesKeys : Bool) :
    (parametersOf (parameters b handlesKeys) .slot).map Parameter.source = b.slots.map SlotSpec.name := by
  have hleft : ∀ (slots : List SlotSpec) (names : List String), slots.length ≤ names.length →
      (slots.zipWith slotParameter names).map Parameter.source = slots.map SlotSpec.name := by
    intro slots
    induction slots with
    | nil => simp
    | cons slot slots ih =>
      intro names hle
      cases names with
      | nil => simp at hle
      | cons name names => simp [slotParameter, ih names (Nat.le_of_succ_le_succ hle)]
  rw [parametersOf_slot, hleft _ _ (by simp [length_givenNames])]

/-- A parameter that stands for a slot has the name that some slot wishes to have, or a number behind
it. -/
theorem slot_named {b : Blueprint} {handlesKeys : Bool} {p : Parameter}
    (h : p ∈ parametersOf (parameters b handlesKeys) .slot) :
    p ∈ ownParameters b ∧ ∃ slot ∈ b.slots, ∃ taken, p.name = Naming.unique slot.wish taken := by
  rw [parametersOf_slot] at h
  refine ⟨ownParameters_eq b ▸ List.mem_append_right _ h, ?_⟩
  have hnames : (givenNames b).drop (axes b.variants).length = (Naming.uniques
      (Naming.uniques reservedNames ((axes b.variants).map fun axis =>
        Naming.camel "value" (.ofString axis.1))).2 (b.slots.map SlotSpec.wish)).1 := by
    rw [givenNames, wishes, Naming.uniques_append]
    exact List.drop_left' (by rw [(Naming.uniques_spec _ _).1, List.length_map])
  rw [hnames, ← List.map_uncurry_zip_eq_zipWith] at h
  obtain ⟨⟨spec, name⟩, hrow, rfl⟩ := List.mem_map.1 h
  obtain ⟨-, wish, hwish, taken, hname⟩ :=
    (Naming.uniques_spec _ _).2.2 name (List.of_mem_zip hrow).2
  obtain ⟨slot, hslot, rfl⟩ := List.mem_map.1 hwish
  exact ⟨slot, hslot, taken, hname⟩

/-- No other parameter has the name of one that stands for a property or a slot. -/
theorem own_unique {b : Blueprint} {handlesKeys : Bool} {p q : Parameter} (hp : p ∈ ownParameters b)
    (hq : q ∈ parameters b handlesKeys) (hname : q.name = p.name) : q = p := by
  obtain ⟨-, hnodup, hfree⟩ := Naming.uniques_spec reservedNames (wishes b)
  have hgiven : p.name ∈ givenNames b := ownParameters_names b ▸ List.mem_map_of_mem hp
  rw [parameters_eq] at hq
  rcases List.mem_append.1 hq with hq | hq
  · exact List.inj_on_of_nodup_map (ownParameters_names b ▸ hnodup) hq hp hname
  · -- the names of all others are reserved
    have hrow := (fixedParameters_sublist b handlesKeys).subset (List.mem_map_of_mem hq)
    exact absurd (hname ▸ (fixedNames_given _ hrow).1) (hfree _ hgiven).1

theorem own_ne_reserved {b : Blueprint} {p : Parameter} (h : p ∈ ownParameters b) {name : String}
    (hn : name ∈ reservedNames) : p.name ≠ name := by
  have hgiven : p.name ∈ givenNames b := ownParameters_names b ▸ List.mem_map_of_mem h
  exact fun he => ((Naming.uniques_spec reservedNames (wishes b)).2.2 _ hgiven).1 (he ▸ hn)

/-! ## All names -/

/-- The parts of a blueprint are read from its documents. -/
theorem Blueprint.read_ok {outline interaction : Datum} {b : Blueprint}
    (h : Blueprint.read outline interaction = .ok b) :
    b.outline = outline ∧ b.interaction = interaction ∧
      (∃ items, outline.itemsOf "slots" = .ok items ∧ items.mapM SlotSpec.read = .ok b.slots) ∧
      (∃ items, interaction.itemsOf "states" = .ok items ∧ items.mapM StateSpec.read = .ok b.states) ∧
      (∃ d, interaction.get "aria" = .ok d ∧ (d.orElse .empty).fields = .ok b.aria) ∧
      (∃ items, interaction.itemsOf "interactions" = .ok items ∧
        items.mapM RuleSpec.read = .ok b.rules) ∧
      categoryOf interaction = .ok b.category := by
  unfold Blueprint.read at h
  obtain ⟨_, -, h⟩ := Outcome.bind_ok h
  obtain ⟨variants, -, h⟩ := Outcome.bind_ok h
  obtain ⟨slotItems, hslotItems, h⟩ := Outcome.bind_ok h
  obtain ⟨slots, hslots, h⟩ := Outcome.bind_ok h
  obtain ⟨stateItems, hstateItems, h⟩ := Outcome.bind_ok h
  obtain ⟨states, hstates, h⟩ := Outcome.bind_ok h
  obtain ⟨d, hd, h⟩ := Outcome.bind_ok h
  obtain ⟨aria, haria, h⟩ := Outcome.bind_ok h
  obtain ⟨ruleItems, hruleItems, h⟩ := Outcome.bind_ok h
  obtain ⟨rules, hrules, h⟩ := Outcome.bind_ok h
  obtain ⟨category, hcategory, h⟩ := Outcome.bind_ok h
  cases h
  exact ⟨rfl, rfl, ⟨_, hslotItems, hslots⟩, ⟨_, hstateItems, hstates⟩, ⟨_, hd, haria⟩,
    ⟨_, hruleItems, hrules⟩, hcategory⟩

theorem slots_lettered {outline interaction : Datum} {b : Blueprint}
    (h : Blueprint.read outline interaction = .ok b) : ∀ slot ∈ b.slots, Lettered slot.wish.toList := by
  obtain ⟨-, -, ⟨items, -, hslots⟩, -⟩ := Blueprint.read_ok h
  intro slot hslot
  obtain ⟨d, -, hread⟩ := Outcome.mem_mapM hslots slot hslot
  obtain ⟨name, -, hread⟩ := Outcome.bind_ok hread
  obtain ⟨pieces, -, hread⟩ := Outcome.bind_ok hread
  cases hread
  exact Naming.camel_lettered (by simp [Lettered, Text.isLettered]) _

theorem slots_unquoted {outline interaction : Datum} {b : Blueprint}
    (h : Blueprint.read outline interaction = .ok b) : ∀ slot ∈ b.slots, Unquoted slot.wish.toList :=
  fun slot hslot => (slots_lettered h slot hslot).unquoted

/-- The names that properties and slots get are made of letters, numerals and underscores. -/
theorem givenNames_lettered {outline interaction : Datum} {b : Blueprint}
    (h : Blueprint.read outline interaction = .ok b) : ∀ name ∈ givenNames b, Lettered name.toList := by
  intro name hname
  obtain ⟨-, wish, hwish, taken, rfl⟩ := (Naming.uniques_spec _ _).2.2 name hname
  refine Naming.unique_lettered ?_ _
  rcases List.mem_append.1 hwish with hwish | hwish
  · obtain ⟨axis, -, rfl⟩ := List.mem_map.1 hwish
    exact Naming.camel_lettered (by simp [Lettered, Text.isLettered]) _
  · obtain ⟨slot, hslot, rfl⟩ := List.mem_map.1 hwish
    exact slots_lettered h slot hslot

/-- Inside of a component, the names of its parameters are made of such characters. -/
theorem parameters_lettered {outline interaction : Datum} {b : Blueprint}
    (h : Blueprint.read outline interaction = .ok b) (handlesKeys : Bool) :
    ∀ p ∈ parameters b handlesKeys, Lettered p.name.toList := by
  have hfixed : ∀ row ∈ fixedNames, Lettered row.1.toList := by
    simp [fixedNames, Lettered, Text.isLettered]
  intro p hp
  rw [parameters_eq] at hp
  rcases List.mem_append.1 hp with hp | hp
  · exact givenNames_lettered h p.name (ownParameters_names b ▸ List.mem_map_of_mem hp)
  · exact hfixed _ ((fixedParameters_sublist b handlesKeys).subset (List.mem_map_of_mem hp))

/-- Whatever the documents of a component are, its parameters have distinct names inside of it and
outside, and those that stand for properties of the variants and for slots are called like nothing
that the component binds itself. The search for a free name ends whatever names are taken. -/
theorem parameters_distinct {outline interaction : Datum} {b : Blueprint}
    (h : Blueprint.read outline interaction = .ok b) (handlesKeys : Bool) :
    ((parameters b handlesKeys).map Parameter.name).Nodup ∧
      ((parameters b handlesKeys).map Parameter.key).Nodup ∧
      (∀ p ∈ parameters b handlesKeys, p.kind = .variant ∨ p.kind = .slot →
        p.name ∉ reservedNames) ∧
      ∀ (base : String) (used : List String) (name : String),
        Seeks base used base 2 name ↔ name = Naming.unique base used := by
  have hgiven : ∀ name ∈ givenNames b, ∀ row ∈ fixedNames, name ≠ row.1 ∧ name ≠ row.2 :=
    fun name hname => given_ne_fixed (slots_unquoted h) hname
  obtain ⟨-, hnodup, hfree⟩ := Naming.uniques_spec reservedNames (wishes b)
  have hfixed := fixedParameters_sublist b handlesKeys
  -- the given and the fixed names, inside and outside
  have hnames : (parameters b handlesKeys).map Parameter.name =
      givenNames b ++ (fixedParameters b handlesKeys).map Parameter.name := by
    rw [parameters_eq, List.map_append, ownParameters_names]
  have hkeys : (parameters b handlesKeys).map Parameter.key =
      givenNames b ++ (fixedParameters b handlesKeys).map Parameter.key := by
    rw [parameters_eq, List.map_append, ← ownParameters_names]
    congr 1
    exact List.map_congr_left fun p hp => (ownParameters_key hp).1
  have hrow : ∀ p ∈ fixedParameters b handlesKeys, (p.name, p.key) ∈ fixedNames := fun p hp =>
    hfixed.subset (List.mem_map_of_mem hp)
  refine ⟨?names, ?keys, fun p hp hkind => ?reserved, fun base used name => Naming.seeks_iff⟩
  case names =>
    have hnd : ((fixedParameters b handlesKeys).map Parameter.name).Nodup := by
      have := (hfixed.map Prod.fst).nodup (by decide)
      rwa [List.map_map] at this
    rw [hnames, List.nodup_append]
    refine ⟨hnodup, hnd, fun name hname name' hname' he => ?_⟩
    obtain ⟨p, hp, rfl⟩ := List.mem_map.1 hname'
    exact (hgiven name hname _ (hrow p hp)).1 he
  case keys =>
    have hnd : ((fixedParameters b handlesKeys).map Parameter.key).Nodup := by
      have := (hfixed.map Prod.snd).nodup (by decide)
      rwa [List.map_map] at this
    rw [hkeys, List.nodup_append]
    refine ⟨hnodup, hnd, fun name hname name' hname' he => ?_⟩
    obtain ⟨p, hp, rfl⟩ := List.mem_map.1 hname'
    exact (hgiven name hname _ (hrow p hp)).2 he
  case reserved =>
    rw [parameters_eq] at hp
    rcases List.mem_append.1 hp with hp | hp
    · have hgiven : p.name ∈ givenNames b := by
        rw [← ownParameters_names]
        exact List.mem_map_of_mem hp
      exact (hfree _ hgiven).1
    · have := fixedParameters_kind hp
      tauto

/-- A design whose property asks for a name that every component has, and whose two slots ask for one
name. -/
def clashingOutline : Datum :=
  .record
    [("variants", .list [.record [("properties", .record [("Class name", .text "wide")])]]),
     ("slots", .list [.record [("name", .text "label")], .record [("name", .text "Label")]])]

/-- The names are told apart by numbers. -/
theorem parameters_distinct_clashing : ∃ b, Blueprint.read clashingOutline .empty = .ok b ∧
    (parameters b false).map Parameter.name =
      ["className2", "label", "label2", "tokenOverrides", "className", "children"] ∧
    ((parameters b false).map Parameter.key).Nodup ∧
    (∀ p ∈ parameters b false, p.kind = .variant ∨ p.kind = .slot → p.name ∉ reservedNames) ∧
    Seeks "className" reservedNames "className" 2 "className2" := by
  have hread : ((Blueprint.read clashingOutline .empty).toOption.map fun b =>
      (parameters b false).map Parameter.name) =
      some ["className2", "label", "label2", "tokenOverrides", "className", "children"] := by
    decide +kernel
  cases h : Blueprint.read clashingOutline .empty with
  | error e => rw [h] at hread; cases hread
  | ok b =>
    rw [h] at hread
    obtain ⟨-, hkeys, hreserved, hseeks⟩ := parameters_distinct h false
    exact ⟨b, rfl, Option.some.inj hread, hkeys, hreserved, (hseeks _ _ _).2 (by decide +kernel)⟩

end Maquette.Component
