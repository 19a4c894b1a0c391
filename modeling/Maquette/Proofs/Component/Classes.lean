/-
The classes of a component that is rendered with the properties of a variant, and the selector that its
style sheet has for this variant. Both write a class for each property with its value. The component
leaves a class out when its value lets nothing through, and an empty text does not; the style sheet asks
for this class all the same. So the selector is met exactly if every property that is empty has its class
from another one.
-/
import Maquette.Proofs.Component.Consumed
import Maquette.Proofs.Component.Parameters
import Maquette.Proofs.Css.Variants
import Maquette.Proofs.Markup.Printed
import Maquette.Proofs.Script.ClassList

namespace Maquette.Component

open Markup (Attribute)
open Naming (Hyphenated Lettered)
open Script (Scope className? classes item? helper? isGiven written)
open Stylesheet (propertyClass variantSelector)

/-! ## Properties and their parameters -/

/-- The properties of variants are all that some variant has. -/
theorem mem_axes {variants : List VariantSpec} {key : String} :
    key ∈ (axes variants).map Prod.fst ↔ ∃ v ∈ variants, key ∈ v.keys := by
  have hfold : ∀ (properties : List (String × Datum)) (axes : List Axis),
      key ∈ (properties.foldl addValue axes).map Prod.fst ↔
        key ∈ axes.map Prod.fst ∨ key ∈ properties.map Prod.fst := by
    intro properties
    induction properties with
    | nil => simp
    | cons property properties ih =>
      intro axes
      rw [List.foldl_cons, ih, addValue, Table.mem_fst_set, List.map_cons, List.mem_cons]
      tauto
  rw [axes, hfold, List.map_flatMap]
  simp only [List.map_nil, List.not_mem_nil, false_or, List.mem_flatMap]
  rfl

/-- The parameters that stand for properties of variants, in their order. -/
theorem parametersOf_variant (b : Blueprint) (handlesKeys : Bool) :
    parametersOf (parameters b handlesKeys) .variant =
      (axes b.variants).zipWith variantParameter (givenNames b) := by
  have hvariants : ((axes b.variants).zipWith variantParameter (givenNames b)).filter
      (·.kind = .variant) = (axes b.variants).zipWith variantParameter (givenNames b) := by
    rw [← List.map_uncurry_zip_eq_zipWith, List.filter_map, List.filter_eq_self.2]
    exact fun row _ => by simp [Function.uncurry, variantParameter]
  have hslots : ((b.slots.zipWith slotParameter ((givenNames b).drop (axes b.variants).length)).filter
      (·.kind = .variant)) = [] := by
    rw [← List.map_uncurry_zip_eq_zipWith, List.filter_map, List.map_eq_nil_iff]
    exact List.filter_eq_nil_iff.2 fun row _ => by simp [Function.uncurry, slotParameter]
  have hfixed : (fixedParameters b handlesKeys).filter (·.kind = .variant) = [] :=
    List.filter_eq_nil_iff.2 fun p hp => by simpa using (fixedParameters_kind hp).1
  unfold parametersOf
  rw [parameters_eq, ownParameters_eq, List.filter_append, List.filter_append, hvariants, hslots,
    hfixed, List.append_nil, List.append_nil]

section Variants

variable {b : Blueprint} {handlesKeys : Bool} {p q : Parameter}

/-- A parameter that stands for a property is named after it. -/
theorem variant_spec (h : p ∈ parametersOf (parameters b handlesKeys) .variant) :
    ∃ key ∈ (axes b.variants).map Prod.fst, p.source = .text key := by
  rw [parametersOf_variant, ← List.map_uncurry_zip_eq_zipWith] at h
  obtain ⟨⟨axis, name⟩, hrow, rfl⟩ := List.mem_map.1 h
  exact ⟨axis.1, List.mem_map_of_mem (List.of_mem_zip hrow).1, rfl⟩

/-- Every property has a parameter. -/
theorem exists_variant (handlesKeys : Bool) {key : String} (h : key ∈ (axes b.variants).map Prod.fst) :
    ∃ p ∈ parametersOf (parameters b handlesKeys) .variant, p.source = .text key := by
  obtain ⟨axis, haxis, rfl⟩ := List.mem_map.1 h
  obtain ⟨i, hi, rfl⟩ := List.getElem_of_mem haxis
  have hnames : i < (givenNames b).length := by rw [length_givenNames]; omega
  have hzip : i < ((axes b.variants).zipWith variantParameter (givenNames b)).length := by
    rw [List.length_zipWith]; omega
  refine ⟨variantParameter (axes b.variants)[i] (givenNames b)[i], ?_, rfl⟩
  rw [parametersOf_variant, ← List.getElem_zipWith (h := hzip)]
  exact List.getElem_mem hzip

theorem variant_own (h : p ∈ parametersOf (parameters b handlesKeys) .variant) : p ∈ ownParameters b := by
  rw [parametersOf_variant] at h
  rw [ownParameters_eq]
  exact List.mem_append_left _ h

end Variants

theorem Blueprint.read_variants {outline interaction : Datum} {b : Blueprint}
    (h : Blueprint.read outline interaction = .ok b) : ∃ items, outline.itemsOf "variants" = .ok items ∧
      items.mapM VariantSpec.read = .ok b.variants := by
  unfold Blueprint.read at h
  obtain ⟨items, hitems, h⟩ := Outcome.bind_ok h
  obtain ⟨variants, hvariants, h⟩ := Outcome.bind_ok h
  obtain ⟨slotItems, -, h⟩ := Outcome.bind_ok h
  obtain ⟨slots, -, h⟩ := Outcome.bind_ok h
  obtain ⟨stateItems, -, h⟩ := Outcome.bind_ok h
  obtain ⟨states, -, h⟩ := Outcome.bind_ok h
  obtain ⟨d, -, h⟩ := Outcome.bind_ok h
  obtain ⟨aria, -, h⟩ := Outcome.bind_ok h
  obtain ⟨ruleItems, -, h⟩ := Outcome.bind_ok h
  obtain ⟨rules, -, h⟩ := Outcome.bind_ok h
  obtain ⟨category, -, h⟩ := Outcome.bind_ok h
  cases h
  exact ⟨items, hitems, hvariants⟩

/-! ## Rendering -/

/-- What the names of a component stand for when it is rendered with the properties of a variant: the
state is the default one, a parameter that is taken apart and stands for a property is the value that the
variant has for it, and nothing else is handed over. -/
def Source.scope (s : Source) (v : VariantSpec) : Scope := fun name =>
  if name = "interactionState" then some "default"
  else (s.taken.find? (·.name == name)).bind fun p =>
    if p.kind = .variant then (v.properties.lookup p.source.shown).map Datum.shown else none

/-- The class attribute of the outermost element when a component is rendered with the properties of a
variant, evaluated from the lines that define it. -/
def Source.rendered? (s : Source) (v : VariantSpec) : Option String :=
  className? (s.scope v) (helper? (s.classHelper.map Markup.Line.text))
    (s.classNames.map Markup.Line.text)

/-- What is known of the names that the class list of a component is made of. -/
structure Source.IsNamed (s : Source) : Prop where
  parameters : s.plan.parameters = Component.parameters s.plan.blueprint s.plan.handlesKeys
  lettered : ∀ p ∈ s.plan.parameters, Lettered p.name.toList
  hyphenated : Hyphenated s.base.toList
  base_ne : s.base ≠ ""

theorem plan_styled {name : String} {outline tokens interaction matched : Datum} {p : Plan}
    {ns ms : List Notice} (h : (plan name outline tokens interaction matched).after ns = (.ok p, ms)) :
    p.base = Naming.kebab (.ofString name) ∧
      ∃ table, tokenTable tokens matched = .ok table ∧ p.tokens = .ok table := by
  unfold plan at h
  obtain ⟨category, -, h⟩ := Run.after_lift_bind_ok h
  obtain ⟨ns', h⟩ := Run.after_ite_note h
  obtain ⟨primitive, -, h⟩ := Run.after_lift_bind_ok h
  obtain ⟨handlesKeys, -, h⟩ := Run.after_lift_bind_ok h
  obtain ⟨blueprint, -, h⟩ := Run.after_lift_bind_ok h
  obtain ⟨table, htable, h⟩ := Run.after_lift_bind_ok h
  cases h
  exact ⟨rfl, table, htable, rfl⟩

theorem kebab_ne (ps : Pieces) : Naming.kebab ps ≠ "" := by
  unfold Naming.kebab
  split
  · simp
  · rename_i hsome
    exact fun he => hsome (by simpa using congrArg String.toList he)

theorem isNamed_of_compose {title outline tokens interaction matched : Datum} {s : Source}
    {ns ms : List Notice} (h : (compose title outline tokens interaction matched).after ns = (.ok s, ms)) :
    s.IsNamed := by
  obtain ⟨name, ms', -, hplan, -⟩ := compose_ok h
  obtain ⟨-, hread, hparameters, -⟩ := plan_steps hplan
  have hbase : s.base = Naming.kebab (.ofString name) := (plan_styled hplan).1
  exact {
    parameters := hparameters
    lettered := hparameters ▸ parameters_lettered hread _
    hyphenated := hbase ▸ Naming.kebab_hyphenated _
    base_ne := hbase ▸ kebab_ne _ }

namespace Source

variable {s : Source} {v : VariantSpec} {p : Parameter}

/-- A component takes the parameters that stand for properties, since its class list uses them. -/
theorem variants_taken (hp : p ∈ s.variants) : p ∈ s.taken := by
  have hline : p.name ∈ Markup.Line.refs (s.variants.map s.variantClass) :=
    List.mem_flatMap.2 ⟨_, List.mem_map_of_mem hp, by simp [variantClass]⟩
  refine List.mem_filter.2 ⟨List.mem_of_mem_filter hp, List.contains_iff_mem.2 ?_⟩
  simp [uses, setup, classNames, Markup.Line.refs_append, hline]

theorem scope_variant (hs : s.IsNamed) (hp : p ∈ s.variants) {key : String} (hk : p.source = .text key) :
    s.scope v p.name = (v.properties.lookup key).map Datum.shown := by
  have hmem : p ∈ parametersOf (parameters s.plan.blueprint s.plan.handlesKeys) .variant :=
    hs.parameters ▸ hp
  have hkind : p.kind = .variant := by simpa using (List.mem_filter.1 hp).2
  have hown : p ∈ ownParameters s.plan.blueprint := variant_own hmem
  -- the name is found among those that are taken, and no other parameter has it
  have hfind : s.taken.find? (·.name == p.name) = some p := by
    obtain ⟨q, hq⟩ : ∃ q, s.taken.find? (·.name == p.name) = some q := by
      rw [← Option.isSome_iff_exists, List.find?_isSome]
      exact ⟨p, variants_taken hp, beq_self_eq_true _⟩
    have hmem := List.mem_of_mem_filter (List.mem_of_find?_eq_some hq)
    rw [hs.parameters] at hmem
    rw [hq, own_unique hown hmem (by simpa using List.find?_some hq)]
  rw [scope, if_neg (own_ne_reserved hown (by decide)), hfind, Option.bind_some, if_pos hkind, hk]
  rfl

theorem scope_reserved (hs : s.IsNamed) {name : String} (hn : name ∈ reservedNames)
    (hne : name ≠ "interactionState") : s.scope v name = none := by
  rw [scope, if_neg hne, Option.bind_eq_none_iff]
  intro p hp
  refine if_neg fun hkind => ?_
  have hmem := List.mem_of_mem_filter (List.mem_of_find?_eq_some hp)
  rw [hs.parameters] at hmem
  have hown := variant_own (List.mem_filter.2 ⟨hmem, by simpa using hkind⟩)
  exact own_ne_reserved hown hn (by simpa using List.find?_some hp)

/-- Where there are properties, the helper for class names is defined. -/
theorem helper?_eq (h : s.variants ≠ []) :
    helper? (s.classHelper.map Markup.Line.text) = some Script.slug := by
  have hlines : s.classHelper.map Markup.Line.text = Script.helperLines := by
    rw [classHelper, if_neg (by simpa using h)]
    decide +kernel
  rw [helper?, if_pos hlines]

/-- The entry of a property adds its class if the property has a value that lets it through. -/
theorem item?_variantClass (hs : s.IsNamed) (hp : p ∈ s.variants) {key : String}
    (hk : p.source = .text key) (scope : Scope) :
    item? scope (some Script.slug) (s.variantClass p).code.text.toList =
      some (if isGiven (scope p.name) then
        [s.base ++ "--" ++ Css.segment key ++ "-" ++ Css.segment (written (scope p.name))] else []) := by
  have hname : Lettered p.name.toList := hs.lettered p (List.mem_of_mem_filter hp)
  have hcall : '\x7d' ∉ "toClassName(String(".toList ++ (p.name.toList ++ [')', ')']) := by
    have hbrace : '\x7d' ∉ p.name.toList := hname.not_mem rfl
    simp [hbrace]
  have hhyphens : Hyphenated "--".toList := by simp [Hyphenated]
  have hhyphen : Hyphenated "-".toList := by simp [Hyphenated]
  have hhyphenated := ((hs.hyphenated.append hhyphens).append (Css.segment_hyphenated key)).append hhyphen
  have hwords : ∀ c ∈ (s.base ++ "--" ++ Css.segment key ++ "-").toList,
      c ≠ '\x60' ∧ c ≠ '\\' ∧ c ≠ '$' := by
    intro c hc
    simp only [String.toList_append] at hc
    exact ⟨hhyphenated.ne hc rfl (by decide), hhyphenated.ne hc rfl (by decide),
      hhyphenated.ne hc rfl (by decide)⟩
  have htext : (s.variantClass p).code.text.toList = p.name.toList ++ (" && ".toList ++
      '\x60' :: ((s.base ++ "--" ++ Css.segment key ++ "-").toList ++ '$' :: '\x7b' ::
        (("toClassName(String(".toList ++ (p.name.toList ++ [')', ')'])) ++ '\x7d' :: ['\x60', ',']))) := by
    simp [variantClass, Markup.Code.toList_text, Markup.Piece.text, hk, Datum.shown]
  rw [htext, Script.item?_guarded scope _ hname]
  split
  · rw [Script.operand?, Script.template?_words hwords,
      Script.template?_hole hcall (Script.hole?_call hname _), Script.slug_eq]
    simp [Script.template?, ← String.toList_inj]
  · rfl

/-- The entry for the state that the component is in. -/
def stateEntry (s : Source) : Markup.Code :=
  [.ref "interactionState", .raw (" !== 'default' && \x60" ++ s.base ++ "--$\x7b"),
    .ref "interactionState", .raw "\x7d\x60,"]

def disabledEntry (s : Source) : Markup.Code :=
  [.ref "disabled", .raw " && ", .literal (s.base ++ "--disabled"), .raw ","]

/-- The entries of the class list. -/
def entries (s : Source) : List Markup.Code :=
  [[.literal s.base, .raw ","]] ++ (if s.isMultiState then [s.stateEntry] else []) ++
    s.variants.map (fun p => (s.variantClass p).code) ++
    (if s.bodyRefs.contains "disabled" then [s.disabledEntry] else []) ++
    [[.ref "className", .raw ","]]

theorem classNames_eq (s : Source) : s.classNames.map Markup.Line.text =
    "  const componentClassName = [" :: ((s.entries.map Markup.Code.text).map (Script.indent 2 ++ ·) ++
      ["  ].filter(Boolean).join(' ');"]) := by
  have hfirst : Markup.Line.text ⟨1, [.raw "const ", .bind "componentClassName", .raw " = ["]⟩ =
      "  const componentClassName = [" := by decide +kernel
  have hlast : (Markup.Line.words 1 "].filter(Boolean).join(' ');").text =
      "  ].filter(Boolean).join(' ');" := by decide +kernel
  have hlines : s.classNames = ⟨1, [.raw "const ", .bind "componentClassName", .raw " = ["]⟩ ::
      (s.entries.map (⟨2, ·⟩) ++ [Markup.Line.words 1 "].filter(Boolean).join(' ');"]) := by
    unfold classNames entries
    split_ifs <;> simp [variantClass, stateEntry, disabledEntry]
  rw [hlines, List.map_cons, List.map_append, List.map_map, List.map_map, List.map_singleton, hfirst, hlast]
  rfl

/-- What a parameter adds to the classes: the class of the property that it stands for, if the variant
has a value for it that is not empty. -/
def added (s : Source) (v : VariantSpec) (p : Parameter) : List String :=
  ((v.properties.lookup p.source.shown).filter (!·.shown.isEmpty)).toList.map fun value =>
    propertyClass s.base (p.source.shown, value)

theorem item?_variant (hs : s.IsNamed) (v : VariantSpec) (hp : p ∈ s.variants) :
    item? (s.scope v) (helper? (s.classHelper.map Markup.Line.text))
      (s.variantClass p).code.text.toList = some (s.added v p) := by
  obtain ⟨key, -, hk⟩ := variant_spec (hs.parameters ▸ hp : p ∈ parametersOf
    (parameters s.plan.blueprint s.plan.handlesKeys) .variant)
  rw [helper?_eq (List.ne_nil_of_mem hp), item?_variantClass hs hp hk, scope_variant hs hp hk, added, hk]
  have hkey : (Datum.text key).shown = key := rfl
  cases hv : v.properties.lookup key with
  | none => simp [hkey, hv, isGiven]
  | some value =>
    by_cases hempty : value.shown = "" <;>
      simp [hkey, hv, hempty, isGiven, written, propertyClass, Option.filter]

section Entries

variable {scope : Scope} (helper : Option (String → String))

/-- The first entry adds the class of the component. -/
theorem item?_base (scope : Scope) (base : String) :
    item? scope helper (Markup.Code.text [.literal base, .raw ","]).toList = some [base] := by
  rw [Markup.Code.toList_cons]
  exact Script.item?_literal scope helper base

/-- The entry for the state adds nothing in the default state. -/
theorem item?_state (s : Source) (h : scope "interactionState" = some "default") :
    item? scope helper s.stateEntry.text.toList = some [] := by
  have hquoted : (Script.literal "default").toList = "'default'".toList := by decide +kernel
  have hentry := Script.item?_unequal helper (by simp [Lettered, Text.isLettered]) h
    ('\x60' :: (s.base ++ "--").toList ++ "$\x7binteractionState\x7d\x60,".toList)
  rw [hquoted] at hentry
  simpa [stateEntry, Markup.Code.toList_text, Markup.Piece.text] using hentry

theorem item?_disabled (s : Source) (h : scope "disabled" = none) :
    item? scope helper s.disabledEntry.text.toList = some [] := by
  have hname : Lettered "disabled".toList := by simp [Lettered, Text.isLettered]
  rw [disabledEntry, Markup.Code.toList_cons, Markup.Code.toList_cons]
  refine (Script.item?_guarded scope helper hname _).trans ?_
  rw [h]
  rfl

theorem item?_given (h : scope "className" = none) :
    item? scope helper (Markup.Code.text [.ref "className", .raw ","]).toList = some [] := by
  have hname : Lettered "className".toList := by simp [Lettered, Text.isLettered]
  rw [Markup.Code.toList_cons]
  refine (Script.item?_name scope helper hname).trans ?_
  rw [h]
  rfl

end Entries

/-- Every entry adds its own texts: the first one the class of the component, and those of the properties
their classes. All others are left out. -/
theorem entries_added (hs : s.IsNamed) (v : VariantSpec) :
    ∃ owns : List (List String), owns.flatten = s.base :: s.variants.flatMap (s.added v) ∧
      List.Forall₂ (fun entry own => item? (s.scope v) (helper? (s.classHelper.map Markup.Line.text))
        entry.toList = some own) (s.entries.map Markup.Code.text) owns := by
  have hdisabled : s.scope v "disabled" = none :=
    scope_reserved hs (by simp [reservedNames]) (by decide)
  have hgiven : s.scope v "className" = none :=
    scope_reserved hs (by simp [reservedNames]) (by decide)
  refine ⟨[[s.base]] ++ (if s.isMultiState then [[]] else []) ++ s.variants.map (s.added v) ++
    (if s.bodyRefs.contains "disabled" then [[]] else []) ++ [[]], ?_, ?_⟩
  · split_ifs <;> simp [List.flatMap]
  · unfold entries
    rw [List.map_append, List.map_append, List.map_append, List.map_append]
    refine List.rel_append (List.rel_append (List.rel_append (List.rel_append ?base ?state) ?variants)
      ?disabled) (.cons (item?_given _ hgiven) .nil)
    case base => exact .cons (item?_base _ _ s.base) .nil
    case state =>
      split
      · exact .cons (item?_state _ s (if_pos rfl)) .nil
      · exact .nil
    case variants =>
      rw [List.map_map, List.forall₂_map_left_iff, List.forall₂_map_right_iff, List.forall₂_same]
      exact fun p hp => item?_variant hs v hp
    case disabled =>
      split
      · exact .cons (item?_disabled _ s hdisabled) .nil
      · exact .nil

/-- The classes of the properties are those of the ones that have a value. -/
theorem mem_added (hs : s.IsNamed) (hv : v ∈ s.plan.blueprint.variants) (hkeys : v.keys.Nodup) {t : String} :
    t ∈ s.variants.flatMap (s.added v) ↔
      ∃ row ∈ v.properties, row.2.shown ≠ "" ∧ propertyClass s.base row = t := by
  have hparameters : s.variants =
      parametersOf (parameters s.plan.blueprint s.plan.handlesKeys) .variant := by
    rw [variants, hs.parameters]
  have hshown : ∀ key, (Datum.text key).shown = key := fun _ => rfl
  simp only [List.mem_flatMap, added, List.mem_map, Option.mem_toList,
    Option.filter_eq_some_iff, Bool.not_eq_true', String.isEmpty_eq_false_iff, Table.lookup_eq_some_iff hkeys]
  constructor
  · rintro ⟨p, -, value, ⟨hrow, hvalue⟩, rfl⟩
    exact ⟨(p.source.shown, value), hrow, hvalue, rfl⟩
  · rintro ⟨⟨key, value⟩, hrow, hvalue, rfl⟩
    have haxis := mem_axes.2 ⟨v, hv, List.mem_map_of_mem hrow⟩
    obtain ⟨p, hp, hsource⟩ := exists_variant s.plan.handlesKeys haxis
    refine ⟨p, hparameters ▸ hp, value, ?_⟩
    rw [hsource, hshown]
    exact ⟨⟨hrow, hvalue⟩, rfl⟩

theorem rendered?_eq (hs : s.IsNamed) (v : VariantSpec) : ∃ c, s.rendered? v = some c ∧
    classes c = s.base :: s.variants.flatMap (s.added v) := by
  obtain ⟨owns, hflat, howns⟩ := entries_added hs v
  have hword : ∀ t : String, Hyphenated t.toList → ' ' ∉ t.toList :=
    fun t ht hm => ht.ne hm rfl (by decide) rfl
  have hclasses : ∀ t ∈ s.base :: s.variants.flatMap (s.added v), t ≠ "" ∧ ' ' ∉ t.toList := by
    refine List.forall_mem_cons.2 ⟨⟨hs.base_ne, hword _ hs.hyphenated⟩, fun t ht => ?_⟩
    obtain ⟨p, -, ht⟩ := List.mem_flatMap.1 ht
    obtain ⟨value, -, rfl⟩ := List.mem_map.1 ht
    exact ⟨Stylesheet.propertyClass_ne _, hword _ (Stylesheet.propertyClass_hyphenated hs.hyphenated _)⟩
  refine ⟨" ".intercalate (s.base :: s.variants.flatMap (s.added v)), ?_, ?_⟩
  · rw [rendered?, classNames_eq, className?, if_pos rfl, Script.texts?_append howns, hflat,
      Option.map_some, List.filter_eq_self.2 fun t ht => by simpa using (hclasses t ht).1]
  · exact Script.classes_intercalate hclasses

/-- An element with the classes of a variant meets the variant's selector exactly if each property that is
empty has its class from another one. -/
theorem meets_iff (hs : s.IsNamed) (hv : v ∈ s.plan.blueprint.variants) (hkeys : v.keys.Nodup) :
    (∀ x ∈ s.base :: v.properties.map (propertyClass s.base),
        x ∈ s.base :: s.variants.flatMap (s.added v)) ↔
      ∀ row ∈ v.properties, row.2.shown = "" →
        ∃ row' ∈ v.properties, row'.2.shown ≠ "" ∧ propertyClass s.base row' = propertyClass s.base row := by
  have hne : ∀ row, propertyClass s.base row ≠ s.base := by
    intro row he
    have hlength := Stylesheet.propertyClass_length s.base row
    rw [he] at hlength
    exact lt_irrefl _ hlength
  have hclass : ∀ row, propertyClass s.base row ∈ s.base :: s.variants.flatMap (s.added v) ↔
      ∃ row' ∈ v.properties, row'.2.shown ≠ "" ∧ propertyClass s.base row' = propertyClass s.base row := by
    intro row
    rw [List.mem_cons, or_iff_right (hne row), mem_added hs hv hkeys]
  simp only [List.forall_mem_cons, List.mem_cons_self, true_and, List.forall_mem_map, hclass]
  refine forall₂_congr fun row hrow => ⟨fun h _ => h, fun h => ?_⟩
  by_cases hempty : row.2.shown = ""
  · exact h hempty
  · exact ⟨row, hrow, hempty, rfl⟩

end Source

/-! ## The element with the class list -/

namespace Plan

variable {p : Plan} {b : Body}

theorem own_of_root {opens withRole : Bool} {as : List Attribute}
    (h : p.rootAttributes opens withRole = .ok as) : p.ownAttributes ⊆ as := by
  obtain ⟨aria, -, h⟩ := Outcome.bind_ok h
  cases h
  exact List.subset_append_left _ _

/-- Every template has an element that has the class list for its classes. -/
theorem body_classed (h : p.body = .ok b) : ∃ as ∈ b.markup.elements,
    Attribute.code "className" [.ref "componentClassName"] ∈ as := by
  suffices hown : ∃ as ∈ b.markup.elements, p.ownAttributes ⊆ as by
    obtain ⟨as, has, hsub⟩ := hown
    exact ⟨as, has, hsub List.mem_cons_self⟩
  unfold body at h
  split at h
  case h_1 =>
    unfold button at h
    obtain ⟨root, hroot, h⟩ := Outcome.bind_ok h
    obtain ⟨hs, -, h⟩ := Outcome.bind_ok h
    obtain ⟨content, -, h⟩ := Outcome.bind_ok h
    cases h
    exact ⟨_, by rw [Markup.elements]; exact List.mem_cons_self, fun a ha => by simp [own_of_root hroot ha]⟩
  case h_2 =>
    unfold field at h
    obtain ⟨named, -, h⟩ := Outcome.bind_ok h
    obtain ⟨marked, -, h⟩ := Outcome.bind_ok h
    obtain ⟨front, -, h⟩ := Outcome.bind_ok h
    obtain ⟨aria, -, h⟩ := Outcome.bind_ok h
    obtain ⟨hs, -, h⟩ := Outcome.bind_ok h
    obtain ⟨back, -, h⟩ := Outcome.bind_ok h
    cases h
    exact ⟨_, by rw [Markup.elements]; exact List.mem_cons_self, List.Subset.refl _⟩
  case h_3 =>
    unfold listBox at h
    obtain ⟨root, hroot, h⟩ := Outcome.bind_ok h
    obtain ⟨hs, -, h⟩ := Outcome.bind_ok h
    obtain ⟨markup, hmarkup, h⟩ := Outcome.bind_ok h
    obtain ⟨content, -, h⟩ := Outcome.bind_ok h
    cases h
    obtain ⟨as, has, hin, -⟩ := listBoxMarkup_outer hmarkup content.markup
    exact ⟨as, has, fun a ha => hin (own_of_root hroot ha)⟩
  case h_4 =>
    unfold dialog at h
    obtain ⟨label, -, h⟩ := Outcome.bind_ok h
    obtain ⟨root, hroot, h⟩ := Outcome.bind_ok h
    obtain ⟨hs, -, h⟩ := Outcome.bind_ok h
    obtain ⟨markup, hmarkup, h⟩ := Outcome.bind_ok h
    obtain ⟨content, -, h⟩ := Outcome.bind_ok h
    cases h
    obtain ⟨as, has, hin, -⟩ := dialogMarkup_outer hmarkup content.markup
    exact ⟨as, has, fun a ha => hin (own_of_root hroot ha)⟩
  case h_5 =>
    unfold container at h
    obtain ⟨root, hroot, h⟩ := Outcome.bind_ok h
    obtain ⟨hs, -, h⟩ := Outcome.bind_ok h
    obtain ⟨content, -, h⟩ := Outcome.bind_ok h
    cases h
    exact ⟨_, by rw [Markup.elements]; exact List.mem_cons_self, fun a ha => by simp [own_of_root hroot ha]⟩

end Plan

/-! ## Components and their style sheets -/

/-- The lines of the class list, those of the helper that it uses, and an element that has it for its
classes: a component has them all. -/
structure Source.IsClassed (s : Source) : Prop where
  helper : s.classHelper <:+: s.lines
  names : s.classNames <:+: s.lines
  element : ∃ as ∈ s.body.markup.elements,
    Attribute.code "className" [.ref "componentClassName"] ∈ as

theorem isClassed_of_body {s : Source} (h : s.plan.body = .ok s.body) : s.IsClassed where
  helper := ⟨s.imports, s.signature ++ s.setup ++ [Markup.Line.blank, Markup.Line.words 1 "return ("] ++
    s.body.markup.lines 2 ++ s.ending, by simp [Source.lines]⟩
  names := ⟨s.imports ++ s.classHelper ++ s.signature ++ s.hooks ++ Source.overrides, s.keys ++
    [Markup.Line.blank, Markup.Line.words 1 "return ("] ++ s.body.markup.lines 2 ++ s.ending,
    by simp [Source.lines, Source.setup]⟩
  element := Plan.body_classed h

/-- Whatever the documents of a component are, its style sheet has a rule for each variant with properties. -/
theorem generate_rules {title outline tokens interaction matched : Datum} {files : Artifacts}
    {notices : List Notice}
    (h : (generate title outline tokens interaction matched).exec = (.ok files, notices)) :
    ∃ s ms, (compose title outline tokens interaction matched).exec = (.ok s, ms) ∧
      files.component = s.text ∧ s.IsNamed ∧ s.IsClassed ∧
      Blueprint.read outline interaction = .ok s.plan.blueprint ∧
      ∀ v ∈ s.plan.blueprint.variants, v.properties ≠ [] → ∃ note before after,
        files.styles = before ++ Css.block (variantSelector s.base v.properties) [] (some note) 0 ++ after := by
  rw [Run.exec_eq] at h
  unfold generate at h
  obtain ⟨s, ms, hs, h⟩ := Run.after_bind_ok h
  obtain ⟨styles, hstyles, h⟩ := Run.after_lift_bind_ok h
  obtain ⟨story, -, h⟩ := Run.after_lift_bind_ok h
  cases h
  obtain ⟨name, ns, -, hplan, hbody⟩ := compose_ok hs
  obtain ⟨-, hread, -⟩ := plan_steps hplan
  obtain ⟨items, hitems, hvariants⟩ := Blueprint.read_variants hread
  exact ⟨s, _, hs, rfl, isNamed_of_compose hs, isClassed_of_body hbody, hread,
    fun v hv hsome => Stylesheet.text_variant hstyles hitems hvariants hv hsome⟩

/-- Rendered with the texts of a variant's properties, a component has the class list that its lines define,
and it meets the selector that its style sheet has for the variant exactly if every property that is empty
has its class from another one. -/
theorem generate_meets_iff {title outline tokens interaction matched : Datum} {files : Artifacts}
    {notices : List Notice}
    (h : (generate title outline tokens interaction matched).exec = (.ok files, notices)) :
    ∃ s ms, (compose title outline tokens interaction matched).exec = (.ok s, ms) ∧
      files.component = s.text ∧ s.IsClassed ∧
      ∀ v ∈ s.plan.blueprint.variants, v.properties ≠ [] → v.keys.Nodup →
        (∀ row ∈ v.properties, ∃ value, row.2 = .text value) →
        ∃ note before after rendered asked,
          files.styles = before ++
            Css.block (variantSelector s.base v.properties) [] (some note) 0 ++ after ∧
          s.rendered? v = some rendered ∧
          Css.selectorClasses? (variantSelector s.base v.properties) = some asked ∧
          ((∀ x ∈ asked, x ∈ classes rendered) ↔
            ∀ row ∈ v.properties, row.2 = .text "" → ∃ row' ∈ v.properties, row'.2 ≠ .text "" ∧
              propertyClass s.base row' = propertyClass s.base row) := by
  obtain ⟨s, ms, hs, hcomponent, hnamed, hclassed, -, hrules⟩ := generate_rules h
  refine ⟨s, ms, hs, hcomponent, hclassed, fun v hv hsome hkeys htexts => ?_⟩
  obtain ⟨note, before, after, hblock⟩ := hrules v hv hsome
  obtain ⟨rendered, hrendered, hclasses⟩ := Source.rendered?_eq hnamed v
  refine ⟨note, before, after, rendered, _, hblock, hrendered,
    Stylesheet.selectorClasses?_variantSelector hnamed.hyphenated hnamed.base_ne v.properties, ?_⟩
  have hempty : ∀ row ∈ v.properties, (row.2.shown = "" ↔ row.2 = .text "") := by
    intro row hrow
    obtain ⟨value, hvalue⟩ := htexts row hrow
    rw [hvalue, Datum.text.injEq]
    rfl
  rw [hclasses, Source.meets_iff hnamed hv hkeys]
  refine forall₂_congr fun row hrow => imp_congr (hempty row hrow) (exists_congr fun row' => ?_)
  exact and_congr_right fun hrow' => and_congr_left' (not_congr (hempty row' hrow'))

/-! ## A layer with one property -/

/-- A layer that has a value for one property. -/
def tagLayer (size : String) : Datum :=
  .record [("id", .text "1:1"), ("name", .text "Tag"), ("type", .text "COMPONENT"),
    ("variantProperties", .record [("Size", .text size)])]

def tagTree (size : String) : Datum :=
  .record
    [("id", .text "1:1"), ("name", .text "Tag"), ("type", .text "COMPONENT"), ("zIndex", .int 0),
     ("variantProperties", .record [("Size", .text size)]), ("children", .list [])]

theorem tagTree_walked (size : String) :
    Walked.ofDatum (tagTree size) = ⟨[(tagTree size, 0)], none⟩ :=
  Walked.ofDatum_tree rfl rfl rfl

theorem tagTree_made (size : String) :
    Outline.tree (Scene.ofDatum (tagLayer size)) = .ok (some (tagTree size), []) := by
  have hsearch : (Scene.ofDatum (tagLayer size)).Search [] [⟨0, 0, 0⟩] (.cons ⟨0, 0, 0⟩ .nil .nil) [0] :=
    .visit (by simp) rfl (.nil _) (.nil _)
  have hsize : (Scene.ofDatum (tagLayer size)).nodes.size = 1 := rfl
  have htrail : (Scene.ofDatum (tagLayer size)).trailFrom true 0 = ⟨[⟨0, 0, 0⟩], none⟩ :=
    Scene.trailFrom_search hsearch (by rw [hsize]; decide) true
  have hroot : (Scene.ofDatum (tagLayer size)).root = .node 0 := rfl
  unfold Outline.tree
  rw [hroot]
  simp only [htrail]
  rfl

def tagVariant (size : String) : VariantSpec where
  data := .record [("name", .text "Tag"), ("properties", .record [("Size", .text size)]),
    ("nodeId", .text "1:1")]
  name := .text "Tag"
  properties := [("Size", .text size)]

/-- The outline of the layer. -/
def tagOutline (size : String) : Datum :=
  .record
    [("version", .text Outline.version),
     ("meta", .record
       [("name", .text "Tag"), ("figmaUrl", .text ""), ("nodeId", .text "1:1"),
        ("type", .text "COMPONENT"), ("componentType", .text "component"),
        ("extractedAt", .text Outline.epoch), ("sourceFileKey", .text "")]),
     ("tree", tagTree size), ("variants", .list [(tagVariant size).data]), ("slots", .list []),
     ("layoutIntent", .record [("horizontal", .text "intrinsic"), ("vertical", .text "intrinsic")]),
     ("visualHints", (⟨false, false, false⟩ : Outline.Needs).toDatum),
     ("stateMapping", .list [.record [("figmaVariant", .text "Tag"),
       ("semanticState", .text (Outline.semanticState ("Tag " ++ size)))]]),
     ("stats", .record [("nodeCount", .int 1)])]

theorem tagOutline_made (size : String) :
    Outline.ofDatum (tagLayer size) ⟨.text "", .text "", .null⟩ = .ok (tagOutline size) := by
  have hhints : Outline.visualHints (tagTree size) =
      .ok (⟨false, false, false⟩ : Outline.Needs).toDatum := by
    unfold Outline.visualHints
    rw [tagTree_walked]
    rfl
  have hcount : (Walked.ofDatum (tagTree size)).count = .ok 1 := by rw [tagTree_walked]; rfl
  unfold Outline.ofDatum Outline.ofScene
  rw [tagTree_made]
  unfold Outline.document
  simp only [Outcome.ok_bind, Option.getD_some, hhints, hcount]
  rfl

theorem tagOutline_variants {size : String} {interaction : Datum} {b : Blueprint}
    (h : Blueprint.read (tagOutline size) interaction = .ok b) : b.variants = [tagVariant size] := by
  obtain ⟨items, hitems, hvariants⟩ := Blueprint.read_variants h
  have hgiven : (tagOutline size).itemsOf "variants" = .ok [(tagVariant size).data] := rfl
  obtain rfl := Except.ok.inj (hgiven.symm.trans hitems)
  exact (Except.ok.inj hvariants).symm

def tagIntelligence : Datum :=
  Archetype.Verdict.toDatum ⟨.badge, .name⟩ { Archetype.Features.none with interactionCount := 1 } []

theorem tagOutline_classified (size : String) :
    Archetype.classify (tagOutline size) = .ok tagIntelligence := by
  have hfeatures : Archetype.Features.ofOutline (tagOutline size) =
      .ok { Archetype.Features.none with interactionCount := 1 } := by
    have htree : (tagOutline size).get "tree" = .ok (tagTree size) := rfl
    unfold Archetype.Features.ofOutline
    rw [htree, Outcome.ok_bind, tagTree_walked]
    rfl
  unfold Archetype.classify
  rw [hfeatures]
  rfl

/-- The files of the layer's component, and the component. -/
def tagFiles (size : String) : Outcome (Artifacts × Source) := do
  let interaction ← Interaction.build (tagOutline size) tagIntelligence
  return (← (generate (.text "Tag") (tagOutline size) .null interaction .null).exec.1,
    ← (compose (.text "Tag") (tagOutline size) .null interaction .null).exec.1)

theorem tagFiles_ok {size base : String} {rendered : Option String}
    (h : (tagFiles size).toOption.map (fun r => (r.2.base, r.2.rendered? (tagVariant size))) =
      some (base, rendered)) :
    ∃ interaction files notices s ms,
      Interaction.build (tagOutline size) tagIntelligence = .ok interaction ∧
      (generate (.text "Tag") (tagOutline size) .null interaction .null).exec = (.ok files, notices) ∧
      (compose (.text "Tag") (tagOutline size) .null interaction .null).exec = (.ok s, ms) ∧
      s.base = base ∧ s.rendered? (tagVariant size) = rendered := by
  cases hfiles : tagFiles size with
  | error e => rw [hfiles] at h; cases h
  | ok r =>
    rw [hfiles] at h
    obtain ⟨interaction, hbuild, hfiles⟩ := Outcome.bind_ok hfiles
    obtain ⟨files, hgenerate, hfiles⟩ := Outcome.bind_ok hfiles
    obtain ⟨s, hcompose, hfiles⟩ := Outcome.bind_ok hfiles
    cases hfiles
    obtain ⟨hbase, hrendered⟩ := Prod.mk.inj (Option.some.inj h)
    exact ⟨interaction, files, _, s, _, hbuild, Prod.ext hgenerate rfl, Prod.ext hcompose rfl, hbase,
      hrendered⟩

/-- A tag with a size has the class that the style sheet asks for. -/
theorem generate_meets_big : ∃ interaction files notices s ms note before after rendered asked,
    Interaction.build (tagOutline "Big") tagIntelligence = .ok interaction ∧
    (generate (.text "Tag") (tagOutline "Big") .null interaction .null).exec = (.ok files, notices) ∧
    (compose (.text "Tag") (tagOutline "Big") .null interaction .null).exec = (.ok s, ms) ∧
    s.plan.blueprint.variants = [tagVariant "Big"] ∧
    files.styles = before ++
      Css.block (variantSelector s.base (tagVariant "Big").properties) [] (some note) 0 ++ after ∧
    s.rendered? (tagVariant "Big") = some rendered ∧
    Css.selectorClasses? (variantSelector s.base (tagVariant "Big").properties) = some asked ∧
    ∀ x ∈ asked, x ∈ classes rendered := by
  have hrun : (tagFiles "Big").toOption.map (fun r => (r.2.base, r.2.rendered? (tagVariant "Big"))) =
      some ("tag", some "tag tag--size-big") := by decide +kernel
  obtain ⟨interaction, files, notices, _, _, hbuild, hgenerate, -⟩ := tagFiles_ok hrun
  obtain ⟨s, ms, hs, -, -, hmeets⟩ := generate_meets_iff hgenerate
  obtain ⟨name, ns, -, hplan, -⟩ := compose_ok hs
  have hvariants := tagOutline_variants (plan_steps hplan).2.1
  obtain ⟨note, before, after, rendered, asked, hblock, hrendered, hasked, hiff⟩ :=
    hmeets (tagVariant "Big") (by rw [hvariants]; exact List.mem_cons_self) (List.cons_ne_nil _ _)
      (List.nodup_singleton _) (by simp [tagVariant])
  exact ⟨interaction, files, notices, s, ms, note, before, after, rendered, asked, hbuild, hgenerate, hs,
    hvariants, hblock, hrendered, hasked, hiff.2 (by simp [tagVariant])⟩

/-- A tag whose size is the empty text lacks the class that the style sheet asks for. -/
theorem generate_unmet_empty : ∃ outline intelligence interaction files notices s ms note before after,
    Outline.ofDatum (tagLayer "") ⟨.text "", .text "", .null⟩ = .ok outline ∧
    Archetype.classify outline = .ok intelligence ∧
    Interaction.build outline intelligence = .ok interaction ∧
    (generate (.text "Tag") outline .null interaction .null).exec = (.ok files, notices) ∧
    (compose (.text "Tag") outline .null interaction .null).exec = (.ok s, ms) ∧
    files.component = s.text ∧ s.plan.blueprint.variants = [tagVariant ""] ∧
    files.styles = before ++ Css.block ".tag.tag--size-x" [] (some note) 0 ++ after ∧
    s.rendered? (tagVariant "") = some "tag" ∧
    Css.selectorClasses? ".tag.tag--size-x" = some ["tag", "tag--size-x"] ∧
    "tag--size-x" ∉ classes "tag" := by
  have hrun : (tagFiles "").toOption.map (fun r => (r.2.base, r.2.rendered? (tagVariant ""))) =
      some ("tag", some "tag") := by decide +kernel
  obtain ⟨interaction, files, notices, s, ms, hbuild, hgenerate, hs, hbase, hrendered⟩ := tagFiles_ok hrun
  obtain ⟨s', ms', hs', hcomponent, -, -, hread, hrules⟩ := generate_rules hgenerate
  obtain rfl : s = s' := by
    have := (Prod.mk.inj (hs.symm.trans hs')).1
    exact Except.ok.inj this
  have hvariants := tagOutline_variants hread
  obtain ⟨note, before, after, hblock⟩ :=
    hrules (tagVariant "") (by rw [hvariants]; exact List.mem_cons_self) (List.cons_ne_nil _ _)
  have hselector : variantSelector "tag" (tagVariant "").properties = ".tag.tag--size-x" := by
    decide +kernel
  rw [hbase, hselector] at hblock
  exact ⟨_, _, interaction, files, notices, s, ms, note, before, after, tagOutline_made "",
    tagOutline_classified "", hbuild, hgenerate, hs, hcomponent, hvariants, hblock, hrendered,
    by decide +kernel, by decide +kernel⟩

end Maquette.Component
