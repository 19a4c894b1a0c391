/-
The stories of a component fit its parameters. Each story passes arguments under distinct keys, which
are keys of parameters, and with values that these take: an argument for a property of variants is one
of the values that variants have for it. Variants are told by one story for each set of properties that
occurs, as many as there is room for, and each of them by the first variant with these properties.
-/
import Maquette.Proofs.Component.Classes
import Maquette.Proofs.Component.Exports

namespace Maquette.Component

/-! ## Values of properties -/

/-- The properties of a variant are a table of texts. -/
structure VariantSpec.IsPlain (v : VariantSpec) : Prop where
  distinct : v.keys.Nodup
  texts : ∀ row ∈ v.properties, ∃ s, row.2 = .text s

/-- A property has a value. -/
def HasValue (axes : List Axis) (property : String × Datum) : Prop :=
  ∃ values, (property.1, values) ∈ axes ∧ property.2 ∈ values

/-- Adding a value keeps the properties distinct and all values that they have. -/
theorem addValue_spec {axes : List Axis} (h : (axes.map Prod.fst).Nodup) (key s : String) :
    ((addValue axes (key, .text s)).map Prod.fst).Nodup ∧ HasValue (addValue axes (key, .text s)) (key, .text s) ∧
      ∀ property, HasValue axes property → HasValue (addValue axes (key, .text s)) property := by
  unfold addValue
  dsimp only
  generalize hold : (axes.lookup key).getD [] = old
  have hkept : ∀ d ∈ old, d ∈ if old.contains (.text s) then old else old ++ [.text s] := by
    intro d hd
    split
    · exact hd
    · exact List.mem_append_left _ hd
  have hadded : Datum.text s ∈ if old.contains (.text s) then old else old ++ [.text s] := by
    split
    · rename_i hthere
      obtain ⟨d, hd, hsame⟩ := List.any_eq_true.1 (List.contains_eq_any_beq.symm.trans hthere)
      rwa [Datum.text_same.1 hsame] at hd
    · exact List.mem_append_right _ (List.mem_singleton_self _)
  refine ⟨Table.nodup_set h, ⟨_, (Table.mem_set_iff h).2 (.inl rfl), hadded⟩, ?_⟩
  rintro ⟨key', d⟩ ⟨values, hvalues, hd⟩
  by_cases hkey : key' = key
  · subst hkey
    have hvalues : axes.lookup key' = some values := (Table.lookup_eq_some_iff h).2 hvalues
    rw [hvalues, Option.getD_some] at hold
    subst hold
    exact ⟨_, (Table.mem_set_iff h).2 (.inl rfl), hkept d hd⟩
  · exact ⟨values, (Table.mem_set_iff h).2 (.inr ⟨hvalues, hkey⟩), hd⟩

/-- The properties of variants are distinct, and each has all values that it has in some variant. -/
theorem axes_spec {variants : List VariantSpec} (h : ∀ v ∈ variants, v.IsPlain) :
    ((axes variants).map Prod.fst).Nodup ∧
      ∀ v ∈ variants, ∀ property ∈ v.properties, HasValue (axes variants) property := by
  have hfold : ∀ (properties : List (String × Datum)) (axes : List Axis),
      (∀ property ∈ properties, ∃ s, property.2 = .text s) → (axes.map Prod.fst).Nodup →
      ((properties.foldl addValue axes).map Prod.fst).Nodup ∧
        ∀ property, property ∈ properties ∨ HasValue axes property →
          HasValue (properties.foldl addValue axes) property := by
    intro properties
    induction properties with
    | nil => exact fun axes _ hnodup => ⟨hnodup, fun _ h => h.resolve_left (by simp)⟩
    | cons property properties ih =>
      intro axes htexts hnodup
      obtain ⟨⟨s, hs⟩, hrest⟩ := List.forall_mem_cons.1 htexts
      obtain ⟨key, value⟩ := property
      cases hs
      obtain ⟨hnodup', hown, hkept⟩ := addValue_spec hnodup key s
      obtain ⟨hdistinct, hall⟩ := ih _ hrest hnodup'
      refine ⟨hdistinct, fun property hproperty => hall property ?_⟩
      rcases hproperty with hproperty | hproperty
      · rcases List.mem_cons.1 hproperty with rfl | hproperty
        · exact .inr hown
        · exact .inl hproperty
      · exact .inr (hkept property hproperty)
  have htexts : ∀ property ∈ variants.flatMap (·.properties), ∃ s, property.2 = .text s := by
    intro property hproperty
    obtain ⟨v, hv, hproperty⟩ := List.mem_flatMap.1 hproperty
    exact (h v hv).texts property hproperty
  obtain ⟨hnodup, hall⟩ := hfold _ [] htexts (by simp)
  exact ⟨hnodup, fun v hv property hproperty =>
    hall property (.inl (List.mem_flatMap.2 ⟨v, hv, hproperty⟩))⟩

/-- Where variants are tables of texts, the parameter of a property has all of its values. -/
theorem variant_values {b : Blueprint} (handlesKeys : Bool) (h : ∀ v ∈ b.variants, v.IsPlain)
    {v : VariantSpec} (hv : v ∈ b.variants) {key : String} {value : Datum}
    (hrow : (key, value) ∈ v.properties) :
    ∃ p, parameter? (parameters b handlesKeys) .variant key = some p ∧ p ∈ parameters b handlesKeys ∧
      p.kind = .variant ∧ p.source = .text key ∧ p.key = p.name ∧ value ∈ p.values ∧
      p.type = " | ".intercalate (p.values.map (Script.literal ·.shown)) := by
  obtain ⟨hnodup, hvalues⟩ := axes_spec h
  obtain ⟨values, hmem, hvalue⟩ := hvalues v hv _ hrow
  obtain ⟨q, hq, hsource⟩ := exists_variant handlesKeys
    (mem_axes.2 ⟨v, hv, List.mem_map_of_mem hrow⟩)
  obtain ⟨hq, hkind⟩ := List.mem_filter.1 hq
  obtain ⟨p, hp⟩ : ∃ p, parameter? (parameters b handlesKeys) .variant key = some p := by
    rw [← Option.isSome_iff_exists, parameter?, List.find?_isSome]
    exact ⟨q, hq, by simpa [hsource, Datum.isThe] using hkind⟩
  have hthe := List.find?_some hp
  simp only [Bool.and_eq_true, decide_eq_true_eq] at hthe
  have hin := List.mem_of_find?_eq_some hp
  have hvariant : p ∈ parametersOf (parameters b handlesKeys) .variant :=
    List.mem_filter.2 ⟨hin, by simpa using hthe.1⟩
  have hkey := Datum.isThe_iff.1 hthe.2
  rw [parametersOf_variant, ← List.map_uncurry_zip_eq_zipWith] at hvariant
  obtain ⟨⟨axis, name⟩, hpair, rfl⟩ := List.mem_map.1 hvariant
  obtain rfl : axis.1 = key := Datum.text.inj hkey
  -- the property occurs once, so this is the one with the value
  have hone : axis = (axis.1, values) :=
    List.inj_on_of_nodup_map hnodup (List.of_mem_zip hpair).1 hmem rfl
  have hvalue : value ∈ axis.2 := by rw [hone]; exact hvalue
  exact ⟨_, hp, hin, rfl, rfl, rfl, hvalue, rfl⟩

end Maquette.Component

namespace Maquette.Story

open Component (Blueprint Parameter VariantSpec distinct hasParameter parameters nodeType)
open Naming (Lettered)

/-! ## Reading arguments -/

/-- The key and the value of a line of arguments: what stands before and behind its first colon. -/
def argument? (line : String) : Option (String × String) :=
  match Text.cut? ':' (line.toList.dropWhile (· == ' ')) with
  | some (key, ' ' :: value) =>
    if value.getLast? = some ',' then some (String.ofList key, String.ofList value.dropLast) else none
  | _ => none

example : argument? "    size: 'Large'," = some ("size", "'Large'") := by decide +kernel

theorem argument?_argument {key : String} (hcolon : ':' ∉ key.toList) (hblank : ' ' ∉ key.toList)
    (value : String) : argument? (argument (key ++ ": " ++ value)) = some (key, value) := by
  have hindent : (Script.indent 2).toList = [' ', ' ', ' ', ' '] := rfl
  have hline : (argument (key ++ ": " ++ value)).toList.dropWhile (· == ' ') =
      key.toList ++ ':' :: ' ' :: (value.toList ++ [',']) := by
    have hall : (argument (key ++ ": " ++ value)).toList =
        ' ' :: ' ' :: ' ' :: ' ' :: (key.toList ++ ':' :: ' ' :: (value.toList ++ [','])) := by
      simp [argument, hindent]
    rw [hall]
    cases hkey : key.toList with
    | nil => rfl
    | cons c cs =>
      have hc : (c == ' ') = false := beq_false_of_ne fun he => hblank (by rw [hkey, he]; simp)
      simp [List.dropWhile, hc]
  rw [argument?, hline, Text.cut?_append hcolon]
  simp

/-- What a parameter takes: a property of variants takes one of the values in its type, and everything
else what its type is called after. -/
def Accepts (p : Parameter) (value : String) : Prop :=
  if p.kind = .variant then
    p.type = " | ".intercalate (p.values.map (Script.literal ·.shown)) ∧
      value ∈ p.values.map (Script.literal ·.shown)
  else if p.type = "boolean" then value = "true"
  else (p.type = nodeType ∨ p.type = "string") ∧ ∃ s, value = Script.literal s

/-- The arguments of an entry have distinct keys, and each is taken by the parameter with its key. -/
def Entry.IsTyped (ps : List Parameter) (e : Entry) : Prop :=
  ∃ args : List (String × String), e.arguments.map argument? = args.map some ∧
    (args.map Prod.fst).Nodup ∧ ∀ a ∈ args, ∃ p ∈ ps, p.key = a.1 ∧ Accepts p a.2

/-- The arguments of an entry give all properties of a variant the values that the variant has. -/
def Entry.Shows (ps : List Parameter) (v : VariantSpec) (e : Entry) : Prop :=
  ∀ row ∈ v.properties, ∃ p ∈ ps, p.kind = .variant ∧ p.source = .text row.1 ∧
    some (p.key, Script.literal row.2.shown) ∈ e.arguments.map argument?

/-! ## Parameters that stories use -/

section Parameters

variable {outline interaction : Datum} {b : Blueprint} {handlesKeys : Bool}

/-- The keys of parameters can be told from what stands behind them. -/
theorem keys_readable (hb : Blueprint.read outline interaction = .ok b) :
    ∀ p ∈ parameters b handlesKeys, ':' ∉ p.key.toList ∧ ' ' ∉ p.key.toList := by
  intro p hp
  have hlettered := Component.parameters_lettered hb handlesKeys p hp
  rw [Component.parameters_eq] at hp
  rcases List.mem_append.1 hp with hp | hp
  · rw [(Component.ownParameters_key hp).1]
    exact ⟨hlettered.not_mem rfl, hlettered.not_mem rfl⟩
  · have hfixed : ∀ row ∈ Component.fixedNames, ':' ∉ row.2.toList ∧ ' ' ∉ row.2.toList := by decide
    exact hfixed _ ((Component.fixedParameters_sublist b handlesKeys).subset (List.mem_map_of_mem hp))

/-- The parameter that takes a component's text is a slot or the children. -/
theorem content_parameter {content : String}
    (h : contentName (parameters b handlesKeys) = .ok content) :
    ∃ p ∈ parameters b handlesKeys, p.key = content ∧ p.kind ≠ .variant ∧ p.type = nodeType := by
  obtain ⟨label, hlabel, h⟩ := Outcome.bind_ok h
  cases h
  cases label with
  | none =>
    refine ⟨Component.fixedParameter "children" "children" nodeType "" .base "", ?_, rfl, by decide, rfl⟩
    rw [Component.parameters_eq]
    simp [Component.fixedParameters, Component.closingParameters]
  | some p =>
    obtain ⟨hp, hkind⟩ := List.mem_filter.1 (Component.mem_of_firstLabel hlabel)
    have hslot : p.kind = .slot := by simpa using hkind
    rw [Component.parameters_eq] at hp
    rcases List.mem_append.1 hp with hown | hfixed
    · refine ⟨p, ?_, (Component.ownParameters_key hown).1, by rw [hslot]; decide, ?_⟩
      · rw [Component.parameters_eq]; exact List.mem_append_left _ hown
      · rw [Component.ownParameters_eq, List.mem_append] at hown
        rcases hown with hown | hown
        · rw [← List.map_uncurry_zip_eq_zipWith] at hown
          obtain ⟨row, -, rfl⟩ := List.mem_map.1 hown
          cases hslot
        · rw [← List.map_uncurry_zip_eq_zipWith] at hown
          obtain ⟨row, -, rfl⟩ := List.mem_map.1 hown
          rfl
    · exact absurd hslot (Component.fixedParameters_kind hfixed).2

/-- A component that can be disabled has a parameter for it. -/
theorem disabled_mem (h : hasParameter (parameters b handlesKeys) "disabled" = true) :
    Component.disabledParameter ∈ parameters b handlesKeys := by
  obtain ⟨p, hp, hname⟩ := List.any_eq_true.1 h
  have hname : p.name = "disabled" := by simpa using hname
  rcases Component.parameter_cases hp with ⟨-, hfree⟩ | rfl | ⟨-, -, hmem, -⟩ | ⟨-, hmem, -⟩ | ⟨-, rfl⟩ |
    hclosing
  · exact absurd (by rw [hname]; decide) hfree
  · exact hp
  · exact absurd (hname ▸ hmem) (by decide)
  · exact absurd (hname ▸ hmem) (by decide)
  · exact absurd hname (by decide)
  · have hother : ∀ q ∈ Component.closingParameters, q.name ≠ "disabled" := by
      simp [Component.closingParameters, Component.fixedParameter]
    exact absurd hname (hother p hclosing)

theorem ariaLabel_mem (h : (b.ariaOf "ariaLabel").isSome = true) :
    Component.fixedParameter "'aria-label'" "ariaLabel" "string" "" .aria "ariaLabel" ∈
      parameters b handlesKeys := by
  have hin : Component.fixedParameter "'aria-label'" "ariaLabel" "string" "" .aria "ariaLabel" ∈
      Component.ariaParameters b :=
    List.mem_map.2 ⟨("ariaLabel", "aria-label"), List.mem_filter.2 ⟨by simp [Component.ariaAttributes], h⟩,
      rfl⟩
  rw [Component.parameters_eq]
  simp [Component.fixedParameters, hin]

/-! ## Typed entries -/

/-- An entry whose arguments are written for different parameters that take them. -/
theorem isTyped_of_rows (hb : Blueprint.read outline interaction = .ok b) {e : Entry}
    {rows : List (Parameter × String)}
    (he : e.arguments = rows.map fun row => argument (row.1.key ++ ": " ++ row.2))
    (hrows : ∀ row ∈ rows, row.1 ∈ parameters b handlesKeys ∧ Accepts row.1 row.2)
    (hdistinct : (rows.map Prod.fst).Nodup) : e.IsTyped (parameters b handlesKeys) := by
  refine ⟨rows.map fun row => (row.1.key, row.2), ?_, ?_, fun a ha => ?_⟩
  · rw [he, List.map_map, List.map_map]
    refine List.map_congr_left fun row hrow => ?_
    obtain ⟨hcolon, hblank⟩ := keys_readable hb _ (hrows row hrow).1
    exact argument?_argument hcolon hblank row.2
  · have hkeys := (Component.parameters_distinct hb handlesKeys).2.1
    have hmap : (rows.map fun row => (row.1.key, row.2)).map Prod.fst =
        (rows.map Prod.fst).map Parameter.key := by
      rw [List.map_map, List.map_map]
      rfl
    rw [hmap]
    refine hdistinct.map_on fun p hp q hq hkey => ?_
    obtain ⟨row, hrow, rfl⟩ := List.mem_map.1 hp
    obtain ⟨row', hrow', rfl⟩ := List.mem_map.1 hq
    exact List.inj_on_of_nodup_map hkeys (hrows row hrow).1 (hrows row' hrow').1 hkey
  · obtain ⟨row, hrow, rfl⟩ := List.mem_map.1 ha
    exact ⟨row.1, (hrows row hrow).1, rfl, (hrows row hrow).2⟩

/-- An entry whose arguments are for no properties of variants. -/
def Entry.IsPlainOf (ps : List Parameter) (e : Entry) : Prop :=
  ∀ p ∈ ps, p.kind = .variant → ∀ value, some (p.key, value) ∉ e.arguments.map argument?

theorem accepts_node {p : Parameter} (hkind : p.kind ≠ .variant) (htype : p.type = nodeType)
    (s : String) : Accepts p (Script.literal s) := by
  rw [Accepts, if_neg hkind, htype, if_neg (by decide)]
  exact ⟨.inl rfl, s, rfl⟩

/-- An entry that passes the component's text, and maybe an argument for something else. -/
theorem isTyped_of_content (hb : Blueprint.read outline interaction = .ok b) {e : Entry}
    {content : String} (hcontent : contentName (parameters b handlesKeys) = .ok content) (text : String)
    (rest : Option (Parameter × String))
    (he : e.arguments = argument (content ++ ": " ++ Script.literal text) ::
      rest.toList.map fun row => argument (row.1.key ++ ": " ++ row.2))
    (hrest : ∀ row ∈ rest, row.1 ∈ parameters b handlesKeys ∧ row.1.kind ≠ .variant ∧
      row.1.type ≠ nodeType ∧ Accepts row.1 row.2) :
    e.IsTyped (parameters b handlesKeys) ∧ e.IsPlainOf (parameters b handlesKeys) := by
  obtain ⟨p, hp, hkey, hkind, htype⟩ := content_parameter hcontent
  have hrows : ∀ row ∈ (p, Script.literal text) :: rest.toList,
      row.1 ∈ parameters b handlesKeys ∧ row.1.kind ≠ .variant ∧ Accepts row.1 row.2 := by
    refine List.forall_mem_cons.2 ⟨⟨hp, hkind, accepts_node hkind htype text⟩, fun row hrow => ?_⟩
    obtain ⟨hin, hkind, -, haccepts⟩ := hrest row (Option.mem_toList.1 hrow)
    exact ⟨hin, hkind, haccepts⟩
  have he : e.arguments = ((p, Script.literal text) :: rest.toList).map fun row =>
      argument (row.1.key ++ ": " ++ row.2) := by rw [he, ← hkey]; rfl
  constructor
  · refine isTyped_of_rows hb he (fun row hrow => ⟨(hrows row hrow).1, (hrows row hrow).2.2⟩) ?_
    -- the argument for something else is not for the text, as its type is another one
    cases hsome : rest with
    | none => exact List.nodup_singleton _
    | some row =>
      have hne : p ≠ row.1 := fun hsame => (hrest row hsome).2.2.1 (hsame ▸ htype)
      exact List.nodup_cons.2 ⟨by simpa using hne, List.nodup_singleton _⟩
  · intro q hq hvariant value hmem
    rw [he, List.map_map] at hmem
    obtain ⟨row, hrow, hread⟩ := List.mem_map.1 hmem
    obtain ⟨hin, hother, -⟩ := hrows row hrow
    obtain ⟨hcolon, hblank⟩ := keys_readable hb _ hin
    rw [Function.comp_apply, argument?_argument hcolon hblank] at hread
    have hkeys := (Component.parameters_distinct hb handlesKeys).2.1
    have hsame := List.inj_on_of_nodup_map hkeys hin hq (Prod.mk.inj (Option.some.inj hread)).1
    exact hother (hsame ▸ hvariant)

/-- The arguments for the properties of a variant. -/
theorem variantArguments_rows (handlesKeys : Bool) (h : ∀ v ∈ b.variants, v.IsPlain) {v : VariantSpec}
    (hv : v ∈ b.variants) : ∃ rows : List (Parameter × String),
      variantArguments (parameters b handlesKeys) v =
        rows.map (fun row => argument (row.1.key ++ ": " ++ row.2)) ∧
      rows.map (fun row => (row.1.source, row.2)) =
        v.properties.map (fun row => (.text row.1, Script.literal row.2.shown)) ∧
      ∀ row ∈ rows, row.1 ∈ parameters b handlesKeys ∧ row.1.kind = .variant ∧ Accepts row.1 row.2 := by
  unfold variantArguments
  have hall : ∀ row ∈ v.properties, ∃ p,
      variantName? (parameters b handlesKeys) row.1 = some p.key ∧ p ∈ parameters b handlesKeys ∧
      p.kind = .variant ∧ p.source = .text row.1 ∧ Accepts p (Script.literal row.2.shown) := by
    rintro ⟨key, value⟩ hrow
    obtain ⟨p, hp, hin, hkind, hsource, hkey, hvalue, htype⟩ :=
      Component.variant_values handlesKeys h hv hrow
    refine ⟨p, by rw [variantName?, hp, hkey]; rfl, hin, hkind, hsource, ?_⟩
    rw [Accepts, if_pos hkind]
    exact ⟨htype, List.mem_map_of_mem (f := fun d : Datum => Script.literal d.shown) hvalue⟩
  generalize v.properties = properties at hall
  induction properties with
  | nil => exact ⟨[], rfl, rfl, by simp⟩
  | cons row properties ih =>
    obtain ⟨⟨p, hname, hin, hkind, hsource, haccepts⟩, hrest⟩ := List.forall_mem_cons.1 hall
    obtain ⟨rows, hargs, hsources, hrows⟩ := ih hrest
    refine ⟨(p, Script.literal row.2.shown) :: rows, ?_, ?_,
      List.forall_mem_cons.2 ⟨⟨hin, hkind, haccepts⟩, hrows⟩⟩
    · obtain ⟨key, value⟩ := row
      simp only [List.filterMap_cons, hname, Option.map_some, hargs]
      rfl
    · rw [List.map_cons, hsources, hsource]
      rfl

/-- The story of a variant gives its properties their values, and the component its text. -/
theorem variantEntry_typed (hb : Blueprint.read outline interaction = .ok b)
    (h : ∀ v ∈ b.variants, v.IsPlain) {name content : String}
    (hcontent : contentName (parameters b handlesKeys) = .ok content) {v : VariantSpec}
    (hv : v ∈ b.variants) (story : String) :
    (variantEntry ⟨name, parameters b handlesKeys, content⟩ v story).IsTyped (parameters b handlesKeys) ∧
      (variantEntry ⟨name, parameters b handlesKeys, content⟩ v story).Shows
        (parameters b handlesKeys) v := by
  obtain ⟨p, hp, hkey, hkind, htype⟩ := content_parameter hcontent
  obtain ⟨rows, hargs, hsources, hrows⟩ := variantArguments_rows handlesKeys h hv
  have he : (variantEntry ⟨name, parameters b handlesKeys, content⟩ v story).arguments =
      (rows ++ [(p, Script.literal (name ++ " " ++ story))]).map fun row =>
        argument (row.1.key ++ ": " ++ row.2) := by
    rw [List.map_append, ← hargs]
    simp only [List.map_cons, List.map_nil, hkey]
    rfl
  constructor
  · refine isTyped_of_rows hb he (List.forall_mem_append.2 ⟨fun row hrow => ?_, ?_⟩) ?_
    · exact ⟨(hrows row hrow).1, (hrows row hrow).2.2⟩
    · exact List.forall_mem_singleton.2 ⟨hp, accepts_node hkind htype _⟩
    · have hdistinct : (rows.map Prod.fst).Nodup := by
        refine List.Nodup.of_map Parameter.source ?_
        have hkeys : (rows.map Prod.fst).map Parameter.source = v.keys.map Datum.text := by
          have := congrArg (List.map Prod.fst) hsources
          rw [List.map_map, List.map_map] at this
          rw [List.map_map, VariantSpec.keys, List.map_map]
          exact this
        rw [hkeys]
        exact (h v hv).distinct.map fun _ _ => Datum.text.inj
      rw [List.map_append, List.nodup_append]
      refine ⟨hdistinct, List.nodup_singleton _, fun q hq q' hq' hsame => ?_⟩
      -- the parameter for the text stands for no property
      obtain ⟨row, hrow, rfl⟩ := List.mem_map.1 hq
      rw [List.map_singleton, List.mem_singleton] at hq'
      have hsame : row.1 = p := hsame.trans hq'
      exact hkind (hsame ▸ (hrows row hrow).2.1)
  · intro property hproperty
    have hmem : (Datum.text property.1, Script.literal property.2.shown) ∈
        rows.map fun row => (row.1.source, row.2) := by
      rw [hsources]
      exact List.mem_map_of_mem (f := fun row => (Datum.text row.1, Script.literal row.2.shown)) hproperty
    obtain ⟨row, hrow, hpair⟩ := List.mem_map.1 hmem
    obtain ⟨hsource, hvalue⟩ := Prod.mk.inj hpair
    obtain ⟨hin, hvariant, -⟩ := hrows row hrow
    refine ⟨row.1, hin, hvariant, hsource, ?_⟩
    obtain ⟨hcolon, hblank⟩ := keys_readable hb _ hin
    rw [he, ← hvalue, List.map_map]
    refine List.mem_map.2 ⟨row, List.mem_append_left _ hrow, ?_⟩
    exact argument?_argument hcolon hblank row.2

end Parameters

/-! ## Variants that are shown -/

/-- The variants that are picked: the first one of each signature that was not seen, until there is no
room. -/
theorem firstOfEach_ok {room : Nat} {seen : List (List String)} {items : List Datum}
    {variants shown : List VariantSpec} (hread : items.mapM VariantSpec.read = .ok variants)
    (h : firstOfEach room seen items = .ok shown) :
    shown.map signature =
        ((distinct (variants.map signature)).filter (!seen.contains ·)).take room ∧
      ∀ v ∈ shown, signature v ∉ seen ∧
        variants.find? (signature · == signature v) = some v := by
  induction items generalizing room seen variants shown with
  | nil =>
    cases hread
    cases room <;> cases h <;> simp [distinct]
  | cons d items ih =>
    cases room with
    | zero => cases h; simp
    | succ room =>
      rw [List.mapM_cons] at hread
      obtain ⟨v, hv, hread⟩ := Outcome.bind_ok hread
      obtain ⟨rest, hrest, hread⟩ := Outcome.bind_ok hread
      cases hread
      rw [firstOfEach, hv, Outcome.ok_bind] at h
      rw [List.map_cons]
      split at h
      · rename_i hseen
        obtain ⟨hsignatures, hfirst⟩ := ih hrest h
        have hin : signature v ∈ seen := by simpa using hseen
        refine ⟨?_, fun w hw => ?_⟩
        · rw [hsignatures, Component.new_of_seen hin]
        · obtain ⟨hfree, hfind⟩ := hfirst w hw
          have hne : signature v ≠ signature w := fun he => hfree (he ▸ hin)
          exact ⟨hfree, by rw [List.find?_cons_of_neg (by simpa using hne), hfind]⟩
      · rename_i hseen
        obtain ⟨shown', hshown, h⟩ := Outcome.bind_ok h
        cases h
        obtain ⟨hsignatures, hfirst⟩ := ih hrest hshown
        have hout : signature v ∉ seen := by simpa using hseen
        refine ⟨?_, List.forall_mem_cons.2 ⟨⟨hout, by simp⟩, fun w hw => ?_⟩⟩
        · rw [List.map_cons, hsignatures, Component.new_of_unseen (fun _ => List.mem_cons) hout,
            List.take_succ_cons]
        · obtain ⟨hfree, hfind⟩ := hfirst w hw
          obtain ⟨hne, hfree⟩ := not_or.1 (List.mem_cons.not.1 hfree)
          exact ⟨hfree, by rw [List.find?_cons_of_neg (by simpa using Ne.symm hne), hfind]⟩

/-! ## Kinds of entries -/

section Kinds

variable {s : Subject} {used after : List String} {es : List Entry}

theorem variantEntries_forall₂ {variants : List VariantSpec} {number : Nat}
    (h : variantEntries s number used variants = .ok (es, after)) :
    List.Forall₂ (fun v e => ∃ story, e = variantEntry s v story) variants es := by
  induction variants generalizing number used es with
  | nil => cases h; exact .nil
  | cons v rest ih =>
    obtain ⟨label, -, h⟩ := Outcome.bind_ok h
    obtain ⟨⟨es', after'⟩, hrest, h⟩ := Outcome.bind_ok h
    cases h
    exact .cons ⟨_, rfl⟩ (ih hrest)

/-- What a story about accessibility passes besides the component's text: its label, if it has one. -/
theorem accessibilityEntry_arguments {b : Blueprint}
    (h : accessibilityEntry s b used = .ok (es, after)) : ∀ e ∈ es, ∃ text,
      e.arguments = [s.contentArgument text] ∨
      ∃ value piece, b.ariaOf "ariaLabel" = some value ∧ Markup.Piece.ofDatum value = .ok piece ∧
        e.arguments = [s.contentArgument text, argument ("'aria-label': " ++ piece.text)] := by
  unfold accessibilityEntry at h
  dsimp only at h
  split at h
  · cases h; simp
  split at h
  · rename_i value hvalue
    split at h
    · obtain ⟨piece, hpiece, h⟩ := Outcome.bind_ok h
      cases h
      exact List.forall_mem_singleton.2 ⟨_, .inr ⟨value, piece, hvalue, hpiece, rfl⟩⟩
    · cases h
      exact List.forall_mem_singleton.2 ⟨_, .inl rfl⟩
  · cases h
    exact List.forall_mem_singleton.2 ⟨_, .inl rfl⟩

theorem stateEntries_eq {states : List Datum} (h : stateEntries s used states = .ok es) :
    ∀ e ∈ es, ∃ state story, e = stateEntry s state story := by
  induction states generalizing used es with
  | nil => cases h; simp
  | cons state rest ih =>
    obtain ⟨key, -, h⟩ := Outcome.bind_ok h
    obtain ⟨ps, -, h⟩ := Outcome.bind_ok h
    obtain ⟨es', hrest, h⟩ := Outcome.bind_ok h
    cases h
    exact List.forall_mem_cons.2 ⟨⟨_, _, rfl⟩, ih hrest⟩

end Kinds

/-! ## All stories -/

section Stories

variable {outline interaction : Datum} {b : Blueprint} {handlesKeys : Bool} {name content : String}

theorem defaultEntry_typed (hb : Blueprint.read outline interaction = .ok b)
    (hcontent : contentName (parameters b handlesKeys) = .ok content) :
    (defaultEntry ⟨name, parameters b handlesKeys, content⟩).IsTyped (parameters b handlesKeys) ∧
      (defaultEntry ⟨name, parameters b handlesKeys, content⟩).IsPlainOf (parameters b handlesKeys) :=
  isTyped_of_content hb hcontent name none rfl (by simp)

theorem accessibilityEntry_typed (hb : Blueprint.read outline interaction = .ok b)
    (hcontent : contentName (parameters b handlesKeys) = .ok content)
    (haria : ∀ d, b.ariaOf "ariaLabel" = some d → ∃ label, d = .text label)
    {used after : List String} {es : List Entry}
    (h : accessibilityEntry ⟨name, parameters b handlesKeys, content⟩ b used = .ok (es, after)) :
    ∀ e ∈ es, e.IsTyped (parameters b handlesKeys) ∧ e.IsPlainOf (parameters b handlesKeys) := by
  intro e he
  obtain ⟨text, harguments | ⟨value, piece, hvalue, hpiece, harguments⟩⟩ :=
    accessibilityEntry_arguments h e he
  · exact isTyped_of_content hb hcontent text none harguments (by simp)
  · obtain ⟨label, rfl⟩ := haria value hvalue
    cases hpiece
    have hkey : "'aria-label': " = "'aria-label'" ++ ": " := by decide
    refine isTyped_of_content hb hcontent text (some (Component.fixedParameter
      "'aria-label'" "ariaLabel" "string" "" .aria "ariaLabel", Script.literal label)) ?_ ?_
    · rw [harguments, hkey]
      rfl
    · rintro _ ⟨⟩
      have htype : "string" ≠ nodeType := by decide
      exact ⟨ariaLabel_mem (by rw [hvalue]; rfl), nofun, htype, ⟨.inr rfl, label, rfl⟩⟩

theorem stateEntry_typed (hb : Blueprint.read outline interaction = .ok b)
    (hcontent : contentName (parameters b handlesKeys) = .ok content) (state story : String) :
    (stateEntry ⟨name, parameters b handlesKeys, content⟩ state story).IsTyped
        (parameters b handlesKeys) ∧
      (stateEntry ⟨name, parameters b handlesKeys, content⟩ state story).IsPlainOf
        (parameters b handlesKeys) := by
  by_cases hdisabled : (state == "disabled" && hasParameter (parameters b handlesKeys) "disabled") = true
  · have hkey : "disabled: true" = "disabled" ++ ": " ++ "true" := by decide
    refine isTyped_of_content hb hcontent (name ++ " (" ++ state ++ ")")
      (some (Component.disabledParameter, "true")) ?_ ?_
    · simp only [stateEntry, hdisabled, hkey]
      rfl
    · rintro _ ⟨⟩
      rw [Bool.and_eq_true] at hdisabled
      exact ⟨disabled_mem hdisabled.2, nofun, by decide, rfl⟩
  · refine isTyped_of_content hb hcontent (name ++ " (" ++ state ++ ")") none ?_ (by simp)
    simp only [stateEntry, hdisabled]
    rfl

/-- The stories of a component one after the other: the default one, those of variants, and the others. -/
theorem entries_typed (hb : Blueprint.read outline interaction = .ok b)
    (hplain : ∀ v ∈ b.variants, v.IsPlain)
    (haria : ∀ d, b.ariaOf "ariaLabel" = some d → ∃ label, d = .text label)
    (hcontent : contentName (parameters b handlesKeys) = .ok content) {es : List Entry}
    (hes : entries ⟨name, parameters b handlesKeys, content⟩ b = .ok es) :
    ∃ (first : Entry) (variants others : List Entry) (shown : List VariantSpec),
      es = first :: (variants ++ others) ∧
      (∀ e ∈ first :: others, e.IsTyped (parameters b handlesKeys) ∧
        e.IsPlainOf (parameters b handlesKeys)) ∧
      List.Forall₂ (fun v e => e.IsTyped (parameters b handlesKeys) ∧
        e.Shows (parameters b handlesKeys) v) shown variants ∧
      shown.map signature = (distinct (b.variants.map signature)).take 10 ∧
      ∀ v ∈ shown, b.variants.find? (signature · == signature v) = some v := by
  obtain ⟨shown, hshown, hes⟩ := Outcome.bind_ok hes
  obtain ⟨⟨variants, used⟩, hvariants, hes⟩ := Outcome.bind_ok hes
  obtain ⟨⟨accessible, used'⟩, haccessible, hes⟩ := Outcome.bind_ok hes
  obtain ⟨states, hstates, hes⟩ := Outcome.bind_ok hes
  obtain rfl : defaultEntry ⟨name, parameters b handlesKeys, content⟩ ::
      (variants ++ (accessible ++ states)) = es := by simpa using hes
  -- the variants that are shown are among those of the blueprint
  obtain ⟨items, hitems, hread⟩ := Component.Blueprint.read_variants hb
  rw [groups, (Component.Blueprint.read_ok hb).1, hitems, Outcome.ok_bind] at hshown
  obtain ⟨hsignatures, hfind⟩ := firstOfEach_ok hread hshown
  have hunseen : ∀ s : List String, (!([] : List (List String)).contains s) = true := by simp
  simp only [hunseen, List.filter_true] at hsignatures
  refine ⟨_, variants, accessible ++ states, shown, rfl, ?others, ?variants, hsignatures,
    fun v hv => (hfind v hv).2⟩
  case others =>
    refine List.forall_mem_cons.2 ⟨defaultEntry_typed hb hcontent,
      List.forall_mem_append.2 ⟨accessibilityEntry_typed hb hcontent haria haccessible, ?_⟩⟩
    intro e he
    obtain ⟨state, story, rfl⟩ := stateEntries_eq hstates e he
    exact stateEntry_typed hb hcontent state story
  case variants =>
    have hpairs := variantEntries_forall₂ hvariants
    refine List.forall₂_iff_get.2 ⟨hpairs.length_eq, fun i hi hi' => ?_⟩
    obtain ⟨story, hstory⟩ := (List.forall₂_iff_get.1 hpairs).2 i hi hi'
    rw [hstory]
    exact variantEntry_typed hb hplain hcontent
      (List.mem_of_find?_eq_some (hfind _ (List.get_mem _ _)).2) story

end Stories

/-- Whatever the documents of a component are, as long as the properties of its variants are tables of
texts and its label is a text, each of its stories passes arguments under distinct keys, and each of them
is taken by the parameter with its key. At most ten stories are about variants, one for each set of
properties, and each of them gives the first variant with these properties the values that it has. -/
theorem stories_typed {title outline interaction : Datum} {b : Blueprint} {name text : String}
    {handlesKeys : Bool} (hname : Component.componentName title = .ok name)
    (hb : Blueprint.read outline interaction = .ok b) (hplain : ∀ v ∈ b.variants, v.IsPlain)
    (haria : ∀ d, b.ariaOf "ariaLabel" = some d → ∃ label, d = .text label)
    (ht : Story.text name b (parameters b handlesKeys) = .ok text) :
    ∃ (first : Entry) (variants others : List Entry) (shown : List VariantSpec),
      Text.splitOn (· == '\n') text.toList = (header name b (parameters b handlesKeys) ++
        (first :: (variants ++ others)).flatMap Entry.lines).map String.toList ∧
      (∀ e ∈ first :: (variants ++ others), e.IsTyped (parameters b handlesKeys)) ∧
      (∀ e ∈ first :: others, e.IsPlainOf (parameters b handlesKeys)) ∧
      List.Forall₂ (fun v e => e.Shows (parameters b handlesKeys) v) shown variants ∧
      variants.length ≤ 10 ∧
      shown.map signature = (distinct (b.variants.map signature)).take 10 ∧
      ∀ v ∈ shown, b.variants.find? (signature · == signature v) = some v := by
  have hps := Component.parameters_lettered hb handlesKeys
  obtain ⟨hlettered, -⟩ := componentName_ok hname
  obtain ⟨content, hcontent, ht⟩ := Outcome.bind_ok ht
  obtain ⟨es, hes, ht⟩ := Outcome.bind_ok ht
  cases ht
  have hs : Subject.Plain ⟨name, parameters b handlesKeys, content⟩ :=
    ⟨contentName_lettered hps hcontent, hps⟩
  have hlines : ∀ e ∈ es, e.Plain := by
    obtain ⟨rest, after, rfl, hnamed⟩ := entries_named hs hes
    exact List.forall_mem_cons.2 ⟨defaultEntry_plain hs, hnamed.plain⟩
  obtain ⟨first, variants, others, shown, rfl, hothers, hpairs, hsignatures, hfind⟩ :=
    entries_typed hb hplain haria hcontent hes
  obtain ⟨hfirst, hrest⟩ := List.forall_mem_cons.1 hothers
  refine ⟨first, variants, others, shown, ?text, ?typed, fun e he => (hothers e he).2,
    hpairs.imp fun _ _ h => h.2, ?length, hsignatures, hfind⟩
  case text =>
    exact Text.splitOn_lines (by simp [header])
      (List.forall_mem_append.2 ⟨header_onOneLine hlettered b hps, Entry.onOneLine_all hlines⟩)
  case typed =>
    refine List.forall_mem_cons.2 ⟨hfirst.1, List.forall_mem_append.2 ⟨fun e he => ?_,
      fun e he => (hrest e he).1⟩⟩
    obtain ⟨i, hi, rfl⟩ := List.getElem_of_mem he
    exact ((List.forall₂_iff_get.1 hpairs).2 i (by rw [hpairs.length_eq]; exact hi) hi).1
  case length =>
    rw [← hpairs.length_eq, ← List.length_map (f := signature), hsignatures]
    exact List.length_take_le _ _

/-! ## A menu -/

def menuVariants : List Datum :=
  let variant (properties : List (String × Datum)) : Datum := .record [("properties", .record properties)]
  [variant [("Is open", .text "Yes"), ("is-open", .text "wide")],
   variant [("is-open", .text "it's narrow"), ("Is open", .text "No")],
   variant [("children", .text "two")]]

/-- A menu whose properties ask for one name, or for a name that every component has. -/
def menuOutline : Datum :=
  .record [("variants", .list menuVariants), ("slots", .list [.record [("name", .text "label")]])]

def menuInteraction : Datum :=
  .record
    [("states", .list [.record [("name", .text "default")], .record [("name", .text "disabled")]]),
     ("aria", .record [("ariaLabel", .text "Menu")])]

def menuBlueprint : Blueprint where
  outline := menuOutline
  interaction := menuInteraction
  variants := menuVariants.map fun d =>
    ⟨d, .text "", (((d.at? "properties").bind Datum.record?).getD [])⟩
  slots := [⟨.text "label", "label"⟩]
  states := [⟨.text "default", .null⟩, ⟨.text "disabled", .null⟩]
  aria := [("ariaLabel", .text "Menu")]
  rules := []
  category := .text "unknown"

theorem menu_signatures : menuBlueprint.variants.map signature =
    [["Is open", "is-open"], ["Is open", "is-open"], ["children"]] := by
  have hle : ("Is open" : String) ≤ "is-open" := by decide +kernel
  have hgt : ¬ ("is-open" : String) ≤ "Is open" := by decide +kernel
  simp [menuBlueprint, menuVariants, signature, VariantSpec.keys, Datum.at?, Datum.record?,
    List.mergeSort, hle, hgt, List.MergeSort.Internal.splitInTwo]

/-- The second variant has the properties of the first one, so that the others are shown. -/
theorem menu_shown : groups menuBlueprint.outline =
    .ok [menuBlueprint.variants[0], menuBlueprint.variants[2]] := by
  obtain ⟨h₀, h₁, h₂⟩ : signature menuBlueprint.variants[0] = ["Is open", "is-open"] ∧
      signature menuBlueprint.variants[1] = ["Is open", "is-open"] ∧
      signature menuBlueprint.variants[2] = ["children"] := by
    simpa [menuBlueprint, menuVariants] using menu_signatures
  have hitems : menuBlueprint.outline.itemsOf "variants" =
      .ok [menuVariants[0], menuVariants[1], menuVariants[2]] := by rfl
  have hread₀ : VariantSpec.read menuVariants[0] = .ok menuBlueprint.variants[0] := by rfl
  have hread₁ : VariantSpec.read menuVariants[1] = .ok menuBlueprint.variants[1] := by rfl
  have hread₂ : VariantSpec.read menuVariants[2] = .ok menuBlueprint.variants[2] := by rfl
  simp only [groups, hitems, maxVariants, firstOfEach, hread₀, hread₁, hread₂, h₀, h₁, h₂,
    Outcome.ok_bind]
  rfl

/-- The menu has stories for two sets of properties. -/
theorem stories_typed_menu : ∃ text first variants others shown,
    Component.componentName (.text "Menu") = .ok "Menu" ∧
    Blueprint.read menuOutline menuInteraction = .ok menuBlueprint ∧
    Story.text "Menu" menuBlueprint (parameters menuBlueprint true) = .ok text ∧
    Text.splitOn (· == '\n') text.toList = (header "Menu" menuBlueprint (parameters menuBlueprint true) ++
      (first :: (variants ++ others)).flatMap Entry.lines).map String.toList ∧
    (∀ e ∈ first :: (variants ++ others), e.IsTyped (parameters menuBlueprint true)) ∧
    List.Forall₂ (fun v e => e.Shows (parameters menuBlueprint true) v) shown variants ∧
    shown.map signature = [["Is open", "is-open"], ["children"]] := by
  have hname : Component.componentName (.text "Menu") = .ok "Menu" := by rfl
  have hread : Blueprint.read menuOutline menuInteraction = .ok menuBlueprint := by rfl
  have hplain : ∀ v ∈ menuBlueprint.variants, v.IsPlain := by
    have hall : ∀ v ∈ menuBlueprint.variants, v.keys.Nodup ∧
        ∀ row ∈ v.properties, row.2 = .text row.2.shown := by
      simp [menuBlueprint, menuVariants, VariantSpec.keys, Datum.at?, Datum.record?, Datum.shown,
        or_imp, forall_and]
    exact fun v hv => ⟨(hall v hv).1, fun row hrow => ⟨_, (hall v hv).2 row hrow⟩⟩
  have haria : ∀ d, menuBlueprint.ariaOf "ariaLabel" = some d → ∃ label, d = .text label := by
    intro d hd
    cases hd
    exact ⟨_, rfl⟩
  have hrun : (Story.text "Menu" menuBlueprint (parameters menuBlueprint true)).toBool = true := by
    simp only [Story.text, entries, menu_shown, Outcome.ok_bind]
    decide +kernel
  cases htext : Story.text "Menu" menuBlueprint (parameters menuBlueprint true) with
  | error e => rw [htext] at hrun; cases hrun
  | ok text =>
    obtain ⟨first, variants, others, shown, hlines, htyped, -, hshows, -, hsignatures, -⟩ :=
      stories_typed hname hread hplain haria htext
    have htwo : (distinct (menuBlueprint.variants.map signature)).take 10 =
        [["Is open", "is-open"], ["children"]] := by
      rw [menu_signatures]
      decide
    exact ⟨text, first, variants, others, shown, hname, hread, rfl, hlines, htyped, hshows,
      hsignatures.trans htwo⟩

end Maquette.Story
