/-
The elements of markup with their attributes: whether the attributes of each element have distinct
names, which ids are written out, and which ids the elements refer to when they say what labels and
what describes them. Markup carries the ids and the references of its parts one after the other.
-/
import Maquette.Proofs.Markup.Scope

namespace Maquette.Markup

/-! ## Attributes -/

namespace Attribute

/-- The id that an attribute writes out. -/
def literalId? : Attribute → Option String
  | text name value => if name = "id" then some value else none
  | _ => none

/-- The text that an attribute has when nothing else is given for it. -/
def default? : Attribute → Option String
  | text _ value => some value
  | code _ [.ref _, .raw " ?? ", .literal value] => some value
  | _ => none

/-- Whether an attribute says by what elements its own one is labelled or described. -/
def isReference (a : Attribute) : Bool := a.name == "aria-labelledby" || a.name == "aria-describedby"

/-- The ids that an attribute refers to: the words of its default. -/
def references (a : Attribute) : List String :=
  if a.isReference then
    (Text.words (· == ' ') (a.default?.getD "").toList).map String.ofList
  else []

@[simp] theorem name_text (name value : String) : (text name value).name = name := rfl

@[simp] theorem name_flag (name : String) : (flag name).name = name := rfl

@[simp] theorem name_code (name : String) (value : Code) : (code name value).name = name := rfl

@[simp] theorem literalId?_flag (name : String) : (flag name).literalId? = none := rfl

@[simp] theorem literalId?_code (name : String) (value : Code) : (code name value).literalId? = none :=
  rfl

theorem literalId?_ne {a : Attribute} (h : a.name ≠ "id") : a.literalId? = none := by
  cases a with
  | text name value => exact if_neg h
  | _ => rfl

theorem references_ne {a : Attribute} (h : a.name ≠ "aria-labelledby")
    (h' : a.name ≠ "aria-describedby") : a.references = [] := by
  simp [references, isReference, h, h']

/-- A typed attribute has the name that is given for it. -/
theorem name_ofDatum {name : String} {d : Datum} {a : Attribute} (h : ofDatum name d = .ok a) :
    a.name = name := by
  unfold ofDatum at h
  split at h
  · cases h; rfl
  · obtain ⟨_, -, h⟩ := Outcome.bind_ok h
    cases h; rfl
  · obtain ⟨_, -, h⟩ := Outcome.bind_ok h
    cases h; rfl
  · cases h; rfl

end Attribute

/-- The ids that attributes write out. -/
def idsOf (as : List Attribute) : List String := as.filterMap Attribute.literalId?

/-- The ids that attributes refer to. -/
def referencesOf (as : List Attribute) : List String := as.flatMap Attribute.references

@[simp] theorem idsOf_append (as bs : List Attribute) : idsOf (as ++ bs) = idsOf as ++ idsOf bs :=
  List.filterMap_append

@[simp] theorem referencesOf_append (as bs : List Attribute) :
    referencesOf (as ++ bs) = referencesOf as ++ referencesOf bs := List.flatMap_append

/-! ## Names of attributes -/

/-- Attributes with distinct names, all of which are among the given ones. -/
structure Named (names : List String) (as : List Attribute) : Prop where
  distinct : (as.map Attribute.name).Nodup
  among : ∀ a ∈ as, a.name ∈ names

namespace Named

variable {names names' : List String} {as bs : List Attribute}

theorem nil : Named names [] := ⟨List.nodup_nil, by simp⟩

/-- Attributes that have exactly the given names. -/
theorem of_eq (h : as.map Attribute.name = names) (hn : names.Nodup) : Named names as :=
  ⟨h ▸ hn, fun _ ha => h ▸ List.mem_map_of_mem ha⟩

theorem mono (h : Named names as) (hs : names ⊆ names') : Named names' as :=
  ⟨h.distinct, fun a ha => hs (h.among a ha)⟩

theorem append (h : Named names as) (h' : Named names' bs) (hd : ∀ name ∈ names, name ∉ names') :
    Named (names ++ names') (as ++ bs) := by
  refine ⟨?_, fun a ha => ?_⟩
  · rw [List.map_append, List.nodup_append]
    refine ⟨h.distinct, h'.distinct, ?_⟩
    rintro _ hma _ hmb rfl
    obtain ⟨a, ha, rfl⟩ := List.mem_map.1 hma
    obtain ⟨b, hb, he⟩ := List.mem_map.1 hmb
    exact hd _ (h.among a ha) (he ▸ h'.among b hb)
  · rcases List.mem_append.1 ha with ha | ha
    · exact List.mem_append_left _ (h.among a ha)
    · exact List.mem_append_right _ (h'.among a ha)

/-- Attributes that are there under a condition. -/
theorem ite {c : Prop} [Decidable c] (h : Named names as) : Named names (if c then as else []) := by
  split
  · exact h
  · exact nil

end Named

/-- Attributes with distinct names among the given ones, which write out `ids` and refer to `refs`. -/
structure Bears (names : List String) (as : List Attribute) (ids refs : List String) : Prop
    extends Named names as where
  ids_eq : idsOf as = ids
  references_eq : referencesOf as = refs

namespace Bears

variable {names names' : List String} {as bs : List Attribute} {ids ids' refs refs' : List String}

theorem nil : Bears names [] [] [] := ⟨.nil, rfl, rfl⟩

/-- Attributes of other names write out no ids and refer to none. -/
theorem of_named (h : Named names as) (hid : "id" ∉ names) (hl : "aria-labelledby" ∉ names)
    (hd : "aria-describedby" ∉ names) : Bears names as [] [] := by
  refine ⟨h, List.filterMap_eq_nil_iff.2 fun a ha => ?_, List.flatMap_eq_nil_iff.2 fun a ha => ?_⟩
  · exact Attribute.literalId?_ne fun he => hid (he ▸ h.among a ha)
  · exact Attribute.references_ne (fun he => hl (he ▸ h.among a ha))
      fun he => hd (he ▸ h.among a ha)

/-- Attributes that have exactly the given names, none of which is about ids. -/
theorem plain (he : as.map Attribute.name = names) (h : names.Nodup ∧ "id" ∉ names ∧
    "aria-labelledby" ∉ names ∧ "aria-describedby" ∉ names) : Bears names as [] [] :=
  of_named (.of_eq he h.1) h.2.1 h.2.2.1 h.2.2.2

theorem append (h : Bears names as ids refs) (h' : Bears names' bs ids' refs')
    (hd : ∀ name ∈ names, name ∉ names') :
    Bears (names ++ names') (as ++ bs) (ids ++ ids') (refs ++ refs') :=
  ⟨h.toNamed.append h'.toNamed hd, by rw [idsOf_append, h.ids_eq, h'.ids_eq],
    by rw [referencesOf_append, h.references_eq, h'.references_eq]⟩

theorem congr (h : Bears names as ids refs) (hi : ids = ids') (hr : refs = refs') :
    Bears names as ids' refs' := hi ▸ hr ▸ h

end Bears

/-! ## Elements -/

mutual

/-- The attributes of the elements, each element before those inside of it. -/
def elements : Markup → List (List Attribute)
  | .text _ => []
  | .expr _ => []
  | .element _ _ attributes children => attributes :: allElements children
  | .guarded _ child => elements child

def allElements : List Markup → List (List Attribute)
  | [] => []
  | m :: rest => elements m ++ allElements rest

end

theorem allElements_append (ms ns : List Markup) :
    allElements (ms ++ ns) = allElements ms ++ allElements ns := by
  induction ms with
  | nil => rfl
  | cons m ms ih => rw [List.cons_append, allElements, allElements, ih, List.append_assoc]

mutual

/-- The names that the attributes of an element use are names that the markup uses. -/
theorem mem_names {as : List Attribute} {a : Attribute} {name : String} (m : Markup)
    (hm : as ∈ m.elements) (ha : a ∈ as) (hn : name ∈ a.toCode.refs) : name ∈ m.names := by
  match m with
  | .text _ => cases hm
  | .expr _ => cases hm
  | .element layout tag attributes children =>
    rw [elements] at hm
    rw [names]
    rcases List.mem_cons.1 hm with rfl | hm
    · exact List.mem_append_left _ (List.mem_append_right _ (List.mem_flatMap.2 ⟨a, ha, hn⟩))
    · have hin := mem_allNames_of children hm ha hn
      cases children with
      | nil => cases hm
      | cons m ms =>
        rw [if_neg (by simp)]
        exact List.mem_append_right _ (List.mem_append_left _ hin)
  | .guarded _ child =>
    rw [elements] at hm
    rw [names]
    exact List.mem_cons_of_mem _ (mem_names child hm ha hn)

theorem mem_allNames_of {as : List Attribute} {a : Attribute} {name : String} (ms : List Markup)
    (hm : as ∈ allElements ms) (ha : a ∈ as) (hn : name ∈ a.toCode.refs) : name ∈ allNames ms := by
  match ms with
  | [] => cases hm
  | m :: rest =>
    rw [allElements] at hm
    rw [allNames]
    rcases List.mem_append.1 hm with hm | hm
    · exact List.mem_append_left _ (mem_names m hm ha hn)
    · exact List.mem_append_right _ (mem_allNames_of rest hm ha hn)

end

/-- The ids that are written out in markup. -/
def ids (m : Markup) : List String := m.elements.flatMap idsOf

/-- The ids that the elements of markup refer to. -/
def references (m : Markup) : List String := m.elements.flatMap referencesOf

/-- `Carries ms ids refs`: the attributes of each element have distinct names, the elements write out
`ids` and refer to `refs`. -/
structure Carries (ms : List Markup) (ids refs : List String) : Prop where
  distinct : ∀ as ∈ allElements ms, (as.map Attribute.name).Nodup
  ids_eq : (allElements ms).flatMap idsOf = ids
  references_eq : (allElements ms).flatMap referencesOf = refs

namespace Carries

variable {m : Markup} {ms ns : List Markup} {ids ids' refs refs' : List String}

theorem nil : Carries [] [] [] := ⟨by simp [allElements], rfl, rfl⟩

theorem cons (h : Carries [m] ids refs) (h' : Carries ms ids' refs') :
    Carries (m :: ms) (ids ++ ids') (refs ++ refs') := by
  obtain ⟨hd, hi, hr⟩ := h
  simp only [allElements, List.append_nil] at hd hi hr
  refine ⟨List.forall_mem_append.2 ⟨hd, h'.distinct⟩, ?_, ?_⟩
  · rw [allElements, List.flatMap_append, hi, h'.ids_eq]
  · rw [allElements, List.flatMap_append, hr, h'.references_eq]

theorem append (h : Carries ms ids refs) (h' : Carries ns ids' refs') :
    Carries (ms ++ ns) (ids ++ ids') (refs ++ refs') := by
  refine ⟨?_, ?_, ?_⟩ <;> rw [allElements_append]
  · exact List.forall_mem_append.2 ⟨h.distinct, h'.distinct⟩
  · rw [List.flatMap_append, h.ids_eq, h'.ids_eq]
  · rw [List.flatMap_append, h.references_eq, h'.references_eq]

theorem text (s : String) : Carries [.text s] [] [] := ⟨by simp [allElements, elements], rfl, rfl⟩

theorem expr (c : Code) : Carries [.expr c] [] [] := ⟨by simp [allElements, elements], rfl, rfl⟩

theorem guarded (name : String) (h : Carries [m] ids refs) : Carries [.guarded name m] ids refs := by
  obtain ⟨hd, hi, hr⟩ := h
  rw [allElements] at hd hi hr
  exact ⟨by rwa [allElements, elements], by rwa [allElements, elements],
    by rwa [allElements, elements]⟩

/-- An element carries what its attributes bear and what is carried inside of it. -/
theorem element {names : List String} {as : List Attribute} (layout : Layout) (tag : Tag)
    (ha : Bears names as ids refs) (h : Carries ms ids' refs') :
    Carries [.element layout tag as ms] (ids ++ ids') (refs ++ refs') := by
  refine ⟨?_, ?_, ?_⟩ <;> rw [allElements, elements, allElements, List.append_nil]
  · exact List.forall_mem_cons.2 ⟨ha.distinct, h.distinct⟩
  · rw [List.flatMap_cons, ha.ids_eq, h.ids_eq]
  · rw [List.flatMap_cons, ha.references_eq, h.references_eq]

/-- An element without attributes. -/
theorem wrapped (layout : Layout) (tag : Tag) (h : Carries ms ids refs) :
    Carries [.element layout tag [] ms] ids refs := by
  have hnone : Bears [] [] [] [] := .nil
  exact element layout tag hnone h

theorem congr (h : Carries ms ids refs) (hi : ids = ids') (hr : refs = refs') :
    Carries ms ids' refs' := hi ▸ hr ▸ h

/-- What a single piece of markup carries. -/
theorem single (h : Carries [m] ids refs) :
    (∀ as ∈ m.elements, (as.map Attribute.name).Nodup) ∧ m.ids = ids ∧ m.references = refs := by
  obtain ⟨hd, hi, hr⟩ := h
  simp only [allElements, List.append_nil] at hd hi hr
  exact ⟨hd, hi, hr⟩

/-- Markup that is made piece by piece. -/
theorem mapM {α : Type} {f : α → Outcome Markup} {k l : α → List String} {xs : List α}
    (hf : ∀ x ∈ xs, ∀ m, f x = .ok m → Carries [m] (k x) (l x)) (h : xs.mapM f = .ok ms) :
    Carries ms (xs.flatMap k) (xs.flatMap l) := by
  induction xs generalizing ms with
  | nil => cases h; exact nil
  | cons x xs ih =>
    obtain ⟨hx, hxs⟩ := List.forall_mem_cons.1 hf
    rw [List.mapM_cons] at h
    obtain ⟨m, hm, h⟩ := Outcome.bind_ok h
    obtain ⟨ms, hms, h⟩ := Outcome.bind_ok h
    cases h
    exact (hx m hm).cons (ih hxs hms)

end Carries

end Maquette.Markup
