/-
What can be read from a valid outline. Its tree is a tree of nodes however deep it goes, since it is
checked one step deeper than it is; its variants and slots are lists of records, and so are the states
that its variants are mapped to.
-/
import Maquette.Proofs.Outline.Shape

namespace Maquette.Outline

open Check

/-! ## Depth -/

theorem depth_le_fields {fields : List (String × Datum)} {key : String} {v : Datum}
    (h : fields.lookup key = some v) : v.depth ≤ Datum.fieldsDepth fields := by
  obtain ⟨before, after, rfl, -⟩ := List.lookup_eq_some_iff.1 h
  clear h
  induction before with
  | nil => simp [Datum.fieldsDepth]
  | cons row before ih =>
    rw [List.cons_append, Datum.fieldsDepth]
    omega

theorem depth_le_items {items : List Datum} {d : Datum} (h : d ∈ items) :
    d.depth ≤ Datum.itemsDepth items := by
  induction items with
  | nil => cases h
  | cons i items ih =>
    rw [Datum.itemsDepth]
    rcases List.mem_cons.1 h with rfl | h
    · omega
    · have := ih h
      omega

/-! ## The tree -/

/-- Everything that a check goes deep enough for is a tree whose nodes pass as nodes. -/
theorem tree_of_node {limit : Nat} : ∀ {t : Datum}, t.depth ≤ limit → Schema.node (limit + 1) t = [] →
    t.isTree = true ∧ ∀ depth, ∀ row ∈ t.preorder depth, ∃ k, Schema.node (k + 1) row.1 = [] := by
  induction limit with
  | zero =>
    -- a node is a record, and no record is that shallow
    intro t hdepth h
    obtain ⟨given, rfl⟩ := record_of_model h
    simp [Datum.depth] at hdepth
  | succ limit ih =>
    intro t hdepth h
    obtain ⟨given, rfl⟩ := record_of_model h
    rw [Datum.depth] at hdepth
    cases hchildren : given.lookup "children" with
    | none =>
      refine ⟨by rw [Datum.isTree, Datum.isTreeFields_lookup, hchildren]; rfl, fun depth row hrow => ?_⟩
      rw [Datum.preorder, Datum.preorderFields_lookup, hchildren] at hrow
      rw [List.mem_singleton.1 hrow]
      exact ⟨limit + 1, h⟩
    | some v =>
      have hlist : listOf (Schema.node (limit + 1)) v = [] := field_passes h rfl hchildren
      obtain ⟨items, rfl⟩ : ∃ items, v = .list items := by
        cases v <;> first | exact ⟨_, rfl⟩ | cases hlist
      have hitems : ∀ d ∈ items, d.isTree = true ∧
          ∀ depth, ∀ row ∈ d.preorder depth, ∃ k, Schema.node (k + 1) row.1 = [] := by
        intro d hd
        refine ih ?_ (listOf_eq_nil.1 hlist d hd)
        have hfields := depth_le_fields hchildren
        have hitem := depth_le_items hd
        rw [Datum.depth] at hfields
        omega
      refine ⟨?_, fun depth row hrow => ?_⟩
      · rw [Datum.isTree, Datum.isTreeFields_lookup, hchildren]
        exact Datum.isTreeItems_iff.2 fun d hd => (hitems d hd).1
      · rw [Datum.preorder, Datum.preorderFields_lookup, hchildren] at hrow
        rcases List.mem_cons.1 hrow with rfl | hrow
        · exact ⟨limit + 1, h⟩
        · obtain ⟨d, hd, hrow⟩ := Datum.mem_preorderItems.1 hrow
          exact (hitems d hd).2 (depth + 1) row hrow

/-! ## The whole -/

theorem validate_ok {kind : DocumentKind} {c : Check} {d : Datum} :
    Schema.validate kind c d = .ok () ↔ c d = [] := by
  unfold Schema.validate
  cases c d <;> simp

/-- What a valid outline holds. -/
structure IsValid (d : Datum) : Prop where
  record : d.isRecord = true
  tree : ∃ t, d.at? "tree" = some t ∧ t.isRecord = true ∧ t.isTruthy = true ∧ t.isTree = true ∧
    ∀ row ∈ t.preorder 0, ∃ k, Schema.node (k + 1) row.1 = []
  title : ∃ info s, d.at? "meta" = some info ∧ info.isRecord = true ∧ info.at? "name" = some (.text s)
  variants : d.Part "variants" fun v => Schema.variants v = []
  slots : d.Part "slots" fun v => Schema.slots v = []
  states : d.Part "stateMapping" fun v => Schema.stateMapping v = []

section Model

variable {name key : String} {fields : List Field} {given : List (String × Datum)}

/-- A field of a record that passes a model passes the check of its name. -/
theorem part_of_model (hplain : Plain fields) (h : model name fields (.record given) = []) {c : Check}
    (hf : (fields.find? (·.key == key)).map Field.check = some c) :
    (Datum.record given).Part key fun v => c v = [] := by
  obtain ⟨f, hfind, rfl⟩ := Option.map_eq_some_iff.1 hf
  have hkey : f.key = key := by simpa using List.find?_some hfind
  intro v hv
  exact ((model_eq_nil hplain).1 h f (List.mem_of_find?_eq_some hfind)).2 v (by rw [hkey]; exact hv)

/-- A field that a model asks for is in every record that passes it. -/
theorem needed_of_model (key : String) (hplain : Plain fields)
    (h : model name fields (.record given) = [])
    (hf : (fields.find? (·.key == key)).map Field.required = some true) :
    ∃ v, (Datum.record given).at? key = some v := by
  obtain ⟨f, hfind, hrequired⟩ := Option.map_eq_some_iff.1 hf
  have hkey : f.key = key := by simpa using List.find?_some hfind
  have hthere := ((model_eq_nil hplain).1 h f (List.mem_of_find?_eq_some hfind)).1 hrequired
  rw [hkey] at hthere
  exact Option.ne_none_iff_exists'.1 hthere

end Model

theorem isText_of_nonEmpty {v : Datum} (h : nonEmptyText v = []) : ∃ s, v = .text s := by
  cases v <;> first | exact ⟨_, rfl⟩ | cases h

theorem origin_plain : Plain
    [need "name" nonEmptyText, may "figmaUrl" text, need "nodeId" text, need "type" text,
     need "componentType" (oneOf ["component-set", "component", "frame"]),
     need "extractedAt" text, may "sourceFileKey" text] :=
  ⟨by simp [need, may], by simp [need, may]⟩

theorem valid_of_validate {d : Datum} (h : Schema.validateOutline d = .ok ()) : IsValid d := by
  have h := validate_ok.1 h
  unfold Schema.outline at h
  obtain ⟨given, rfl⟩ := record_of_model h
  have hplain : ∀ tree, Plain
      [need "version" text, need "meta" Schema.origin, need "tree" tree,
       may "variants" Schema.variants, may "slots" Schema.slots,
       need "layoutIntent" Schema.layoutIntent, may "visualHints" Schema.visualHints,
       may "stateMapping" Schema.stateMapping] :=
    fun _ => ⟨by simp [need, may], by simp [need, may]⟩
  have hpart {key : String} {c : Check} := @part_of_model _ key _ _ (hplain _) h c
  obtain ⟨t, ht⟩ := needed_of_model "tree" (hplain _) h rfl
  obtain ⟨info, hinfo⟩ := needed_of_model "meta" (hplain _) h rfl
  constructor
  case record => rfl
  case variants => exact hpart rfl
  case slots => exact hpart rfl
  case states => exact hpart rfl
  case tree =>
    have hnode : Schema.node ((Datum.record given).depth + 1) t = [] := hpart rfl t ht
    have hdepth : t.depth ≤ (Datum.record given).depth :=
      (depth_le_fields ht).trans (by rw [Datum.depth]; omega)
    obtain ⟨htree, hnodes⟩ := tree_of_node hdepth hnode
    obtain ⟨inner, rfl⟩ := record_of_model hnode
    -- a node has an id, so it holds something
    obtain ⟨id, hid⟩ := needed_of_model "id" (nodeFields_plain _ _) hnode rfl
    refine ⟨_, ht, rfl, ?_, htree, hnodes 0⟩
    cases inner with
    | nil => cases hid
    | cons row inner => rfl
  case title =>
    have horigin : Schema.origin info = [] := hpart rfl info hinfo
    obtain ⟨inner, rfl⟩ := record_of_model horigin
    obtain ⟨v, hv⟩ := needed_of_model "name" origin_plain horigin rfl
    obtain ⟨s, rfl⟩ := isText_of_nonEmpty (part_of_model origin_plain horigin rfl v hv)
    exact ⟨_, s, hinfo, rfl, hv⟩

/-! ## Beside the tree -/

/-- The items of a list of records that pass a model. -/
theorem items_of_list {c : Check} {v : Datum} (h : listOf c v = []) :
    ∃ items, v = .list items ∧ ∀ i ∈ items, c i = [] := by
  cases v with
  | list items => exact ⟨items, rfl, listOf_eq_nil.1 h⟩
  | _ => cases h

theorem slot_plain : Plain
    [need "name" nonEmptyText,
     need "type" (oneOf ["text", "icon", "content", "action", "prefix", "suffix"]),
     may "required" truth, maybe "nodeId" text] :=
  ⟨by simp [need, may, maybe], by simp [need, may, maybe]⟩

theorem stateEntry_plain : Plain
    [need "figmaVariant" text, need "semanticState" (oneOf Schema.stateNames)] :=
  ⟨by simp [need], by simp [need]⟩

section Lists

variable {d : Datum} (h : IsValid d)
include h

/-- The slots of a valid outline have names. -/
theorem slots_valid : ∃ items, d.fieldOr "slots" (.list []) = .ok (.list items) ∧
    ∀ i ∈ items, ∃ s, i.at? "name" = some (.text s) := by
  rw [Datum.fieldOr_eq h.record]
  cases hv : d.at? "slots" with
  | none => exact ⟨[], rfl, by simp⟩
  | some v =>
    have hslots : listOf Schema.slot v = [] := by
      have hpass : followedBy (listOf Schema.slot) Schema.distinctSlots v = [] := h.slots v hv
      unfold followedBy at hpass
      cases hlist : listOf Schema.slot v with
      | nil => rfl
      | cons issue issues => rw [hlist] at hpass; cases hpass
    obtain ⟨items, rfl, hitems⟩ := items_of_list hslots
    refine ⟨items, rfl, fun i hi => ?_⟩
    obtain ⟨given, rfl⟩ := record_of_model (hitems i hi)
    obtain ⟨v, hv⟩ := needed_of_model "name" slot_plain (hitems _ hi) rfl
    obtain ⟨s, rfl⟩ := isText_of_nonEmpty (part_of_model slot_plain (hitems _ hi) rfl v hv)
    exact ⟨s, hv⟩

/-- The states that the variants of a valid outline are mapped to have names of states. -/
theorem stateMapping_valid : ∃ entries, d.itemsOf "stateMapping" = .ok entries ∧
    (∀ v, d.at? "stateMapping" = some v → v = .list entries) ∧
    ∀ e ∈ entries, e.isRecord = true ∧
      ∃ s ∈ Schema.stateNames, e.at? "semanticState" = some (.text s) := by
  have hget := Datum.get_eq h.record "stateMapping"
  cases hv : d.at? "stateMapping" with
  | none =>
    refine ⟨[], ?_, by simp, by simp⟩
    rw [Datum.itemsOf, hget, hv]
    rfl
  | some v =>
    obtain ⟨entries, rfl, hentries⟩ := items_of_list (h.states v hv)
    refine ⟨entries, Datum.itemsOf_list (by rw [hget, hv]; rfl), by simp, fun e he => ?_⟩
    obtain ⟨given, rfl⟩ := record_of_model (hentries e he)
    obtain ⟨v, hv⟩ := needed_of_model "semanticState" stateEntry_plain (hentries _ he) rfl
    have hone : oneOf Schema.stateNames v = [] :=
      part_of_model stateEntry_plain (hentries _ he) rfl v hv
    unfold oneOf at hone
    split at hone
    · rename_i hmem
      obtain ⟨s, hs, hthe⟩ := List.any_eq_true.1 hmem
      rw [Datum.isThe_iff.1 hthe] at hv
      exact ⟨rfl, s, hs, hv⟩
    · cases hone

end Lists

end Maquette.Outline
