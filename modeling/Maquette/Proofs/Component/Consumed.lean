/-
The parameters that a component makes something of. What a component declares comes from its documents
alone, before its template is chosen; what it takes apart and uses depends on the template. For the
documents that are built from an outline both agree on every parameter but one: whether the component is
disabled is declared for every archetype, and list boxes and dialogs do not look at it.
-/
import Maquette.Proofs.Component.Outlined
import Maquette.Proofs.Component.TopLevel
import Maquette.Proofs.Component.Unused

namespace Maquette.Component

open Markup (Attribute Code Line)

/-! ## What parameters stand for -/

section Parameters

variable {b : Blueprint} {handlesKeys : Bool} {q : Parameter}

/-- What the parameters of a blueprint are there for. -/
theorem parameter_cases (h : q ∈ parameters b handlesKeys) :
    (q.kind = .variant ∨ q.kind = .slot) ∧ q.name ∉ reservedNames ∨ q = disabledParameter ∨
      (q.kind = .aria ∧ q.source = .text q.name ∧ q.name ∈ ariaAttributes.map Prod.fst ∧
        ∃ value, b.ariaOf q.name = some value) ∨
      (q.kind = .event ∧ q.name ∈ eventTypes.map Prod.fst ∧
        ∃ rule ∈ b.rules, rule.trigger = .text q.name) ∨
      (handlesKeys = true ∧ q = keyParameter) ∨ q ∈ closingParameters := by
  rw [parameters_eq, List.mem_append] at h
  rcases h with hown | h
  · have hgiven : q.name ∈ givenNames b := by
      rw [← ownParameters_names]
      exact List.mem_map_of_mem hown
    exact .inl ⟨(ownParameters_key hown).2, ((Naming.uniques_spec _ _).2.2 _ hgiven).1⟩
  unfold fixedParameters at h
  simp only [List.mem_append] at h
  rcases h with (((h | h) | h) | h) | h
  · split at h
    · exact .inr (.inl (List.mem_singleton.1 h))
    · cases h
  · obtain ⟨row, hrow, rfl⟩ := List.mem_map.1 h
    obtain ⟨hmem, hgiven⟩ := List.mem_filter.1 hrow
    exact .inr (.inr (.inl ⟨rfl, rfl, List.mem_map_of_mem hmem, Option.isSome_iff_exists.1 hgiven⟩))
  · obtain ⟨row, hrow, rfl⟩ := List.mem_map.1 h
    obtain ⟨hmem, hrule⟩ := List.mem_filter.1 hrow
    obtain ⟨rule, hrule, hthe⟩ := List.any_eq_true.1 hrule
    exact .inr (.inr (.inr (.inl ⟨rfl, List.mem_map_of_mem hmem, rule, hrule,
      Datum.isThe_iff.1 hthe⟩)))
  · split at h
    · rename_i hkeys
      exact .inr (.inr (.inr (.inr (.inl ⟨hkeys, List.mem_singleton.1 h⟩))))
    · cases h
  · exact .inr (.inr (.inr (.inr (.inr h))))

/-- An accessibility parameter is found by what it stands for. -/
theorem parameter?_aria (h : q ∈ parameters b handlesKeys) (hk : q.kind = .aria)
    (hs : q.source = .text q.name) :
    ∃ r, parameter? (parameters b handlesKeys) .aria q.name = some r ∧ r.name = q.name := by
  have hfound : ∃ r, parameter? (parameters b handlesKeys) .aria q.name = some r := by
    rw [← Option.isSome_iff_exists, parameter?, List.find?_isSome]
    exact ⟨q, h, by simp [hk, hs, Datum.isThe]⟩
  obtain ⟨r, hr⟩ := hfound
  refine ⟨r, hr, ?_⟩
  have hthe := List.find?_some hr
  simp only [Bool.and_eq_true, decide_eq_true_eq] at hthe
  obtain ⟨hkind, hsource⟩ := hthe
  rcases parameter_cases (List.mem_of_find?_eq_some hr) with ⟨hown, -⟩ | rfl | ⟨-, hname, -⟩ | ⟨he, -⟩ |
    ⟨-, rfl⟩ | hclosing
  · rw [hkind] at hown; rcases hown with hown | hown <;> cases hown
  · cases hkind
  · exact Datum.text.inj (hname.symm.trans (Datum.isThe_iff.1 hsource))
  · rw [hkind] at he; cases he
  · cases hkind
  · have hbase : ∀ r ∈ closingParameters, r.kind = .base := by
      simp [closingParameters, fixedParameter]
    rw [hbase r hclosing] at hkind; cases hkind

end Parameters

/-! ## What attributes mention -/

/-- The attribute of an entry mentions the parameter that can replace the entry. -/
theorem ariaAttribute_mentions {ps : List Parameter} {opens withRole : Bool} {key : String}
    {value : Datum} {o : Option Attribute} {q : Parameter}
    (h : ariaAttribute? ps opens withRole key value = .ok o) (hv : value.isTruthy = true)
    (hk : key ∈ ariaAttributes.map Prod.fst) (hq : parameter? ps .aria key = some q) :
    ∃ a, o = some a ∧ q.name ∈ a.toCode.refs := by
  have hkeys : ∀ key ∈ ariaAttributes.map Prod.fst, key ∈ ariaKeys ∧ key ≠ "role" := by decide
  obtain ⟨hknown, hrole⟩ := hkeys key hk
  have hnull : value.isNull = false := by
    cases value with
    | null => cases hv
    | _ => rfl
  obtain ⟨q', piece, hq', -, rfl⟩ | ⟨-, hnone, -⟩ | ⟨a, hnone, -⟩ :=
    ariaAttribute_cases hnull hknown hrole h
  · obtain rfl := Option.some.inj (hq.symm.trans hq')
    exact ⟨_, rfl, by simp⟩
  · cases hq.symm.trans hnone
  · cases hq.symm.trans hnone

/-- What is a text stays when repetitions are left out. -/
theorem mem_distinct_text {t : String} : ∀ {l : List Datum}, .text t ∈ l → .text t ∈ distinct l
  | d :: l, h => by
    rw [distinct]
    by_cases hd : d = .text t
    · exact hd ▸ List.mem_cons_self
    · refine List.mem_cons_of_mem _ (List.mem_filter.2 ⟨mem_distinct_text ?_, ?_⟩)
      · exact (List.mem_cons.1 h).resolve_left (Ne.symm hd)
      · rw [Bool.not_eq_true', Bool.eq_false_iff]
        exact fun hsame => hd (Datum.text_same.1 hsame)

section Mentions

variable {p : Plan} {exclude : List String} {hs : List Handler} {name : String}

/-- The handler of an event that can be answered from outside mentions the answer. -/
theorem handler_mentions {hd : Handler} (hf : hd.isForwarded = true) :
    ∃ a, hd.attribute? = some a ∧ hd.trigger ∈ a.toCode.refs := by
  unfold Handler.attribute?
  by_cases hempty : hd.statements.isEmpty = true
  · rw [if_pos hempty, if_pos hf]
    exact ⟨_, rfl, by simp⟩
  · rw [if_neg hempty]
    have hcode : [.ref hd.trigger, .raw "?.(event);"] ∈ hd.codes := by
      simp [Handler.codes, hf]
    have hmention : hd.trigger ∈ (Code.between " " hd.codes).refs :=
      Code.mem_refs_between hcode (by simp)
    exact ⟨_, rfl, by simp [hmention]⟩

theorem handlers_mention (h : p.handlersBut exclude = .ok hs)
    (hn : name ∈ eventTypes.map Prod.fst) (hp : p.has name = true) (hx : name ∉ exclude)
    (hr : ∃ rule ∈ p.blueprint.rules, rule.trigger = .text name) :
    ∃ a ∈ handlerAttributes hs, name ∈ a.toCode.refs := by
  obtain ⟨rule, hrule, htrigger⟩ := hr
  have hknown : ∀ name ∈ eventTypes.map Prod.fst,
      (Datum.text name).isTruthy = true ∧ (eventTypes.lookup name).isSome = true := by decide
  obtain ⟨htruthy, hlookup⟩ := hknown name hn
  have hmem : Datum.text name ∈ triggers p.blueprint.rules exclude := by
    refine mem_distinct_text (List.mem_filter.2 ⟨htrigger ▸ List.mem_map_of_mem hrule, ?_⟩)
    have hnone : (Datum.text name).isOneOf exclude = false := by
      rw [Datum.isOneOf, List.any_eq_false]
      rintro other hother hthe
      exact hx (Datum.text.inj (Datum.isThe_iff.1 hthe) ▸ hother)
    rw [htruthy, hnone]
    rfl
  obtain ⟨hd, hhd, hmade⟩ := Outcome.mapM_mem h _ hmem
  unfold handler at hmade
  obtain ⟨statements, -, hmade⟩ := Outcome.bind_ok hmade
  cases hmade
  have hforwarded : isForwarded p.parameters name = true := Bool.and_eq_true_iff.2 ⟨hlookup, hp⟩
  obtain ⟨a, ha, hmention⟩ := handler_mentions
    (show Handler.isForwarded ⟨name, distinct (statements.filterMap id), _⟩ = true from hforwarded)
  exact ⟨a, List.mem_filterMap.2 ⟨_, hhd, ha⟩, hmention⟩

end Mentions

/-! ## What templates write -/

namespace Plan

/-- The events that a template answers to in a way of its own. -/
def excluded (p : Plan) : List String :=
  match p.template with
  | .dialog => ["onOpenChange"]
  | _ => []

/-- How a template tells that the component is disabled. -/
def tellsDisabled (p : Plan) : List Attribute :=
  match p.template with
  | .button | .field => p.disabledAttribute
  | .plain => p.disabledAria
  | _ => []

/-- An element of a markup has the accessibility attributes of a plan, its handlers but those of
`exclude`, and `more`. -/
def HasOuter (p : Plan) (exclude : List String) (more : List Attribute) (m : Markup) : Prop :=
  ∃ as ∈ m.elements, ∃ opens withRole aria hs, p.aria opens withRole = .ok aria ∧
    p.handlersBut exclude = .ok hs ∧ aria ⊆ as ∧ handlerAttributes hs ⊆ as ∧ more ⊆ as

section Outer

variable {p : Plan} {b : Body}

theorem root_ok {opens withRole : Bool} {as : List Attribute}
    (h : p.rootAttributes opens withRole = .ok as) :
    ∃ aria, p.aria opens withRole = .ok aria ∧ aria ⊆ as := by
  obtain ⟨aria, haria, h⟩ := Outcome.bind_ok h
  cases h
  exact ⟨aria, haria, List.subset_append_right _ _⟩

/-- The attributes of a root have the accessibility attributes among them. -/
theorem HasOuter.of_root {exclude : List String} {more : List Attribute} {m : Markup}
    {opens withRole : Bool} {root l : List Attribute} {hs : List Handler}
    (hroot : p.rootAttributes opens withRole = .ok root) (hhs : p.handlersBut exclude = .ok hs)
    (hl : l ∈ m.elements) (hin : root ⊆ l) (hhandlers : handlerAttributes hs ⊆ l)
    (hmore : more ⊆ l) : p.HasOuter exclude more m := by
  obtain ⟨aria, haria, hsub⟩ := root_ok hroot
  exact ⟨l, hl, _, _, aria, hs, haria, hhs, fun a ha => hin (hsub ha), hhandlers, hmore⟩

theorem button_outer (h : p.button = .ok b) : p.HasOuter [] p.disabledAttribute b.markup := by
  unfold button at h
  obtain ⟨root, hroot, h⟩ := Outcome.bind_ok h
  obtain ⟨hs, hhs, h⟩ := Outcome.bind_ok h
  obtain ⟨content, -, h⟩ := Outcome.bind_ok h
  cases h
  refine .of_root hroot hhs (by rw [Markup.elements]; exact List.mem_cons_self) ?_ ?_ ?_ <;>
    intro a ha <;> simp [ha]

theorem field_outer (h : p.field = .ok b) : p.HasOuter [] p.disabledAttribute b.markup := by
  unfold field at h
  obtain ⟨named, -, h⟩ := Outcome.bind_ok h
  obtain ⟨marked, -, h⟩ := Outcome.bind_ok h
  obtain ⟨front, -, h⟩ := Outcome.bind_ok h
  obtain ⟨aria, haria, h⟩ := Outcome.bind_ok h
  obtain ⟨hs, hhs, h⟩ := Outcome.bind_ok h
  obtain ⟨back, -, h⟩ := Outcome.bind_ok h
  cases h
  refine ⟨[p.partClass "field", .code "id" [.ref "inputId"]] ++ aria ++ p.disabledAttribute ++
    handlerAttributes hs, ?_, _, _, aria, hs, haria, hhs, fun a ha => by simp [ha],
    List.subset_append_right _ _, fun a ha => by simp [ha]⟩
  simp [Markup.elements, Markup.allElements, Markup.allElements_append]

theorem container_outer (h : p.container = .ok b) : p.HasOuter [] p.disabledAria b.markup := by
  unfold container at h
  obtain ⟨root, hroot, h⟩ := Outcome.bind_ok h
  obtain ⟨hs, hhs, h⟩ := Outcome.bind_ok h
  obtain ⟨content, -, h⟩ := Outcome.bind_ok h
  cases h
  refine .of_root hroot hhs (by rw [Markup.elements]; exact List.mem_cons_self) ?_ ?_ ?_ <;>
    intro a ha <;> simp [ha]

/-- A list box has an element with all the attributes of its root and its handlers. -/
theorem listBoxMarkup_outer {root : List Attribute} {hs : List Handler} {markup : List Markup → Markup}
    (h : p.listBoxMarkup root hs = .ok markup) (content : List Markup) :
    ∃ as ∈ (markup content).elements, root ⊆ as ∧ handlerAttributes hs ⊆ as := by
  unfold listBoxMarkup at h
  split at h
  · cases h
    exact ⟨_, by rw [bareListBox, Markup.elements]; exact List.mem_cons_self,
      fun a ha => by simp [ha], fun a ha => by simp [ha]⟩
  · split at h
    · cases h
      refine ⟨root ++ handlerAttributes hs, ?_, List.subset_append_left _ _,
        List.subset_append_right _ _⟩
      simp [selectListBox, blockOf, Markup.elements, Markup.allElements]
    · obtain ⟨label, -, h⟩ := Outcome.bind_ok h
      cases h
      refine ⟨[.text "type" "button"] ++ root ++ handlerAttributes hs, ?_, fun a ha => by simp [ha],
        List.subset_append_right _ _⟩
      simp [popupListBox, blockOf, Markup.elements, Markup.allElements]

theorem listBox_outer (h : p.listBox = .ok b) : p.HasOuter [] [] b.markup := by
  unfold listBox at h
  obtain ⟨root, hroot, h⟩ := Outcome.bind_ok h
  obtain ⟨hs, hhs, h⟩ := Outcome.bind_ok h
  obtain ⟨markup, hmarkup, h⟩ := Outcome.bind_ok h
  obtain ⟨content, -, h⟩ := Outcome.bind_ok h
  cases h
  obtain ⟨as, has, hin, hhandlers⟩ := listBoxMarkup_outer hmarkup content.markup
  exact .of_root hroot hhs has hin hhandlers (List.nil_subset _)

/-- A dialog has an element with all the attributes of its root and its handlers. -/
theorem dialogMarkup_outer {label : Markup} {root : List Attribute} {hs : List Handler}
    {markup : List Markup → Markup} (h : p.dialogMarkup label root hs = .ok markup)
    (content : List Markup) :
    ∃ as ∈ (markup content).elements, root ⊆ as ∧ handlerAttributes hs ⊆ as := by
  unfold dialogMarkup at h
  split at h
  · cases h
    refine ⟨root ++ handlerAttributes hs ++ p.keyAttributes, ?_, fun a ha => by simp [ha],
      fun a ha => by simp [ha]⟩
    simp [bareDialog, blockOf, Markup.elements, Markup.allElements]
  · obtain ⟨title, -, h⟩ := Outcome.bind_ok h
    cases h
    refine ⟨root ++ handlerAttributes hs, ?_, List.subset_append_left _ _,
      List.subset_append_right _ _⟩
    simp [primitiveDialog, blockOf, Markup.elements, Markup.allElements]

theorem dialog_outer (h : p.dialog = .ok b) : p.HasOuter ["onOpenChange"] [] b.markup := by
  unfold dialog at h
  obtain ⟨label, -, h⟩ := Outcome.bind_ok h
  obtain ⟨root, hroot, h⟩ := Outcome.bind_ok h
  obtain ⟨hs, hhs, h⟩ := Outcome.bind_ok h
  obtain ⟨markup, hmarkup, h⟩ := Outcome.bind_ok h
  obtain ⟨content, -, h⟩ := Outcome.bind_ok h
  cases h
  obtain ⟨as, has, hin, hhandlers⟩ := dialogMarkup_outer hmarkup content.markup
  exact .of_root hroot hhs has hin hhandlers (List.nil_subset _)

/-- Every template has an element with the accessibility attributes and the handlers. -/
theorem body_outer (h : p.body = .ok b) : p.HasOuter p.excluded p.tellsDisabled b.markup := by
  unfold body at h
  unfold excluded tellsDisabled
  split at h <;> rename_i ht <;> rw [ht]
  · exact button_outer h
  · exact field_outer h
  · exact listBox_outer h
  · exact dialog_outer h
  · exact container_outer h

/-- A dialog on primitives answers when it is opened or closed. -/
theorem dialog_mentions (h : p.dialog = .ok b) (hq : p.primitive.isSome = true)
    (hp : p.has "onOpenChange" = true) : "onOpenChange" ∈ b.markup.names := by
  unfold dialog at h
  obtain ⟨label, -, h⟩ := Outcome.bind_ok h
  obtain ⟨root, -, h⟩ := Outcome.bind_ok h
  obtain ⟨hs, -, h⟩ := Outcome.bind_ok h
  obtain ⟨markup, hmarkup, h⟩ := Outcome.bind_ok h
  obtain ⟨content, -, h⟩ := Outcome.bind_ok h
  cases h
  unfold dialogMarkup at hmarkup
  split at hmarkup
  · rename_i hnone
    rw [hnone] at hq; cases hq
  · obtain ⟨title, -, hmarkup⟩ := Outcome.bind_ok hmarkup
    cases hmarkup
    refine Markup.mem_names _ (by rw [primitiveDialog, blockOf, Markup.elements]; exact List.mem_cons_self)
      (List.mem_cons_of_mem _ List.mem_cons_self) ?_
    simp [onOpenChange, hp]

end Outer

/-! ## What the markup mentions -/

section Mentioned

variable {p : Plan} {b : Body} {q : Parameter}

/-- The markup mentions the parameters for accessibility. -/
theorem body_mentions_aria (h : p.body = .ok b)
    (hp : p.parameters = Component.parameters p.blueprint p.handlesKeys) (hq : q ∈ p.parameters)
    (hk : q.kind = .aria) (hs : q.source = .text q.name)
    (hname : q.name ∈ ariaAttributes.map Prod.fst)
    (hgiven : ∃ value, p.blueprint.ariaOf q.name = some value) : q.name ∈ b.markup.names := by
  obtain ⟨as, has, opens, withRole, aria, hs', haria, -, hsub, -⟩ := body_outer h
  obtain ⟨value, hvalue⟩ := hgiven
  obtain ⟨hlook, htruthy⟩ := Option.filter_eq_some_iff.1 hvalue
  obtain ⟨key, hkey, hrow⟩ := Table.mem_of_lookup hlook
  obtain rfl : q.name = key := beq_iff_eq.1 hkey
  obtain ⟨r, hr, hrname⟩ := parameter?_aria (hp ▸ hq) hk hs
  rw [← hp] at hr
  unfold Plan.aria ariaAttributesOf at haria
  obtain ⟨found, hfound, haria⟩ := Outcome.bind_ok haria
  cases haria
  obtain ⟨o, ho, hmade⟩ := Outcome.mapM_mem hfound _ hrow
  obtain ⟨a, rfl, hmention⟩ := ariaAttribute_mentions hmade htruthy hname hr
  rw [hrname] at hmention
  exact Markup.mem_names _ has (hsub (List.mem_flatMap.2 ⟨_, ho, by simp⟩)) hmention

/-- The markup mentions the answers to events. -/
theorem body_mentions_event (h : p.body = .ok b)
    (hd : p.template = .dialog → p.primitive.isSome = true) (hq : q ∈ p.parameters)
    (hname : q.name ∈ eventTypes.map Prod.fst)
    (hrule : ∃ rule ∈ p.blueprint.rules, rule.trigger = .text q.name) : q.name ∈ b.markup.names := by
  have hhas : p.has q.name = true := List.any_eq_true.2 ⟨q, hq, beq_self_eq_true _⟩
  by_cases hx : q.name ∈ p.excluded
  · -- only a dialog leaves an event out, and answers to it itself
    obtain ⟨ht, he⟩ : p.template = .dialog ∧ q.name = "onOpenChange" := by
      unfold excluded at hx
      split at hx
      · rename_i ht
        exact ⟨ht, List.mem_singleton.1 hx⟩
      · cases hx
    unfold body at h
    rw [ht] at h
    rw [he] at hhas ⊢
    exact dialog_mentions h (hd ht) hhas
  · obtain ⟨as, has, opens, withRole, aria, hs, -, hhs, -, hsub, -⟩ := body_outer h
    obtain ⟨a, ha, hmention⟩ := handlers_mention hhs hname hhas hx hrule
    exact Markup.mem_names _ has (hsub ha) hmention

/-- The markup of all templates but list boxes and dialogs mentions whether the component is disabled. -/
theorem body_mentions_disabled (h : p.body = .ok b) (hu : p.blueprint.IsUsual)
    (hp : p.has "disabled" = true) (hl : p.template ≠ .listBox) (hd : p.template ≠ .dialog) :
    "disabled" ∈ b.markup.names := by
  obtain ⟨as, has, opens, withRole, aria, hs, -, -, -, -, hsub⟩ := body_outer h
  have htold : ∃ a ∈ p.tellsDisabled, "disabled" ∈ a.toCode.refs := by
    unfold tellsDisabled
    split
    · simp [disabledAttribute, hp]
    · simp [disabledAttribute, hp]
    · have hfree : Table.hasKey p.blueprint.aria "ariaDisabled" = false := by
        rw [Table.hasKey, List.any_eq_false]
        intro row hrow he
        have hknown := hu.known row hrow
        rw [beq_iff_eq.1 he] at hknown
        revert hknown; decide
      simp [disabledAria, hp, hfree]
    · cases ht : p.template <;> contradiction
  obtain ⟨a, ha, hmention⟩ := htold
  exact Markup.mem_names _ has (hsub ha) hmention

end Mentioned

end Plan

namespace Source

variable {s : Source} {q : Parameter}

/-- A component consumes a parameter: it takes it apart from the others and uses it. -/
def Consumes (s : Source) (q : Parameter) : Prop :=
  q ∈ s.taken ∧ q.name ∈ Line.refs (s.setup ++ s.body.markup.lines 2)

theorem consumes_iff (hq : q ∈ s.plan.parameters) :
    s.Consumes q ↔ q.name ∈ Line.refs s.setup ∨ q.name ∈ s.body.markup.names := by
  have hrefs : q.name ∈ Line.refs (s.setup ++ s.body.markup.lines 2) ↔
      q.name ∈ Line.refs s.setup ∨ q.name ∈ s.body.markup.names := by
    rw [Line.refs_append, Markup.refs_lines, List.mem_append]
  rw [← hrefs]
  refine ⟨And.right, fun h => ⟨List.mem_filter.2 ⟨hq, ?_⟩, h⟩⟩
  rw [List.contains_iff_mem, uses, List.mem_append, List.mem_append]
  rcases hrefs.1 h with h | h
  · exact .inl (.inl h)
  · refine .inl (.inr ?_)
    rw [bodyRefs, Markup.refs_eq]
    simpa [Markup.allNames] using h

/-- A component uses its variants, its class, its overrides and, if it answers to keys, what it calls
for them before its markup. -/
theorem setup_mentions (hk : s.plan.handlesKeys = true → s.answered ≠ []) (hq : q ∈ s.plan.parameters)
    (h : q.kind = .variant ∨ (s.plan.handlesKeys = true ∧ q = keyParameter) ∨ q.name = "tokenOverrides" ∨
      q.name = "className") : q.name ∈ Line.refs s.setup := by
  unfold setup
  simp only [Line.refs_append, List.mem_append]
  rcases h with hvariant | ⟨hkeys, rfl⟩ | hname | hname
  · have hmem : q ∈ s.variants := List.mem_filter.2 ⟨hq, by simpa using hvariant⟩
    have hline : q.name ∈ Line.refs (s.variants.map s.variantClass) :=
      List.mem_flatMap.2 ⟨_, List.mem_map_of_mem hmem, by simp [variantClass]⟩
    simp [classNames, hline]
  · obtain ⟨k, ks, hanswered⟩ := List.exists_cons_of_ne_nil (hk hkeys)
    simp [keys, hkeys, keyHandler, hanswered, keyLines, keyParameter, fixedParameter]
  · simp [overrides, hname]
  · simp [classNames, hname]

end Source

/-! ## Built documents -/

/-- Of some keys the first one is answered. -/
theorem readKeys_ne_nil {items : List Datum} {ks : List KeySpec} (hi : items ≠ [])
    (h : readKeys [] items = .ok ks) : ks ≠ [] := by
  obtain ⟨d, rest, rfl⟩ := List.exists_cons_of_ne_nil hi
  rw [readKeys] at h
  obtain ⟨key, -, h⟩ := Outcome.bind_ok h
  obtain ⟨name, -, h⟩ := Outcome.bind_ok h
  rw [if_neg (by simp)] at h
  obtain ⟨prevents, -, h⟩ := Outcome.bind_ok h
  obtain ⟨action, -, h⟩ := Outcome.bind_ok h
  obtain ⟨others, -, h⟩ := Outcome.bind_ok h
  cases h
  exact List.cons_ne_nil _ _

theorem sparesDisabled_of_parameters {p : Plan}
    (h : p.parameters = parameters p.blueprint p.handlesKeys) : p.SparesDisabled := by
  intro q hq hname
  rw [h] at hq
  rcases parameter_cases hq with ⟨-, hfree⟩ | rfl | ⟨-, -, haria, -⟩ | ⟨-, hevent, -⟩ | ⟨-, rfl⟩ |
    hclosing
  · exact absurd (by rw [hname]; decide) hfree
  · rfl
  · exact absurd haria (by rw [hname]; decide)
  · exact absurd hevent (by rw [hname]; decide)
  · exact absurd hname (by decide)
  · simp only [closingParameters, List.mem_cons, List.not_mem_nil, or_false] at hclosing
    rcases hclosing with rfl | rfl | rfl <;> rfl

section Built

variable {title outline tokens matched intelligence interaction : Datum} {s : Source}
  {notices : List Notice}

/-- What is known about the component of documents that are built. -/
theorem built_plan (hc : Archetype.classify outline = .ok intelligence)
    (hi : Interaction.build outline intelligence = .ok interaction)
    (hs : (compose title outline tokens interaction matched).exec = (.ok s, notices)) :
    s.plan.body = .ok s.body ∧ s.plan.blueprint.IsUsual ∧
      s.plan.parameters = parameters s.plan.blueprint s.plan.handlesKeys ∧
      (s.plan.handlesKeys = true → s.answered ≠ []) ∧
      (∀ q ∈ s.plan.primitive, q.name ≠ "disabled") ∧
      (s.plan.template = .dialog → s.plan.primitive.isSome = true) := by
  obtain ⟨name, ms, -, hplan, hbody, hanswered⟩ := compose_steps hs
  obtain ⟨-, hb, hparameters, category, hcategory, htemplate, hprimitive, hhandles⟩ := plan_steps hplan
  obtain ⟨a, -, hcategoryOf, hrequired⟩ := build_ok hc hi
  obtain rfl : Datum.text a.name = category := Except.ok.inj (hcategoryOf.symm.trans hcategory)
  rw [ofDatum_name] at htemplate
  rw [htemplate] at hprimitive
  have hspace := primitive_name hrequired hprimitive
  refine ⟨hbody, usual_of_build hc hi hb, hparameters, fun hk => ?keys, fun q hq he => ?space,
    fun ht => ?dialog⟩
  case keys =>
    rw [hk] at hhandles
    obtain ⟨a', _, _, states, aria, rules, -, -, -, -, -, rfl⟩ := build_record hc hi
    have hkeyboard : (interactionOf a' states aria rules).get "keyboard" =
        .ok (.list ((Interaction.keys a').map Interaction.KeyBinding.toDatum)) := rfl
    have htruthy : Datum.isTruthy (.list ((Interaction.keys a').map Interaction.KeyBinding.toDatum)) =
        true := by
      unfold Template.handlesKeys at hhandles
      rw [hkeyboard, Outcome.ok_bind] at hhandles
      exact (Bool.and_eq_true_iff.1 (Except.ok.inj hhandles)).1
    have hkeys := hanswered hk
    unfold Blueprint.keys Blueprint.keyboard at hkeys
    rw [(Blueprint.read_ok hb).2.1, Datum.itemsOf_list hkeyboard, Outcome.ok_bind] at hkeys
    refine readKeys_ne_nil (fun hnil => ?_) hkeys
    rw [hnil] at htruthy
    cases htruthy
  case space =>
    have hother : ∀ a, namespace? a ≠ some "disabled" := by intro a; cases a <;> decide
    rw [Option.mem_def.1 hq, Option.map_some, he] at hspace
    exact hother a hspace.symm
  case dialog =>
    rw [htemplate] at ht
    have hsome : (namespace? a).isSome = true := by cases a <;> first | rfl | cases ht
    rw [← hspace] at hsome
    simpa using hsome

/-- The files of a component tell what it declares and what it is composed of. -/
theorem generate_steps {files : Artifacts}
    (h : (generate title outline tokens interaction matched).exec = (.ok files, notices)) :
    ∃ s ms, (compose title outline tokens interaction matched).exec = (.ok s, ms) ∧
      files.component = s.text ∧
      files.types = typesText s.name s.plan.blueprint.stateNames s.plan.parameters := by
  rw [Run.exec_eq] at h
  unfold generate at h
  obtain ⟨s, ms, hs, h⟩ := Run.after_bind_ok h
  obtain ⟨styles, ms', -, h⟩ := Run.after_bind_ok h
  obtain ⟨story, ms'', -, h⟩ := Run.after_bind_ok h
  cases h
  exact ⟨s, ms, hs, rfl, rfl⟩

/-- The parameters that are declared for a component are those of its plan. Apart from slots and
children, the component consumes each of them, unless it is the one that says whether the component is
disabled; this one it consumes exactly if it is neither a list box nor a dialog. -/
theorem generate_consumes {files : Artifacts} (hc : Archetype.classify outline = .ok intelligence)
    (hi : Interaction.build outline intelligence = .ok interaction)
    (h : (generate title outline tokens interaction matched).exec = (.ok files, notices)) :
    ∃ s ms, (compose title outline tokens interaction matched).exec = (.ok s, ms) ∧
      files.component = s.text ∧
      files.types = typesText s.name s.plan.blueprint.stateNames s.plan.parameters ∧
      ∀ q ∈ s.plan.parameters, q.kind ≠ .slot → q.name ≠ "children" →
        (s.Consumes q ↔
          (q.name = "disabled" → s.plan.template ≠ .listBox ∧ s.plan.template ≠ .dialog)) := by
  obtain ⟨s, ms, hs, hcomponent, htypes⟩ := generate_steps h
  refine ⟨s, ms, hs, hcomponent, htypes, fun q hq hslot hchildren => ⟨?only, ?all⟩⟩
  all_goals obtain ⟨hbody, husual, hparameters, hkeys, hspace, hdialog⟩ := built_plan hc hi hs
  case only =>
    rintro ⟨-, hused⟩ hname
    have hfree : s.plan.template = .listBox ∨ s.plan.template = .dialog →
        "disabled" ∉ Line.refs (s.setup ++ s.body.markup.lines 2) := fun ht =>
      Source.disabled_unused (isComplete_of_parameters hparameters)
        (sparesDisabled_of_parameters hparameters) hspace ht hbody
    rw [hname] at hused
    exact ⟨fun ht => hfree (.inl ht) hused, fun ht => hfree (.inr ht) hused⟩
  case all =>
    intro hd
    rw [Source.consumes_iff hq]
    rcases parameter_cases (hparameters ▸ hq) with ⟨hown, -⟩ | rfl | ⟨hk, hsource, hname, hgiven⟩ |
      ⟨-, hname, hrule⟩ | hkey | hclosing
    · exact .inl (Source.setup_mentions hkeys hq (.inl (hown.resolve_right hslot)))
    · obtain ⟨hl, hd⟩ := hd rfl
      have hhas : s.plan.has "disabled" = true := List.any_eq_true.2 ⟨_, hq, rfl⟩
      exact .inr (Plan.body_mentions_disabled hbody husual hhas hl hd)
    · exact .inr (Plan.body_mentions_aria hbody hparameters hq hk hsource hname hgiven)
    · exact .inr (Plan.body_mentions_event hbody hdialog hq hname hrule)
    · exact .inl (Source.setup_mentions hkeys hq (.inr (.inl hkey)))
    · simp only [closingParameters, List.mem_cons, List.not_mem_nil, or_false] at hclosing
      rcases hclosing with rfl | rfl | rfl
      · exact .inl (Source.setup_mentions hkeys hq (.inr (.inr (.inl rfl))))
      · exact .inl (Source.setup_mentions hkeys hq (.inr (.inr (.inr rfl))))
      · exact absurd rfl hchildren

end Built

/-! ## A list box that can be disabled -/

/-- A set of variants for a list box, with one variant for when it is disabled. -/
def sizesLayer : Datum :=
  .record
    [("id", .text "1:1"), ("name", .text "Size select"), ("type", .text "COMPONENT_SET"),
     ("children", .list
       [.record [("id", .text "1:2"), ("name", .text "State=Disabled"), ("type", .text "COMPONENT")]])]

def sizesNode : Datum :=
  .record
    [("id", .text "1:2"), ("name", .text "State=Disabled"), ("type", .text "COMPONENT"),
     ("zIndex", .int 0), ("children", .list [])]

def sizesTree : Datum :=
  .record
    [("id", .text "1:1"), ("name", .text "Size select"), ("type", .text "COMPONENT_SET"),
     ("zIndex", .int 0), ("children", .list [sizesNode])]

theorem sizesTree_made : Outline.tree (Scene.ofDatum sizesLayer) = .ok (some sizesTree, []) := by
  have hsearch : (Scene.ofDatum sizesLayer).Search [] [⟨1, 0, 0⟩]
      (.cons ⟨1, 0, 0⟩ (.cons ⟨0, 1, 0⟩ .nil .nil) .nil) [0, 1] :=
    .visit (by simp) rfl (.visit (by simp) rfl (.nil _) (.nil _)) (.nil _)
  have htrail := Scene.trailFrom_search hsearch (by decide) true
  have hroot : (Scene.ofDatum sizesLayer).root = .node 1 := rfl
  unfold Outline.tree
  rw [hroot]
  simp only [htrail]
  rfl

/-- The variant in the outline of the set. -/
def sizesVariant : Datum :=
  .record
    [("name", .text "State=Disabled"), ("properties", .record [("State", .text "Disabled")]),
     ("nodeId", .text "1:2")]

def sizesOutline : Datum :=
  .record
    [("version", .text Outline.version),
     ("meta", .record
       [("name", .text "Size select"), ("figmaUrl", .text ""), ("nodeId", .text "1:1"),
        ("type", .text "COMPONENT_SET"), ("componentType", .text "component-set"),
        ("extractedAt", .text Outline.epoch), ("sourceFileKey", .text "")]),
     ("tree", sizesTree), ("variants", .list [sizesVariant]), ("slots", .list []),
     ("layoutIntent", .record [("horizontal", .text "intrinsic"), ("vertical", .text "intrinsic")]),
     ("visualHints", (⟨false, false, false⟩ : Outline.Needs).toDatum),
     ("stateMapping", .list
       [.record [("figmaVariant", .text "State=Disabled"), ("semanticState", .text "disabled")]]),
     ("stats", .record [("nodeCount", .int 2)])]

theorem sizesTree_walked : Walked.ofDatum sizesTree = ⟨sizesTree.preorder 0, none⟩ :=
  Walked.ofDatum_tree rfl rfl rfl

theorem sizesOutline_made :
    Outline.ofScene (Scene.ofDatum sizesLayer) ⟨.text "", .text "", .null⟩ = .ok sizesOutline := by
  have hhints : Outline.visualHints sizesTree =
      .ok (⟨false, false, false⟩ : Outline.Needs).toDatum := by
    unfold Outline.visualHints
    rw [sizesTree_walked]
    rfl
  have hcount : (Walked.ofDatum sizesTree).count = .ok 2 := by rw [sizesTree_walked]; rfl
  unfold Outline.ofScene
  rw [sizesTree_made]
  unfold Outline.document
  simp only [Outcome.ok_bind, Option.getD_some, hhints, hcount]
  rfl

def sizesIntelligence : Datum :=
  (⟨.select, .name⟩ : Archetype.Verdict).toDatum { Archetype.Features.none with depth := 1 } []

theorem sizesOutline_classified : Archetype.classify sizesOutline = .ok sizesIntelligence := by
  have htree : sizesOutline.get "tree" = .ok sizesTree := rfl
  unfold Archetype.classify Archetype.Features.ofOutline
  rw [htree, Outcome.ok_bind, sizesTree_walked]
  rfl

def sizesInteraction : Datum :=
  interactionOf .select
    [Interaction.stateDatum .select (.text "default"), Interaction.stateDatum .select (.text "disabled")]
    (Archetype.select.aria false) (Interaction.ownRules .select)

theorem sizesInteraction_built :
    Interaction.build sizesOutline sizesIntelligence = .ok sizesInteraction := by rfl

def sizesBlueprint : Blueprint where
  outline := sizesOutline
  interaction := sizesInteraction
  variants := [⟨sizesVariant, .text "State=Disabled", [("State", .text "Disabled")]⟩]
  slots := []
  states := [⟨.text "default", .text ""⟩, ⟨.text "disabled", .text ":disabled"⟩]
  aria := Archetype.select.aria false
  rules :=
    [⟨.text "onFocus", .text "open", .text "listbox", .null⟩,
     ⟨.text "onBlur", .text "close", .text "listbox", .text "!isMouseInside"⟩]
  category := .text "select"

def sizesPlan : Plan where
  name := "SizeSelect"
  base := "size-select"
  blueprint := sizesBlueprint
  parameters := parameters sizesBlueprint false
  tokens := .ok []
  template := .listBox
  primitive := some ⟨"Select", "@radix-ui/react-select"⟩
  handlesKeys := false

theorem sizesPlan_made :
    (plan "SizeSelect" sizesOutline .null sizesInteraction (.list [])).exec = (.ok sizesPlan, []) := by
  rfl

theorem sizesComponent_made : ∃ body, sizesPlan.body = .ok body ∧
    (compose (.text "Size select") sizesOutline .null sizesInteraction (.list [])).exec =
      (.ok ⟨sizesPlan, body, []⟩, []) := by
  have hnodes : sizesPlan.nodes = .ok [sizesNode] := rfl
  have hslots : Plan.slotsIn [sizesNode] = .ok [.null] := by
    simp only [Plan.slotsIn, List.foldlM_cons, List.foldlM_nil]
    rw [Walked.ofDatum_tree rfl rfl rfl]
    rfl
  have hbody : ∃ body, sizesPlan.body = .ok body := by
    have hlistBox : sizesPlan.body = sizesPlan.listBox := rfl
    rw [hlistBox]
    unfold Plan.listBox Plan.content
    rw [hnodes]
    simp only [Outcome.ok_bind]
    rw [hslots]
    exact ⟨_, rfl⟩
  obtain ⟨body, hbody⟩ := hbody
  have hname : componentName (.text "Size select") = .ok "SizeSelect" := rfl
  exact ⟨body, hbody, compose_of_plan hname sizesPlan_made hbody rfl⟩

theorem sizesFiles_made : ∃ files notices,
    (generate (.text "Size select") sizesOutline .null sizesInteraction (.list [])).exec =
      (.ok files, notices) := by
  obtain ⟨body, -, hs⟩ := sizesComponent_made
  rw [Run.exec_eq] at hs
  unfold generate
  rw [Run.exec_eq, Run.after_bind, hs]
  exact ⟨_, _, rfl⟩

/-- The list box consumes all that is declared for it but whether it is disabled. -/
theorem generate_consumes_sizes : ∃ files notices s ms,
    Archetype.classify sizesOutline = .ok sizesIntelligence ∧
    Interaction.build sizesOutline sizesIntelligence = .ok sizesInteraction ∧
    (generate (.text "Size select") sizesOutline .null sizesInteraction (.list [])).exec =
      (.ok files, notices) ∧
    (compose (.text "Size select") sizesOutline .null sizesInteraction (.list [])).exec =
      (.ok s, ms) ∧
    files.component = s.text ∧
    files.types = typesText s.name s.plan.blueprint.stateNames s.plan.parameters ∧
    s.plan.parameters.map Parameter.name =
      ["state", "disabled", "onFocus", "onBlur", "tokenOverrides", "className", "children"] ∧
    ∀ q ∈ s.plan.parameters, q.name ≠ "children" → (s.Consumes q ↔ q.name ≠ "disabled") := by
  obtain ⟨files, notices, hfiles⟩ := sizesFiles_made
  obtain ⟨body, -, hcompose⟩ := sizesComponent_made
  obtain ⟨s, ms, hs, hcomponent, htypes, hall⟩ :=
    generate_consumes sizesOutline_classified sizesInteraction_built hfiles
  obtain rfl : ⟨sizesPlan, body, []⟩ = s :=
    Except.ok.inj (congrArg Prod.fst (hcompose.symm.trans hs))
  have hslot : ∀ q ∈ sizesPlan.parameters, q.kind ≠ .slot := by decide +kernel
  have hnames : sizesPlan.parameters.map Parameter.name =
      ["state", "disabled", "onFocus", "onBlur", "tokenOverrides", "className", "children"] := by
    decide +kernel
  have hlistBox : sizesPlan.template = .listBox := rfl
  refine ⟨files, notices, _, ms, sizesOutline_classified, sizesInteraction_built, hfiles, hs, hcomponent,
    htypes, hnames, fun q hq hchildren => (hall q hq (hslot q hq) hchildren).trans ?_⟩
  simp [hlistBox]

/-- What is declared for the list box says whether it is disabled, and the list box ignores it. -/
theorem disabled_ignored : ∃ outline intelligence interaction files notices s ms,
    Outline.ofScene (Scene.ofDatum sizesLayer) ⟨.text "", .text "", .null⟩ = .ok outline ∧
    Archetype.classify outline = .ok intelligence ∧
    Interaction.build outline intelligence = .ok interaction ∧
    (generate (.text "Size select") outline .null interaction (.list [])).exec = (.ok files, notices) ∧
    (compose (.text "Size select") outline .null interaction (.list [])).exec = (.ok s, ms) ∧
    files.component = s.text ∧
    files.types = typesText s.name s.plan.blueprint.stateNames s.plan.parameters ∧
    disabledParameter ∈ s.plan.parameters ∧ ¬ s.Consumes disabledParameter := by
  obtain ⟨files, notices, hfiles⟩ := sizesFiles_made
  obtain ⟨body, hbody, hcompose⟩ := sizesComponent_made
  obtain ⟨s, ms, hs, hcomponent, htypes⟩ := generate_steps hfiles
  obtain rfl : ⟨sizesPlan, body, []⟩ = s :=
    Except.ok.inj (congrArg Prod.fst (hcompose.symm.trans hs))
  have hspace : ∀ q ∈ sizesPlan.primitive, q.name ≠ "disabled" := by
    intro q hq
    cases hq
    decide
  have hunused := Source.disabled_unused (s := ⟨sizesPlan, body, []⟩) (isComplete_of_parameters rfl)
    (sparesDisabled_of_parameters rfl) hspace (.inl rfl) hbody
  refine ⟨_, _, _, files, notices, _, ms, sizesOutline_made, sizesOutline_classified,
    sizesInteraction_built, hfiles, hs, hcomponent, htypes, ?_, fun hc => hunused hc.2⟩
  have hstates : sizesBlueprint.stateNames.any (·.isThe "disabled") = true := rfl
  show disabledParameter ∈ parameters sizesBlueprint false
  rw [parameters_eq]
  simp [fixedParameters, hstates]

end Maquette.Component
