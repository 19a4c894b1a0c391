/-
The names that a component uses are those that it knows: what it declares, what it imports, and its
parameters. Each part of its markup stays within them, as a name is only written where the part of the
component that binds it is written, too.
-/
import Maquette.Proofs.Datum
import Maquette.Proofs.Markup.Scope
import Maquette.Component.Template

namespace Maquette.Component

open Markup (Attribute Code Tag Scoped)

/-! ## Known names -/

/-- The names that the parts of a component may use; `opens` says whether anything is opened in it. -/
inductive Plan.Known (p : Plan) (opens : Bool) : String → Prop
  | react : Known p opens "React"
  | ownClass : Known p opens "componentClassName"
  | ownStyle : Known p opens "overrideStyles"
  | state : p.blueprint.isMultiState = true → Known p opens "interactionState"
  | setState : p.blueprint.isMultiState = true → Known p opens "setInteractionState"
  | stateType : p.blueprint.isMultiState = true → Known p opens (p.name ++ "State")
  | isOpen : opens = true → Known p opens "isOpen"
  | setIsOpen : opens = true → Known p opens "setIsOpen"
  | keys : p.handlesKeys = true → Known p opens "handleKeyDown"
  | inputId : p.template = .field → Known p opens "inputId"
  | classHelper : parametersOf p.parameters .variant ≠ [] → Known p opens "toClassName"
  | primitive {q : Primitive} : p.primitive = some q → Known p opens q.name
  | parameter {q : Parameter} : q ∈ p.parameters → Known p opens q.name

/-- A name that some parameter has is known. -/
theorem Plan.known_of_has {p : Plan} {opens : Bool} {name : String}
    (h : hasParameter p.parameters name = true) : p.Known opens name := by
  obtain ⟨q, hq, he⟩ := List.any_eq_true.1 h
  rw [← beq_iff_eq.1 he]
  exact .parameter hq

/-! ## Handlers -/

theorem mem_distinct {α : Type} [BEq α] {a : α} : ∀ {l : List α}, a ∈ distinct l → a ∈ l
  | [], h => h
  | b :: l, h => by
    rw [distinct] at h
    rcases List.mem_cons.1 h with rfl | h
    · exact List.mem_cons_self
    · exact List.mem_cons_of_mem _ (mem_distinct (List.mem_of_mem_filter h))

section Distinct

variable {α : Type} [BEq α] [LawfulBEq α]

theorem mem_distinct_iff {a : α} {l : List α} : a ∈ distinct l ↔ a ∈ l := by
  induction l with
  | nil => rfl
  | cons b l ih =>
    rw [distinct, List.mem_cons, List.mem_filter, ih, List.mem_cons]
    by_cases h : a = b <;> simp [h]

theorem nodup_distinct (l : List α) : (distinct l).Nodup := by
  induction l with
  | nil => exact List.nodup_nil
  | cons a l ih =>
    rw [distinct]
    refine List.nodup_cons.2 ⟨fun hm => ?_, ih.filter _⟩
    simpa using (List.mem_filter.1 hm).2

variable {a : α} {seen : List α}

/-- An item that was seen is not among those that are new. -/
theorem new_of_seen (h : a ∈ seen) (l : List α) :
    (distinct (a :: l)).filter (!seen.contains ·) = (distinct l).filter (!seen.contains ·) := by
  have hother : ∀ b, (!seen.contains b && !b == a) = !seen.contains b := by
    intro b
    by_cases hb : b = a
    · subst hb; simp [h]
    · simp [hb]
  rw [distinct, List.filter_cons_of_neg (by simpa using h), List.filter_filter]
  simp only [hother]

/-- An item that was not seen is the first one that is new, and then it is seen. -/
theorem new_of_unseen {seen' : List α} (hseen : ∀ b, b ∈ seen' ↔ b = a ∨ b ∈ seen) (h : a ∉ seen)
    (l : List α) :
    (distinct (a :: l)).filter (!seen.contains ·) = a :: (distinct l).filter (!seen'.contains ·) := by
  have hmore : ∀ b, (!seen.contains b && !b == a) = !seen'.contains b := by
    intro b
    rw [Bool.eq_iff_iff]
    simp [hseen, and_comm]
  rw [distinct, List.filter_cons_of_pos (by simpa using h), List.filter_filter]
  simp only [hmore]

/-- Adding items one by one, unless they are there, adds those that are new where they are first
seen. -/
theorem foldl_distinct (items seen : List α) :
    items.foldl (fun seen a => if seen.contains a then seen else seen ++ [a]) seen =
      seen ++ (distinct items).filter (!seen.contains ·) := by
  induction items generalizing seen with
  | nil => simp [distinct]
  | cons a items ih =>
    rw [List.foldl_cons, ih]
    by_cases h : a ∈ seen
    · rw [if_pos (by simpa using h), new_of_seen h]
    · have hadded : ∀ b, b ∈ seen ++ [a] ↔ b = a ∨ b ∈ seen := by simp [or_comm]
      rw [if_neg (by simpa using h), new_of_unseen hadded h, List.append_assoc, List.singleton_append]

end Distinct

/-- States can only be set when there are several. -/
theorem Change.ofRule_setState {isMultiState : Bool} {rule : RuleSpec} {target : String}
    (h : Change.ofRule? isMultiState rule = some (.setState target)) : isMultiState = true := by
  unfold Change.ofRule? at h
  split at h
  · split at h
    · assumption
    · cases h
  · split at h
    · cases h
    · split at h <;> cases h

section Handlers

variable {known : String → Prop}

/-- What a change needs to know. -/
def Change.Allowed (known : String → Prop) : Change → Prop
  | .setState _ => known "setInteractionState"
  | .setOpen _ => known "setIsOpen"

theorem Statement.scoped {s : Statement} (h : s.change.Allowed known) : s.code.Scoped known := by
  obtain ⟨change, _ | c⟩ := s <;> cases change <;>
    simpa [Code.Scoped, Statement.code, Change.code, Change.Allowed] using h

theorem Handler.scoped {h : Handler} (hs : ∀ s ∈ h.statements, s.change.Allowed known)
    (hf : h.isForwarded = true → known h.trigger) :
    ∀ a ∈ h.attribute?, a.toCode.Scoped known := by
  have hcodes : ∀ c ∈ h.codes, c.Scoped known := by
    intro c hc
    rcases List.mem_append.1 hc with hc | hc
    · obtain ⟨s, hs', rfl⟩ := List.mem_map.1 hc
      exact Statement.scoped (hs s hs')
    · split at hc
      · rename_i hforwarded
        rw [List.mem_singleton] at hc; subst hc
        simpa [Code.Scoped] using hf hforwarded
      · cases hc
  intro a ha
  unfold attribute? at ha
  split at ha
  · split at ha
    · rename_i hforwarded
      cases ha
      simpa [Code.Scoped] using hf hforwarded
    · cases ha
  · cases ha
    have := Code.scoped_between " " hcodes
    simpa [Code.Scoped] using this

end Handlers

/-- The handlers of a plan use known names, if it is known that they open something. -/
theorem Plan.handlers_scoped {p : Plan} {opens : Bool} {exclude : List String} {hs : List Handler}
    (h : p.handlersBut exclude = .ok hs) (ho : hs.any Handler.opens = true → opens = true) :
    ∀ a ∈ handlerAttributes hs, a.toCode.Scoped (p.Known opens) := by
  intro a ha
  obtain ⟨hd, hhd, ha⟩ := List.mem_filterMap.1 ha
  obtain ⟨trigger, -, hmade⟩ := Outcome.mem_mapM h hd hhd
  unfold handler at hmade
  obtain ⟨statements, hst, hmade⟩ := Outcome.bind_ok hmade
  cases hmade
  refine Handler.scoped (fun s hs' => ?_) (fun hf => ?_) a ha
  · obtain ⟨o, hmem, hsome⟩ := List.mem_filterMap.1 (mem_distinct hs')
    obtain ⟨rule, -, hrule⟩ := Outcome.mem_mapM hst o hmem
    obtain rfl : o = some s := hsome
    unfold Statement.ofRule? at hrule
    split at hrule
    · rename_i change hchange
      obtain ⟨c, -, hrule⟩ := Outcome.bind_ok hrule
      cases hrule
      cases change with
      | setState target => exact .setState (Change.ofRule_setState hchange)
      | setOpen value =>
        -- a handler with such a statement is one that opens
        exact .setIsOpen (ho (List.any_eq_true.2 ⟨_, hhd, List.any_eq_true.2 ⟨_, hs', rfl⟩⟩))
    · cases hrule
  · exact Plan.known_of_has (Bool.and_eq_true_iff.1 hf).2

/-! ## Attributes -/

theorem ariaAttribute_scoped {known : String → Prop} {ps : List Parameter} {opens withRole : Bool}
    {key : String} {value : Datum} {a : Option Attribute}
    (h : ariaAttribute? ps opens withRole key value = .ok a) (hp : ∀ q ∈ ps, known q.name)
    (ho : opens = true → known "isOpen") : ∀ b ∈ a, b.toCode.Scoped known := by
  have hplain : ∀ {name d b}, Attribute.ofDatum name d = .ok b → b.toCode.Scoped known := by
    intro name d b hb
    simp [Code.Scoped, Attribute.refs_ofDatum hb]
  unfold ariaAttribute? at h
  split at h
  · cases h; simp
  -- the role, then the attributes that a parameter or what is open decides
  split at h
  · obtain ⟨role, hrole, h⟩ := Outcome.ite_bind_ok h
    cases h
    intro b hb
    split at hrole
    · obtain ⟨c, hc, rfl⟩ := Outcome.map_ok_inv hrole
      cases hb; exact hplain hc
    · cases hrole; cases hb
  split at h
  · split at h
    · rename_i q hq
      obtain ⟨piece, hpiece, h⟩ := Outcome.bind_ok h
      cases h
      intro b hb
      cases hb
      simpa [Code.Scoped, Code.refs_ofDatum hpiece] using hp q (List.mem_of_find?_eq_some hq)
    · split at h
      · rename_i hopen
        cases h
        intro b hb
        cases hb
        simpa [Code.Scoped] using ho (Bool.and_eq_true_iff.1 hopen).2
      · obtain ⟨c, hc, h⟩ := Outcome.bind_ok h
        cases h
        intro b hb
        cases hb
        exact hplain hc
  · cases h; simp

section Attributes

variable {p : Plan} {opens : Bool}

theorem Plan.aria_scoped {o withRole : Bool} {as : List Attribute}
    (h : p.aria o withRole = .ok as) (ho : o = true → opens = true) :
    ∀ a ∈ as, a.toCode.Scoped (p.Known opens) := by
  unfold aria ariaAttributesOf at h
  obtain ⟨found, hfound, h⟩ := Outcome.bind_ok h
  cases h
  intro a ha
  obtain ⟨b, hb, ha⟩ := List.mem_flatMap.1 ha
  obtain ⟨row, -, hrow⟩ := Outcome.mem_mapM hfound b hb
  exact ariaAttribute_scoped hrow (fun q hq => .parameter hq) (fun h => .isOpen (ho h)) a
    (Option.mem_toList.1 ha)

theorem Plan.own_scoped : ∀ a ∈ p.ownAttributes, a.toCode.Scoped (p.Known opens) := by
  unfold ownAttributes
  intro a ha
  rcases List.mem_append.1 ha with ha | ha
  · rcases List.mem_cons.1 ha with rfl | ha
    · exact Markup.scoped_codeAttribute _ (Code.scoped_ref .ownClass)
    · rw [List.mem_singleton] at ha; subst ha
      exact Markup.scoped_codeAttribute _ (Code.scoped_ref .ownStyle)
  · split at ha
    · rename_i hmulti
      rw [List.mem_singleton] at ha; subst ha
      exact Markup.scoped_codeAttribute _ (Code.scoped_ref (.state hmulti))
    · cases ha

theorem Plan.root_scoped {o withRole : Bool} {as : List Attribute}
    (h : p.rootAttributes o withRole = .ok as) (ho : o = true → opens = true) :
    ∀ a ∈ as, a.toCode.Scoped (p.Known opens) := by
  unfold rootAttributes at h
  obtain ⟨own, hown, h⟩ := Outcome.bind_ok h
  cases h
  exact List.forall_mem_append.2 ⟨p.own_scoped, p.aria_scoped hown ho⟩

theorem Plan.disabled_scoped : ∀ a ∈ p.disabledAttribute, a.toCode.Scoped (p.Known opens) := by
  unfold disabledAttribute
  split
  · rename_i h
    simpa [Code.Scoped] using Plan.known_of_has h
  · simp

theorem Plan.disabledAria_scoped : ∀ a ∈ p.disabledAria, a.toCode.Scoped (p.Known opens) := by
  unfold disabledAria
  split
  · rename_i h
    simpa [Code.Scoped] using Plan.known_of_has (Bool.and_eq_true_iff.1 h).1
  · simp

theorem Plan.key_scoped : ∀ a ∈ p.keyAttributes, a.toCode.Scoped (p.Known opens) := by
  unfold keyAttributes
  split
  · rename_i h
    simpa [Code.Scoped] using Known.keys h
  · simp

end Attributes

/-! ## Layers -/

section Layers

variable {known : String → Prop}

/-- The style of an element uses no names. -/
theorem style_refs {fields : List (String × Datum)} {c : Code} (h : Code.style fields = .ok c) :
    c.refs = [] := by
  unfold Code.style at h
  obtain ⟨items, hitems, h⟩ := Outcome.bind_ok h
  have hnone : ∀ c ∈ items, Code.Scoped (fun _ => False) c := by
    intro c hc
    obtain ⟨row, -, hrow⟩ := Outcome.mem_mapM hitems c hc
    obtain ⟨piece, hpiece, hrow⟩ := Outcome.bind_ok hrow
    cases hrow
    simp [Code.Scoped, Code.refs_ofDatum hpiece]
  have := Code.scoped_between ", " hnone
  simp only [Code.Scoped, imp_false] at this
  cases h
  split
  · rfl
  · simpa using List.eq_nil_iff_forall_not_mem.2 this

theorem slotMarks_scoped {slot : Datum} {as : List Attribute} (h : slotMarks slot = .ok as) :
    ∀ a ∈ as, a.toCode.Scoped known := by
  unfold slotMarks at h
  split at h
  · obtain ⟨mark, hmark, h⟩ := Outcome.bind_ok h
    cases h
    simp [Code.Scoped, Attribute.refs_ofDatum hmark]
  · cases h; simp

theorem labelMarks_scoped {label : Datum} {as : List Attribute} (h : labelMarks label = .ok as) :
    ∀ a ∈ as, a.toCode.Scoped known := by
  unfold labelMarks at h
  split at h
  · obtain ⟨mark, hmark, h⟩ := Outcome.bind_ok h
    cases h
    simp [Code.Scoped, Attribute.refs_ofDatum hmark]
  · cases h; simp [Code.Scoped]

theorem styleAttributes_scoped {style : List (String × Datum)} {as : List Attribute}
    (h : styleAttributes style = .ok as) : ∀ a ∈ as, a.toCode.Scoped known := by
  unfold styleAttributes at h
  split at h
  · cases h; simp
  · obtain ⟨c, hc, h⟩ := Outcome.bind_ok h
    cases h
    simp [Code.Scoped, style_refs hc]

theorem commonAttributes_scoped {tokens : TokenTable} {d : Datum} {as : List Attribute}
    (h : commonAttributes tokens d = .ok as) : ∀ a ∈ as, a.toCode.Scoped known := by
  unfold commonAttributes at h
  obtain ⟨name, -, h⟩ := Outcome.bind_ok h
  obtain ⟨slot, -, h⟩ := Outcome.bind_ok h
  obtain ⟨marks, hmarks, h⟩ := Outcome.bind_ok h
  obtain ⟨style, -, h⟩ := Outcome.bind_ok h
  obtain ⟨styled, hstyled, h⟩ := Outcome.bind_ok h
  cases h
  refine List.forall_mem_append.2 ⟨List.forall_mem_append.2 ⟨?_, slotMarks_scoped hmarks⟩,
    styleAttributes_scoped hstyled⟩
  simpa using Markup.scoped_attribute _ _

theorem graphic_scoped {d : Datum} {svg : Svg} {label : Datum} {m : Markup}
    (h : graphic d svg label = .ok m) : m.Scoped known := by
  unfold graphic at h
  obtain ⟨name, -, h⟩ := Outcome.bind_ok h
  obtain ⟨told, htold, h⟩ := Outcome.bind_ok h
  cases h
  refine Markup.scoped_element (Markup.scoped_plain _)
    (List.forall_mem_append.2 ⟨List.forall_mem_append.2 ⟨?_, labelMarks_scoped htold⟩, ?_⟩) (by simp)
  · simpa using Markup.scoped_attribute _ _
  · simp [Code.Scoped]

/-- A slot whose content goes by a known name. -/
def SlotKnown (known : String → Prop) (slot : Option Datum) : Prop :=
  ∀ d ∈ slot, ∃ name, d = .text name ∧ known name

theorem textContent_scoped {characters : Datum} {slot : Option Datum} {ms : List Markup}
    (h : textContent characters slot = .ok ms) (hs : SlotKnown known slot) :
    ∀ m ∈ ms, m.Scoped known := by
  unfold textContent at h
  split at h
  · rename_i name
    cases h
    obtain ⟨_, he, hname⟩ := hs _ rfl
    cases he
    have hquoted : Code.refs [quotedCharacters characters] = [] := by cases characters <;> rfl
    simpa using Markup.scoped_expr (by simpa [Code.Scoped, hquoted] using hname)
  · cases h
  · cases h
    split
    · simp
    · simpa using Markup.scoped_text _

theorem textMarkup_scoped {tokens : TokenTable} {d : Datum} {slot : Option Datum} {m : Markup}
    (h : textMarkup tokens d slot = .ok m) (hs : SlotKnown known slot) : m.Scoped known := by
  unfold textMarkup at h
  obtain ⟨svg, -, h⟩ := Outcome.bind_ok h
  cases svg with
  | some svg =>
    obtain ⟨_, -, h⟩ := Outcome.bind_ok h
    obtain ⟨_, -, h⟩ := Outcome.bind_ok h
    exact graphic_scoped h
  | none =>
    simp only at h
    unfold plainText at h
    obtain ⟨attributes, ha, h⟩ := Outcome.bind_ok h
    obtain ⟨characters, -, h⟩ := Outcome.bind_ok h
    obtain ⟨content, hc, h⟩ := Outcome.bind_ok h
    cases h
    exact Markup.scoped_element (Markup.scoped_plain _) (commonAttributes_scoped ha)
      (textContent_scoped hc hs)

theorem elementOf_scoped {tag : String} {attributes : List Attribute} {slot : Option Datum}
    {children : List Markup} (ha : ∀ a ∈ attributes, a.toCode.Scoped known)
    (hs : SlotKnown known slot) (hc : ∀ m ∈ children, m.Scoped known) :
    (elementOf tag attributes slot children).Scoped known := by
  have hslot : ∀ m ∈ slot.toList.map fun name => Markup.expr [.ref name.shown], m.Scoped known := by
    intro m hm
    obtain ⟨d, hd, rfl⟩ := List.mem_map.1 hm
    obtain ⟨name, rfl, hname⟩ := hs d (Option.mem_toList.1 hd)
    exact Markup.scoped_expr (Code.scoped_ref hname)
  unfold elementOf
  refine Markup.scoped_element (Markup.scoped_plain _) (List.forall_mem_append.2 ⟨?_, ha⟩) ?_
  · split
    · simpa using Markup.scoped_attribute _ _
    · simp
  · split
    · simp
    · split
      · exact hslot
      · exact hc

/-- A table of slots whose contents go by known names. -/
def TableKnown (known : String → Prop) (table : Table Datum Datum) : Prop :=
  ∀ row ∈ table, ∃ name, row.2 = .text name ∧ known name

theorem slotContent_known {table : Table Datum Datum} (ht : TableKnown known table) {d : Datum}
    {slot : Option Datum} (h : slotContent (.ok table) d = .ok slot) : SlotKnown known slot := by
  unfold slotContent at h
  rw [Outcome.ok_bind] at h
  obtain ⟨name, -, h⟩ := Outcome.bind_ok h
  obtain ⟨key, -, h⟩ := Outcome.bind_ok h
  cases h
  intro d hd
  obtain ⟨hlook, -⟩ := Option.filter_eq_some_iff.1 hd
  obtain ⟨k, -, hm⟩ := Table.mem_of_lookup hlook
  exact ht _ hm

mutual

/-- Layers only use the names that are given for slots. -/
theorem layer_scoped {tokens : TokenTable} {table : Table Datum Datum}
    (ht : TableKnown known table) (l : Layer) {m : Markup}
    (h : l.markup tokens (.ok table) = .ok m) : m.Scoped known := by
  match l with
  | .broken f => cases h
  | .node d children =>
    rw [Layer.markup] at h
    obtain ⟨slot, hslot, h⟩ := Outcome.bind_ok h
    obtain ⟨shape, -, h⟩ := Outcome.bind_ok h
    split at h
    · obtain ⟨svg, -, h⟩ := Outcome.bind_ok h
      exact graphic_scoped h
    · obtain ⟨kind, -, h⟩ := Outcome.bind_ok h
      split at h
      · exact textMarkup_scoped h (slotContent_known ht hslot)
      · obtain ⟨tag, -, h⟩ := Outcome.bind_ok h
        obtain ⟨common, hcommon, h⟩ := Outcome.bind_ok h
        obtain ⟨inner, hinner, h⟩ := Outcome.bind_ok h
        cases h
        exact elementOf_scoped (commonAttributes_scoped hcommon) (slotContent_known ht hslot)
          (layers_scoped ht children hinner)

theorem layers_scoped {tokens : TokenTable} {table : Table Datum Datum}
    (ht : TableKnown known table) (ls : List Layer) {ms : List Markup}
    (h : Layer.allMarkup tokens (.ok table) ls = .ok ms) : ∀ m ∈ ms, m.Scoped known := by
  match ls with
  | [] => cases h; simp
  | l :: rest =>
    rw [Layer.allMarkup] at h
    obtain ⟨m, hm, h⟩ := Outcome.bind_ok h
    obtain ⟨ms, hms, h⟩ := Outcome.bind_ok h
    cases h
    exact List.forall_mem_cons.2 ⟨layer_scoped ht l hm, layers_scoped ht rest hms⟩

end

end Layers

/-! ## Content -/

section Content

variable {p : Plan} {opens : Bool}

theorem mem_parametersOf {ps : List Parameter} {kind : ParameterKind} {q : Parameter}
    (h : q ∈ parametersOf ps kind) : q ∈ ps := List.mem_of_mem_filter h

theorem Plan.partClass_scoped {known : String → Prop} (part : String) :
    (p.partClass part).toCode.Scoped known := Markup.scoped_attribute _ _

theorem Plan.slotMarkup_scoped {slot : Parameter} {tag : String} {extra : List Attribute}
    {m : Markup} (h : p.slotMarkup slot tag extra = .ok m) (hs : slot ∈ p.parameters)
    (he : ∀ a ∈ extra, a.toCode.Scoped (p.Known opens)) : m.Scoped (p.Known opens) := by
  unfold slotMarkup at h
  obtain ⟨_, -, h⟩ := Outcome.bind_ok h
  obtain ⟨mark, hmark, h⟩ := Outcome.bind_ok h
  cases h
  refine Markup.scoped_guarded (.parameter hs) (Markup.scoped_element (Markup.scoped_plain _)
    (List.forall_mem_append.2 ⟨?_, he⟩) ?_)
  · simp only [List.mem_cons, List.not_mem_nil, or_false, forall_eq_or_imp, forall_eq]
    refine ⟨partClass_scoped _, ?_, Markup.scoped_attribute _ _⟩
    simp [Code.Scoped, Attribute.refs_ofDatum hmark]
  · simpa using Markup.scoped_expr (Code.scoped_ref (.parameter hs))

theorem Plan.slotElement_scoped {slot : Parameter} {m : Markup} (h : p.slotElement slot = .ok m)
    (hs : slot ∈ p.parameters) : m.Scoped (p.Known opens) :=
  slotMarkup_scoped h hs (by simp)

theorem Plan.placeholder_scoped (hc : hasParameter p.parameters "children" = true) :
    placeholder.Scoped (p.Known opens) := by
  exact Markup.scoped_expr (Code.scoped_ref (Plan.known_of_has hc))

/-- The content of a component only uses its parameters, of which `children` is one. -/
theorem Plan.content_scoped {c : Content} (h : p.content = .ok c)
    (hc : hasParameter p.parameters "children" = true) :
    ∀ m ∈ c.markup, m.Scoped (p.Known opens) := by
  unfold content at h
  obtain ⟨nodes, -, h⟩ := Outcome.bind_ok h
  split at h
  · split at h
    · cases h
      simpa using placeholder_scoped hc
    · obtain ⟨ms, hms, h⟩ := Outcome.bind_ok h
      cases h
      intro m hm
      obtain ⟨slot, hslot, hmade⟩ := Outcome.mem_mapM hms m hm
      exact slotElement_scoped hmade (mem_parametersOf hslot)
  · obtain ⟨inTree, -, h⟩ := Outcome.bind_ok h
    obtain ⟨given, hgiven, h⟩ := Outcome.bind_ok h
    obtain ⟨ms, hms, h⟩ := Outcome.bind_ok h
    cases h
    -- the names handed down to the layers are those of slot parameters
    refine layers_scoped (fun row hrow => ?_) _ hms
    obtain ⟨r, hr, hvalue⟩ := List.mem_map.1 (Table.mem_ofRows hrow)
    obtain ⟨slot, hslot, rfl⟩ := List.mem_map.1 hr
    exact ⟨slot.name, hvalue.symm, .parameter (mem_parametersOf (Outcome.mem_filterM hgiven _ hslot))⟩

end Content

/-! ## Templates -/

/-- The slot that labels a component is one of those it is searched in. -/
theorem mem_of_firstLabel : ∀ {ps : List Parameter} {q : Parameter},
    firstLabel? ps = .ok (some q) → q ∈ ps
  | [], q, h => by cases h
  | r :: ps, q, h => by
    rw [firstLabel?] at h
    obtain ⟨name, -, h⟩ := Outcome.bind_ok h
    split at h
    · cases h; exact List.mem_cons_self
    · exact List.mem_cons_of_mem _ (mem_of_firstLabel h)

section Templates

variable {p : Plan} {opens : Bool}

theorem Plan.button_scoped {b : Body} (h : p.button = .ok b)
    (hc : hasParameter p.parameters "children" = true) : b.markup.Scoped (p.Known b.opens) := by
  unfold button at h
  obtain ⟨aria, haria, h⟩ := Outcome.bind_ok h
  obtain ⟨handlers, hhandlers, h⟩ := Outcome.bind_ok h
  obtain ⟨content, hcontent, h⟩ := Outcome.bind_ok h
  cases h
  refine Markup.scoped_element (Markup.scoped_plain _) ?_ (content_scoped hcontent hc)
  refine List.forall_mem_append.2 ⟨List.forall_mem_append.2 ⟨List.forall_mem_append.2 ⟨?_,
    root_scoped haria (by simp)⟩, disabled_scoped⟩, handlers_scoped hhandlers id⟩
  simpa using Markup.scoped_attribute _ _

theorem Plan.beforeField_scoped (ht : p.template = .field) {slot : Parameter} {m : Markup}
    (h : p.beforeField slot = .ok m) (hs : slot ∈ p.parameters) : m.Scoped (p.Known opens) := by
  unfold beforeField at h
  obtain ⟨label, -, h⟩ := Outcome.bind_ok h
  split at h
  · exact slotMarkup_scoped h hs (List.forall_mem_singleton.2
      (Markup.scoped_codeAttribute _ (Code.scoped_ref (.inputId ht))))
  · exact slotElement_scoped h hs

theorem Plan.mem_namedSlots {named : List Parameter} (h : p.namedSlots = .ok named) :
    ∀ slot ∈ named, slot ∈ p.parameters := by
  unfold namedSlots at h
  obtain ⟨rows, hrows, h⟩ := Outcome.bind_ok h
  cases h
  intro slot hslot
  obtain ⟨row, hrow, rfl⟩ := List.mem_map.1 hslot
  obtain ⟨r, hr, hvalue⟩ := List.mem_map.1 (Table.mem_ofRows hrow)
  obtain ⟨q, hq, hmade⟩ := Outcome.mem_mapM hrows r hr
  obtain ⟨key, -, hmade⟩ := Outcome.bind_ok hmade
  cases hmade
  rw [← hvalue]
  exact mem_parametersOf hq

theorem Plan.field_scoped (ht : p.template = .field) {b : Body} (h : p.field = .ok b)
    (hc : hasParameter p.parameters "children" = true) : b.markup.Scoped (p.Known b.opens) := by
  unfold field at h
  obtain ⟨named, hnamed, h⟩ := Outcome.bind_ok h
  obtain ⟨marked, hmarked, h⟩ := Outcome.bind_ok h
  obtain ⟨front, hfront, h⟩ := Outcome.bind_ok h
  obtain ⟨aria, haria, h⟩ := Outcome.bind_ok h
  obtain ⟨handlers, hhandlers, h⟩ := Outcome.bind_ok h
  obtain ⟨back, hback, h⟩ := Outcome.bind_ok h
  cases h
  have hmarked : ∀ row ∈ marked, row.1 ∈ p.parameters := by
    intro row hrow
    obtain ⟨slot, hslot, hmade⟩ := Outcome.mem_mapM hmarked row hrow
    obtain ⟨_, -, hmade⟩ := Outcome.bind_ok hmade
    cases hmade
    exact mem_namedSlots hnamed slot hslot
  have hside : ∀ (side : Parameter × Bool → Bool), ∀ slot ∈ (marked.filter side).map (·.1),
      slot ∈ p.parameters := by
    intro side slot hslot
    obtain ⟨row, hrow, rfl⟩ := List.mem_map.1 hslot
    exact hmarked row (List.mem_of_mem_filter hrow)
  refine Markup.scoped_element (Markup.scoped_plain _) own_scoped
    (List.forall_mem_append.2 ⟨List.forall_mem_append.2 ⟨List.forall_mem_append.2 ⟨?_, ?_⟩, ?_⟩, ?_⟩)
  · intro m hm
    obtain ⟨slot, hslot, hmade⟩ := Outcome.mem_mapM hfront m hm
    exact beforeField_scoped ht hmade (hside _ slot hslot)
  · simp only [List.mem_singleton, forall_eq]
    refine Markup.scoped_element (Markup.scoped_plain _) ?_ (by simp)
    refine List.forall_mem_append.2 ⟨List.forall_mem_append.2 ⟨List.forall_mem_append.2 ⟨?_,
      aria_scoped haria (by simp)⟩, disabled_scoped⟩, handlers_scoped hhandlers id⟩
    simp only [List.mem_cons, List.not_mem_nil, or_false, forall_eq_or_imp, forall_eq]
    exact ⟨partClass_scoped _, Markup.scoped_codeAttribute _ (Code.scoped_ref (.inputId ht))⟩
  · intro m hm
    obtain ⟨slot, hslot, hmade⟩ := Outcome.mem_mapM hback m hm
    exact slotElement_scoped hmade (hside _ slot hslot)
  · split
    · simpa using placeholder_scoped hc
    · simp

theorem triggerLabel_scoped {fallback : String} {m : Markup} (h : p.triggerLabel fallback = .ok m) :
    m.Scoped (p.Known opens) := by
  unfold Plan.triggerLabel at h
  obtain ⟨label, hlabel, h⟩ := Outcome.bind_ok h
  cases label with
  | none => cases h; exact Markup.scoped_text _
  | some label =>
    cases h
    have hmem : label ∈ p.parameters := mem_parametersOf (mem_of_firstLabel hlabel)
    exact Markup.scoped_expr (by simpa [Code.Scoped] using Plan.Known.parameter hmem)

theorem part_scoped {q : Primitive} (hq : p.primitive = some q) (name : String) :
    (Plan.part q.name name).code.Scoped (p.Known opens) := by
  simpa [Plan.part, Tag.code, Code.Scoped] using Plan.Known.primitive hq

theorem Plan.bareListBox_scoped (ho : opens = true) {aria : List Attribute} {hs : List Handler}
    {content : List Markup} (ha : ∀ a ∈ aria, a.toCode.Scoped (p.Known opens))
    (hh : ∀ a ∈ handlerAttributes hs, a.toCode.Scoped (p.Known opens))
    (hc : ∀ m ∈ content, m.Scoped (p.Known opens)) :
    (p.bareListBox aria hs content).Scoped (p.Known opens) := by
  refine Markup.scoped_element (Markup.scoped_plain _)
    (List.forall_mem_append.2 ⟨List.forall_mem_append.2 ⟨ha, hh⟩, key_scoped⟩) ?_
  simp only [List.mem_singleton, forall_eq]
  refine Markup.scoped_element (Markup.scoped_plain _) ?_ hc
  simp only [List.mem_cons, List.not_mem_nil, or_false, forall_eq_or_imp, forall_eq]
  exact ⟨partClass_scoped _, Markup.scoped_attribute _ _, Markup.scoped_attribute _ _,
    by simpa [Code.Scoped] using Known.isOpen ho⟩

theorem openState_scoped (ho : opens = true) {c : Code} (hc : c.Scoped (p.Known opens)) :
    ∀ a ∈ Plan.openState c, a.toCode.Scoped (p.Known opens) := by
  unfold Plan.openState
  exact List.forall_mem_cons.2 ⟨Markup.scoped_codeAttribute _ (Code.scoped_ref (.isOpen ho)),
    List.forall_mem_singleton.2 (Markup.scoped_codeAttribute _ hc)⟩

theorem Plan.selectListBox_scoped (ho : opens = true) {q : Primitive} (hq : p.primitive = some q)
    {aria : List Attribute} {hs : List Handler} {content : List Markup}
    (ha : ∀ a ∈ aria, a.toCode.Scoped (p.Known opens))
    (hh : ∀ a ∈ handlerAttributes hs, a.toCode.Scoped (p.Known opens))
    (hc : ∀ m ∈ content, m.Scoped (p.Known opens)) :
    (p.selectListBox q.name aria hs content).Scoped (p.Known opens) := by
  have hset : Code.Scoped (p.Known opens) [.ref "setIsOpen"] := Code.scoped_ref (.setIsOpen ho)
  refine Markup.scoped_element (part_scoped hq _) (openState_scoped ho hset)
    (List.forall_mem_cons.2 ⟨?trigger, List.forall_mem_singleton.2 ?portal⟩)
  case trigger =>
    refine Markup.scoped_element (part_scoped hq _) (List.forall_mem_append.2 ⟨ha, hh⟩)
      (List.forall_mem_cons.2 ⟨?_, List.forall_mem_singleton.2 ?_⟩)
    · exact Markup.scoped_element (part_scoped hq _) (by simp [Code.Scoped]) (by simp)
    · exact Markup.scoped_element (part_scoped hq _) (by simpa using partClass_scoped _) (by simp)
  case portal =>
    refine Markup.scoped_element (part_scoped hq _) (by simp) (List.forall_mem_singleton.2 ?_)
    refine Markup.scoped_element (part_scoped hq _) ?_ (List.forall_mem_singleton.2 ?_)
    · exact List.forall_mem_cons.2 ⟨partClass_scoped _, by simpa using Markup.scoped_attribute _ _⟩
    · exact Markup.scoped_element (part_scoped hq _)
        (List.forall_mem_singleton.2 (Markup.scoped_attribute _ _)) hc

theorem Plan.popupListBox_scoped (ho : opens = true) {q : Primitive} (hq : p.primitive = some q)
    {aria : List Attribute} {hs : List Handler} {label : Markup} {content : List Markup}
    (ha : ∀ a ∈ aria, a.toCode.Scoped (p.Known opens))
    (hh : ∀ a ∈ handlerAttributes hs, a.toCode.Scoped (p.Known opens))
    (hl : label.Scoped (p.Known opens)) (hc : ∀ m ∈ content, m.Scoped (p.Known opens)) :
    (p.popupListBox q.name aria hs label content).Scoped (p.Known opens) := by
  have hset : Code.Scoped (p.Known opens) [.ref "setIsOpen"] := Code.scoped_ref (.setIsOpen ho)
  refine Markup.scoped_element (part_scoped hq _) (openState_scoped ho hset)
    (List.forall_mem_cons.2 ⟨?trigger, List.forall_mem_singleton.2 ?portal⟩)
  case trigger =>
    refine Markup.scoped_element (part_scoped hq _) (by simp [Code.Scoped])
      (List.forall_mem_singleton.2 ?_)
    refine Markup.scoped_element (Markup.scoped_plain _)
      (List.forall_mem_append.2 ⟨List.forall_mem_append.2 ⟨?_, ha⟩, hh⟩)
      (List.forall_mem_singleton.2 hl)
    simpa using Markup.scoped_attribute _ _
  case portal =>
    refine Markup.scoped_element (part_scoped hq _) (by simp) (List.forall_mem_singleton.2 ?_)
    refine Markup.scoped_element (part_scoped hq _) ?_ hc
    exact List.forall_mem_cons.2 ⟨partClass_scoped _,
      List.forall_mem_cons.2 ⟨Markup.scoped_attribute _ _, by simpa using Markup.scoped_attribute _ _⟩⟩

theorem Plan.listBox_scoped {b : Body} (h : p.listBox = .ok b)
    (hc : hasParameter p.parameters "children" = true) : b.markup.Scoped (p.Known b.opens) := by
  unfold listBox at h
  obtain ⟨aria, haria, h⟩ := Outcome.bind_ok h
  obtain ⟨handlers, hhandlers, h⟩ := Outcome.bind_ok h
  obtain ⟨markup, hmarkup, h⟩ := Outcome.bind_ok h
  obtain ⟨content, hcontent, h⟩ := Outcome.bind_ok h
  cases h
  have ha := root_scoped haria fun _ => rfl
  have hh := handlers_scoped hhandlers fun _ => rfl
  have hm : ∀ m ∈ content.markup, m.Scoped (p.Known true) := content_scoped hcontent hc
  unfold listBoxMarkup at hmarkup
  split at hmarkup
  · cases hmarkup
    exact bareListBox_scoped rfl ha hh hm
  · rename_i q hq
    split at hmarkup
    · cases hmarkup
      exact selectListBox_scoped rfl hq ha hh hm
    · obtain ⟨label, hlabel, hmarkup⟩ := Outcome.bind_ok hmarkup
      cases hmarkup
      exact popupListBox_scoped rfl hq ha hh (triggerLabel_scoped hlabel) hm

theorem Plan.bareDialog_scoped (ho : opens = true) {label : Markup} {aria : List Attribute}
    {hs : List Handler} {content : List Markup} (hl : label.Scoped (p.Known opens))
    (ha : ∀ a ∈ aria, a.toCode.Scoped (p.Known opens))
    (hh : ∀ a ∈ handlerAttributes hs, a.toCode.Scoped (p.Known opens))
    (hc : ∀ m ∈ content, m.Scoped (p.Known opens)) :
    (p.bareDialog label aria hs content).Scoped (p.Known opens) := by
  refine Markup.scoped_element (Markup.scoped_plain _) (by simp)
    (List.forall_mem_cons.2 ⟨?trigger, List.forall_mem_singleton.2 ?overlay⟩)
  case trigger =>
    refine Markup.scoped_element (Markup.scoped_plain _) ?_ (List.forall_mem_singleton.2 hl)
    exact List.forall_mem_cons.2 ⟨Markup.scoped_attribute _ _, List.forall_mem_cons.2 ⟨partClass_scoped _,
      by simpa [Code.Scoped] using Known.setIsOpen ho⟩⟩
  case overlay =>
    refine Markup.scoped_guarded (.isOpen ho) (Markup.scoped_element (Markup.scoped_plain _) ?_
      (List.forall_mem_singleton.2 ?_))
    · exact List.forall_mem_cons.2 ⟨partClass_scoped _, by simpa using Markup.scoped_attribute _ _⟩
    · exact Markup.scoped_element (Markup.scoped_plain _)
        (List.forall_mem_append.2 ⟨List.forall_mem_append.2 ⟨ha, hh⟩, key_scoped⟩) hc

theorem Plan.onOpenChange_scoped (ho : opens = true) :
    p.onOpenChange.Scoped (p.Known opens) := by
  unfold onOpenChange
  split
  · rename_i h
    simpa [Code.Scoped] using And.intro (Known.setIsOpen ho) (Plan.known_of_has h)
  · exact Code.scoped_ref (.setIsOpen ho)

theorem Plan.primitiveDialog_scoped (ho : opens = true) {q : Primitive} (hq : p.primitive = some q)
    (title : String) {label : Markup} {aria : List Attribute} {hs : List Handler}
    {content : List Markup} (hl : label.Scoped (p.Known opens))
    (ha : ∀ a ∈ aria, a.toCode.Scoped (p.Known opens))
    (hh : ∀ a ∈ handlerAttributes hs, a.toCode.Scoped (p.Known opens))
    (hc : ∀ m ∈ content, m.Scoped (p.Known opens)) :
    (p.primitiveDialog q.name label aria hs title content).Scoped (p.Known opens) := by
  refine Markup.scoped_element (part_scoped hq _) (openState_scoped ho (onOpenChange_scoped ho))
    (List.forall_mem_cons.2 ⟨?trigger, List.forall_mem_singleton.2 ?portal⟩)
  case trigger =>
    refine Markup.scoped_element (part_scoped hq _) (by simp [Code.Scoped])
      (List.forall_mem_singleton.2 ?_)
    refine Markup.scoped_element (Markup.scoped_plain _) ?_ (List.forall_mem_singleton.2 hl)
    exact List.forall_mem_cons.2 ⟨Markup.scoped_attribute _ _, by simpa using partClass_scoped _⟩
  case portal =>
    refine Markup.scoped_element (part_scoped hq _) (by simp)
      (List.forall_mem_cons.2 ⟨?_, List.forall_mem_singleton.2 ?_⟩)
    · exact Markup.scoped_element (part_scoped hq _) (by simpa using partClass_scoped _) (by simp)
    · refine Markup.scoped_element (part_scoped hq _) (List.forall_mem_append.2 ⟨ha, hh⟩)
        (List.forall_mem_append.2 ⟨List.forall_mem_singleton.2 ?_, hc⟩)
      refine Markup.scoped_element (part_scoped hq _) ?_
        (List.forall_mem_singleton.2 (Markup.scoped_text _))
      exact List.forall_mem_cons.2 ⟨partClass_scoped _, by simpa using Markup.scoped_attribute _ _⟩

theorem Plan.dialog_scoped {b : Body} (h : p.dialog = .ok b)
    (hc : hasParameter p.parameters "children" = true) : b.markup.Scoped (p.Known b.opens) := by
  unfold dialog at h
  obtain ⟨label, hlabel, h⟩ := Outcome.bind_ok h
  obtain ⟨aria, haria, h⟩ := Outcome.bind_ok h
  obtain ⟨handlers, hhandlers, h⟩ := Outcome.bind_ok h
  obtain ⟨markup, hmarkup, h⟩ := Outcome.bind_ok h
  obtain ⟨content, hcontent, h⟩ := Outcome.bind_ok h
  cases h
  have ha := root_scoped haria fun _ => rfl
  have hh := handlers_scoped hhandlers fun _ => rfl
  have hm : ∀ m ∈ content.markup, m.Scoped (p.Known true) := content_scoped hcontent hc
  unfold dialogMarkup at hmarkup
  split at hmarkup
  · cases hmarkup
    exact bareDialog_scoped rfl (triggerLabel_scoped hlabel) ha hh hm
  · rename_i q hq
    obtain ⟨title, -, hmarkup⟩ := Outcome.bind_ok hmarkup
    cases hmarkup
    exact primitiveDialog_scoped rfl hq title (triggerLabel_scoped hlabel) ha hh hm

theorem Plan.container_scoped {b : Body} (h : p.container = .ok b)
    (hc : hasParameter p.parameters "children" = true) : b.markup.Scoped (p.Known b.opens) := by
  unfold container at h
  obtain ⟨aria, haria, h⟩ := Outcome.bind_ok h
  obtain ⟨handlers, hhandlers, h⟩ := Outcome.bind_ok h
  obtain ⟨content, hcontent, h⟩ := Outcome.bind_ok h
  cases h
  refine Markup.scoped_element (Markup.scoped_plain _) ?_ (content_scoped hcontent hc)
  exact List.forall_mem_append.2 ⟨List.forall_mem_append.2 ⟨List.forall_mem_append.2
    ⟨root_scoped haria (by simp), disabledAria_scoped⟩, handlers_scoped hhandlers id⟩, key_scoped⟩

/-- Every template only writes names that are known. -/
theorem Plan.body_scoped {b : Body} (h : p.body = .ok b)
    (hc : hasParameter p.parameters "children" = true) : b.markup.Scoped (p.Known b.opens) := by
  unfold body at h
  split at h
  · exact button_scoped h hc
  · rename_i ht
    exact field_scoped ht h hc
  · exact listBox_scoped h hc
  · exact dialog_scoped h hc
  · exact container_scoped h hc

end Templates

end Maquette.Component
