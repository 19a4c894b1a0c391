/-
What a component makes nothing of. Taking a parameter away from a plan leaves the attributes of its
outermost element as they are, and what the component does before its markup as well, unless the
parameter stands for one of these. So when neither its content nor its label mentions the parameter,
every name that a component uses is one that is known without it, and the parameter's own name is not
among these. List boxes and dialogs make nothing of the parameter that says whether the component is
disabled.
-/
import Maquette.Proofs.Component.Binding

namespace Maquette.Component

/-! ## Without a parameter -/

/-- A plan without the parameters of a name. -/
def Plan.without (p : Plan) (name : String) : Plan :=
  { p with parameters := p.parameters.filter (·.name != name) }

/-- A name that stands for no property of the variants, no accessibility entry and no event. -/
structure Plan.IsApart (p : Plan) (name : String) : Prop where
  kind : ∀ q ∈ p.parameters, q.name = name → q.kind ≠ .variant ∧ q.kind ≠ .aria
  event : name ∉ eventTypes.map Prod.fst

/-- The names that a component binds itself. -/
def boundNames : List String :=
  ["React", "componentClassName", "overrideStyles", "interactionState", "setInteractionState",
   "isOpen", "setIsOpen", "handleKeyDown", "inputId", "toClassName"]

/-- A name that nothing but parameters has. -/
structure Plan.IsFree (p : Plan) (name : String) : Prop where
  bound : name ∉ boundNames
  stateType : name ≠ p.name ++ "State"
  primitive : ∀ q ∈ p.primitive, q.name ≠ name

namespace Plan

variable {p : Plan} {name : String}

theorem without_parametersOf {kind : ParameterKind}
    (h : ∀ q ∈ p.parameters, q.name = name → q.kind ≠ kind) :
    parametersOf (p.without name).parameters kind = parametersOf p.parameters kind := by
  unfold parametersOf without
  rw [List.filter_filter]
  refine List.filter_congr fun q hq => ?_
  by_cases hn : q.name = name
  · simp [hn, h q hq hn]
  · simp [hn]

theorem without_parameter? {kind : ParameterKind}
    (h : ∀ q ∈ p.parameters, q.name = name → q.kind ≠ kind) (source : String) :
    parameter? (p.without name).parameters kind source = parameter? p.parameters kind source := by
  have hfind : ∀ ps : List Parameter,
      parameter? ps kind source = (parametersOf ps kind).find? (·.source.isThe source) := by
    intro ps
    rw [parametersOf, List.find?_filter]
    simp [parameter?]
  rw [hfind, hfind, without_parametersOf h]

theorem without_has {other : String} (hn : other ≠ name) :
    hasParameter (p.without name).parameters other = hasParameter p.parameters other := by
  unfold hasParameter without
  rw [List.any_filter]
  refine List.any_congr rfl fun q => ?_
  by_cases hq : q.name = other
  · simp [hq, hn]
  · simp [hq]

theorem known_without {opens : Bool} {other : String}
    (hv : ∀ q ∈ p.parameters, q.name = name → q.kind ≠ .variant) (h : p.Known opens other)
    (hn : other ≠ name) : (p.without name).Known opens other := by
  cases h with
  | react => exact .react
  | ownClass => exact .ownClass
  | ownStyle => exact .ownStyle
  | state hm => exact .state hm
  | setState hm => exact .setState hm
  | stateType hm => exact .stateType hm
  | isOpen ho => exact .isOpen ho
  | setIsOpen ho => exact .setIsOpen ho
  | keys hk => exact .keys hk
  | inputId ht => exact .inputId ht
  | classHelper hvariants => exact .classHelper (by rwa [without_parametersOf hv])
  | primitive hq => exact .primitive hq
  | parameter hq => exact .parameter (List.mem_filter.2 ⟨hq, by simpa using hn⟩)

/-- Without the parameters that have it, a name that nothing else has is unknown. -/
theorem not_known_without {opens : Bool} (h : p.IsFree name) : ¬ (p.without name).Known opens name := by
  obtain ⟨hbound, hstate, hprimitive⟩ := h
  have hother : ∀ other, (p.without name).Known opens other → other ≠ name := by
    intro other hknown he
    cases hknown with
    | stateType => exact hstate he.symm
    | primitive hq => exact hprimitive _ hq he
    | parameter hq => simpa [he] using (List.mem_filter.1 hq).2
    | _ => exact hbound (he ▸ by decide)
  exact fun hknown => hother _ hknown rfl

section Apart

variable (h : p.IsApart name)

include h

theorem without_forwarded (trigger : String) :
    isForwarded (p.without name).parameters trigger = isForwarded p.parameters trigger := by
  unfold isForwarded
  by_cases hn : trigger = name
  · have hnone : eventTypes.lookup trigger = none :=
      List.lookup_eq_none_iff.2 fun row hrow => bne_iff_ne.2 fun he =>
        h.event (List.mem_map.2 ⟨row, hrow, he.symm.trans hn⟩)
    rw [hnone]
    rfl
  · rw [without_has hn]

theorem without_handlers (exclude : List String) :
    (p.without name).handlersBut exclude = p.handlersBut exclude := by
  have hhandler : ∀ b, handler b (p.without name).parameters = handler b p.parameters := by
    intro b
    funext trigger
    unfold handler
    simp only [without_forwarded h]
  unfold handlersBut handlers
  rw [hhandler]
  rfl

theorem without_root : (p.without name).rootAttributes = p.rootAttributes := by
  have hattribute : ariaAttribute? (p.without name).parameters = ariaAttribute? p.parameters := by
    funext opens withRole key value
    unfold ariaAttribute?
    have haria := without_parameter? fun q hq hn => (h.kind q hq hn).2
    rw [haria]
  funext opens withRole
  unfold rootAttributes aria ariaAttributesOf
  rw [hattribute]
  rfl

theorem without_change : (p.without name).onOpenChange = p.onOpenChange := by
  unfold onOpenChange has
  have hother : "onOpenChange" ≠ name := by
    rintro rfl
    exact h.event (by decide)
  rw [without_has hother]

end Apart

/-! ## Templates around other content -/

section Around

variable {b : Body}

/-- A button uses names that are known without a parameter when its content does. -/
theorem button_without (h : p.IsApart name) (hd : name ≠ "disabled") (hb : p.button = .ok b)
    (hc : ∀ c, p.content = .ok c → ∀ m ∈ c.markup, m.Scoped ((p.without name).Known b.opens)) :
    b.markup.Scoped ((p.without name).Known b.opens) := by
  unfold button at hb
  obtain ⟨root, hroot, hb⟩ := Outcome.bind_ok hb
  obtain ⟨handlers, hhandlers, hb⟩ := Outcome.bind_ok hb
  obtain ⟨content, hcontent, hb⟩ := Outcome.bind_ok hb
  cases hb
  have hdisabled : (p.without name).disabledAttribute = p.disabledAttribute := by
    unfold disabledAttribute has
    rw [without_has hd.symm]
  rw [← without_root h] at hroot
  rw [← without_handlers h] at hhandlers
  refine Markup.scoped_element (Markup.scoped_plain _) ?_ (hc _ hcontent)
  refine List.forall_mem_append.2 ⟨List.forall_mem_append.2 ⟨List.forall_mem_append.2 ⟨?_,
    root_scoped hroot (by simp)⟩, hdisabled ▸ disabled_scoped⟩, handlers_scoped hhandlers id⟩
  simpa using Markup.scoped_attribute _ _

theorem container_without (h : p.IsApart name) (hd : name ≠ "disabled") (hb : p.container = .ok b)
    (hc : ∀ c, p.content = .ok c → ∀ m ∈ c.markup, m.Scoped ((p.without name).Known b.opens)) :
    b.markup.Scoped ((p.without name).Known b.opens) := by
  unfold container at hb
  obtain ⟨root, hroot, hb⟩ := Outcome.bind_ok hb
  obtain ⟨handlers, hhandlers, hb⟩ := Outcome.bind_ok hb
  obtain ⟨content, hcontent, hb⟩ := Outcome.bind_ok hb
  cases hb
  have hdisabled : (p.without name).disabledAria = p.disabledAria := by
    unfold disabledAria has
    rw [without_has hd.symm]
    rfl
  rw [← without_root h] at hroot
  rw [← without_handlers h] at hhandlers
  refine Markup.scoped_element (Markup.scoped_plain _) ?_ (hc _ hcontent)
  exact List.forall_mem_append.2 ⟨List.forall_mem_append.2 ⟨List.forall_mem_append.2
    ⟨root_scoped hroot (by simp), hdisabled ▸ disabledAria_scoped⟩, handlers_scoped hhandlers id⟩,
    key_scoped (p := p.without name)⟩

theorem listBox_without (h : p.IsApart name) (hb : p.listBox = .ok b)
    (hc : ∀ c, p.content = .ok c → ∀ m ∈ c.markup, m.Scoped ((p.without name).Known b.opens))
    (hl : p.primitive.any (·.name != "Select") = true → ∀ m fallback,
      p.triggerLabel fallback = .ok m → m.Scoped ((p.without name).Known b.opens)) :
    b.markup.Scoped ((p.without name).Known b.opens) := by
  unfold listBox at hb
  obtain ⟨root, hroot, hb⟩ := Outcome.bind_ok hb
  obtain ⟨handlers, hhandlers, hb⟩ := Outcome.bind_ok hb
  obtain ⟨markup, hmarkup, hb⟩ := Outcome.bind_ok hb
  obtain ⟨content, hcontent, hb⟩ := Outcome.bind_ok hb
  cases hb
  rw [← without_root h] at hroot
  rw [← without_handlers h] at hhandlers
  have ha := root_scoped hroot fun _ => rfl
  have hh := handlers_scoped hhandlers fun _ => rfl
  have hm := hc _ hcontent
  unfold listBoxMarkup at hmarkup
  split at hmarkup
  · cases hmarkup
    exact bareListBox_scoped (p := p.without name) rfl ha hh hm
  · rename_i q hq
    split at hmarkup
    · cases hmarkup
      exact selectListBox_scoped (p := p.without name) rfl hq ha hh hm
    · rename_i hother
      obtain ⟨label, hlabel, hmarkup⟩ := Outcome.bind_ok hmarkup
      cases hmarkup
      have hlabels : p.primitive.any (·.name != "Select") = true := by
        rw [hq]
        simpa using hother
      exact popupListBox_scoped (p := p.without name) rfl hq ha hh (hl hlabels _ _ hlabel) hm

theorem dialog_without (h : p.IsApart name) (hb : p.dialog = .ok b)
    (hc : ∀ c, p.content = .ok c → ∀ m ∈ c.markup, m.Scoped ((p.without name).Known b.opens))
    (hl : ∀ m fallback, p.triggerLabel fallback = .ok m →
      m.Scoped ((p.without name).Known b.opens)) :
    b.markup.Scoped ((p.without name).Known b.opens) := by
  unfold dialog at hb
  obtain ⟨label, hlabel, hb⟩ := Outcome.bind_ok hb
  obtain ⟨root, hroot, hb⟩ := Outcome.bind_ok hb
  obtain ⟨handlers, hhandlers, hb⟩ := Outcome.bind_ok hb
  obtain ⟨markup, hmarkup, hb⟩ := Outcome.bind_ok hb
  obtain ⟨content, hcontent, hb⟩ := Outcome.bind_ok hb
  cases hb
  rw [← without_root h] at hroot
  rw [← without_handlers h] at hhandlers
  have ha := root_scoped hroot fun _ => rfl
  have hh := handlers_scoped hhandlers fun _ => rfl
  have hm := hc _ hcontent
  unfold dialogMarkup at hmarkup
  split at hmarkup
  · cases hmarkup
    exact bareDialog_scoped (p := p.without name) rfl (hl _ _ hlabel) ha hh hm
  · rename_i q hq
    obtain ⟨title, -, hmarkup⟩ := Outcome.bind_ok hmarkup
    cases hmarkup
    have hfound : (p.without name).primitive = some q := hq
    have hscoped := primitiveDialog_scoped rfl hfound title (hl _ _ hlabel) ha hh hm
    unfold primitiveDialog at hscoped ⊢
    rwa [without_change h] at hscoped

/-- Whether something that opens the component shows its label. -/
def labelsTrigger (p : Plan) : Bool :=
  match p.template with
  | .dialog => true
  | .listBox => p.primitive.any (·.name != "Select")
  | _ => false

/-- Apart from fields, a component uses names that are known without a parameter when its content and its
label do. -/
theorem body_without (h : p.IsApart name) (hd : name ≠ "disabled") (ht : p.template ≠ .field)
    (hb : p.body = .ok b)
    (hc : ∀ c, p.content = .ok c → ∀ m ∈ c.markup, m.Scoped ((p.without name).Known b.opens))
    (hl : p.labelsTrigger = true → ∀ m fallback, p.triggerLabel fallback = .ok m →
      m.Scoped ((p.without name).Known b.opens)) :
    b.markup.Scoped ((p.without name).Known b.opens) := by
  unfold body at hb
  unfold labelsTrigger at hl
  split at hb <;> rename_i htemplate
  · exact button_without h hd hb hc
  · exact absurd htemplate ht
  · rw [htemplate] at hl
    exact listBox_without h hb hc hl
  · rw [htemplate] at hl
    exact dialog_without h hb hc (hl rfl)
  · exact container_without h hd hb hc

end Around

/-! ## Whether a component is disabled -/

/-- At most a parameter that stands for nothing in the documents has the name. -/
def SparesDisabled (p : Plan) : Prop := ∀ q ∈ p.parameters, q.name = "disabled" → q.kind = .base

section Disabled

variable (h : p.SparesDisabled)

include h

theorem SparesDisabled.isApart : p.IsApart "disabled" :=
  ⟨fun q hq hn => by simp [h q hq hn], by decide⟩

theorem SparesDisabled.slots :
    parametersOf (p.without "disabled").parameters .slot = parametersOf p.parameters .slot :=
  without_parametersOf fun q hq hn => by simp [h q hq hn]

theorem SparesDisabled.content : (p.without "disabled").content = p.content := by
  unfold Plan.content Plan.slots
  rw [h.slots]
  rfl

theorem SparesDisabled.label (fallback : String) :
    (p.without "disabled").triggerLabel fallback = p.triggerLabel fallback := by
  unfold triggerLabel labelParameter?
  rw [h.slots]

/-- A list box or a dialog uses names that are known without the parameter that says whether it is
disabled. -/
theorem SparesDisabled.scoped {b : Body} (ht : p.template = .listBox ∨ p.template = .dialog)
    (hb : p.body = .ok b) (hc : hasParameter (p.without "disabled").parameters "children" = true) :
    b.markup.Scoped ((p.without "disabled").Known b.opens) := by
  have hcontent : ∀ c, p.content = .ok c →
      ∀ m ∈ c.markup, m.Scoped ((p.without "disabled").Known b.opens) := fun c hcontent =>
    content_scoped (h.content.trans hcontent) hc
  have hlabel : ∀ m fallback, p.triggerLabel fallback = .ok m →
      m.Scoped ((p.without "disabled").Known b.opens) := fun m fallback hlabel =>
    triggerLabel_scoped ((h.label fallback).trans hlabel)
  unfold body at hb
  rcases ht with ht | ht <;> rw [ht] at hb
  · exact listBox_without h.isApart hb hcontent fun _ => hlabel
  · exact dialog_without h.isApart hb hcontent hlabel

end Disabled

end Plan

/-! ## What a component does not use -/

namespace Source

variable {s : Source} {name : String}

/-- A component uses none of the names that only a parameter has which its markup makes nothing of. -/
theorem unused_of_scoped (hp : s.plan.IsComplete) (hf : s.plan.IsFree name)
    (hv : ∀ q ∈ s.plan.parameters, q.name = name → q.kind ≠ .variant)
    (hfixed : name ∉ ["tokenOverrides", "className", "children", "onKeyboardAction"])
    (hb : s.body.markup.Scoped ((s.plan.without name).Known s.body.opens)) :
    name ∉ Markup.Line.refs s.setup ∧ name ∉ s.body.markup.names := by
  have hhas : ∀ other ∈ ["tokenOverrides", "className", "children", "onKeyboardAction"],
      hasParameter s.plan.parameters other = true →
        hasParameter (s.plan.without name).parameters other = true := by
    intro other hother hgiven
    have hne : other ≠ name := by
      rintro rfl
      exact hfixed hother
    rwa [Plan.without_has hne]
  have hcomplete : (s.plan.without name).IsComplete := by
    obtain ⟨hoverrides, hclass, hchildren, hkeys⟩ := hp
    exact ⟨hhas _ (by simp) hoverrides, hhas _ (by simp) hclass, hhas _ (by simp) hchildren,
      fun hk => hhas _ (by simp) (hkeys hk)⟩
  have hsetup := setup_known (s := { s with plan := s.plan.without name }) hcomplete hb
  have hsame : Source.setup { s with plan := s.plan.without name } = s.setup := by
    have hvariants : Source.variants { s with plan := s.plan.without name } = s.variants :=
      Plan.without_parametersOf hv
    unfold setup classNames
    rw [hvariants]
    rfl
  rw [hsame] at hsetup
  exact ⟨fun hm => Plan.not_known_without hf (hsetup _ hm),
    fun hm => Plan.not_known_without hf (hb _ hm)⟩

/-- A list box or a dialog does not use the parameter that says whether it is disabled. -/
theorem disabled_unused (hp : s.plan.IsComplete) (h : s.plan.SparesDisabled)
    (hq : ∀ q ∈ s.plan.primitive, q.name ≠ "disabled")
    (ht : s.plan.template = .listBox ∨ s.plan.template = .dialog)
    (hb : s.plan.body = .ok s.body) :
    "disabled" ∉ Markup.Line.refs (s.setup ++ s.body.markup.lines 2) := by
  have hfree : s.plan.IsFree "disabled" := by
    refine ⟨by decide, fun he => ?_, hq⟩
    have := congrArg (fun s => s.toList.getLast?) he
    simp [String.toList_append] at this
  have hchildren : hasParameter (s.plan.without "disabled").parameters "children" = true := by
    rw [Plan.without_has (by decide)]
    exact hp.children
  obtain ⟨hsetup, hbody⟩ := unused_of_scoped hp hfree (fun q hq hn => by simp [h q hq hn])
    (by decide) (h.scoped ht hb hchildren)
  rw [Markup.Line.refs_append, Markup.refs_lines, List.mem_append, not_or]
  exact ⟨hsetup, hbody⟩

end Source

end Maquette.Component
