/-
A component binds every name that it uses: whatever its documents say, a name that is written in its
code is imported, declared, or taken from the parameters in the same text. The names that the parts of
a component may use are known; each of the known ones that is written is bound, the declared ones
because they are declared under the same condition, and the parameters because those that are used are
taken.
-/
import Maquette.Proofs.Component.Names
import Maquette.Component.Artifacts

namespace Maquette.Component

open Markup (Code Line Piece)

/-- The parameters that every component has, and the one for keys where it answers to them. -/
structure Plan.IsComplete (p : Plan) : Prop where
  overrides : hasParameter p.parameters "tokenOverrides" = true
  className : hasParameter p.parameters "className" = true
  children : hasParameter p.parameters "children" = true
  keys : p.handlesKeys = true → hasParameter p.parameters "onKeyboardAction" = true

namespace Source

variable {s : Source}

/-! ## Sections of a component -/

theorem binds_lines (s : Source) : Line.binds s.lines =
    Line.binds s.imports ++ Line.binds s.classHelper ++ Line.binds s.signature ++
      Line.binds s.setup ++ Line.binds (s.body.markup.lines 2) ++ Line.binds s.ending := by
  simp [lines]

theorem refs_lines (s : Source) : Line.refs s.lines =
    Line.refs s.imports ++ Line.refs s.classHelper ++ Line.refs s.signature ++
      Line.refs s.setup ++ Line.refs (s.body.markup.lines 2) ++ Line.refs s.ending := by
  simp [lines]

theorem mem_binds {name : String} (h : name ∈ Line.binds s.imports ∨
    name ∈ Line.binds s.classHelper ∨ name ∈ Line.binds s.signature ∨ name ∈ Line.binds s.setup) :
    name ∈ Line.binds s.lines := by
  rw [binds_lines]
  simp only [List.mem_append]
  tauto

/-! ## Names that are bound -/

theorem react_bound : "React" ∈ Line.binds s.imports := by simp [imports]

theorem propsType_bound : s.propsType ∈ Line.binds s.imports := by simp [imports]

theorem primitive_bound {q : Primitive} (h : s.plan.primitive = some q) :
    q.name ∈ Line.binds s.imports := by
  simp [imports, h]

theorem stateType_bound (h : s.isMultiState = true) : s.stateType ∈ Line.binds s.imports := by
  simp [imports, h]

theorem name_bound : s.name ∈ Line.binds s.signature := by simp [signature]

theorem classHelper_bound (h : s.variants ≠ []) : "toClassName" ∈ Line.binds s.classHelper := by
  simp [classHelper, h]

/-- A parameter that the component uses is taken. -/
theorem parameter_bound {p : Parameter} (hp : p ∈ s.plan.parameters) (hu : p.name ∈ s.uses) :
    p.name ∈ Line.binds s.signature := by
  have ht : p ∈ s.taken := List.mem_filter.2 ⟨hp, by simpa using hu⟩
  have hl : p.name ∈ (parameterLine p).code.binds := by
    unfold parameterLine
    split <;> simp
  have : p.name ∈ Line.binds (s.taken.map parameterLine) :=
    List.mem_flatMap.2 ⟨_, List.mem_map_of_mem ht, hl⟩
  simp [signature, this]

/-- What is declared before the markup. -/
theorem setup_bound {name : String} (h : name ∈ Line.binds s.hooks ∨ name ∈ Line.binds overrides ∨
    name ∈ Line.binds s.classNames ∨ name ∈ Line.binds s.keys) : name ∈ Line.binds s.setup := by
  simp only [setup, Line.binds_append, List.mem_append]
  tauto

theorem hooks_bound {name : String} (h : name ∈ Line.binds s.hooks) : name ∈ Line.binds s.lines :=
  mem_binds (.inr (.inr (.inr (setup_bound (.inl h)))))

/-- A known name that the component uses is bound. -/
theorem known_bound {name : String} (h : s.plan.Known s.body.opens name) (hu : name ∈ s.uses) :
    name ∈ Line.binds s.lines := by
  cases h with
  | react => exact mem_binds (.inl react_bound)
  | ownClass =>
    have hown : "componentClassName" ∈ Line.binds s.classNames := by simp [classNames]
    exact mem_binds (.inr (.inr (.inr (setup_bound (.inr (.inr (.inl hown)))))))
  | ownStyle =>
    have hown : "overrideStyles" ∈ Line.binds overrides := by simp [overrides]
    exact mem_binds (.inr (.inr (.inr (setup_bound (.inr (.inl hown))))))
  | state hm | setState hm =>
    have hm : s.isMultiState = true := hm
    exact hooks_bound (by simp [hooks, hm])
  | stateType hm => exact mem_binds (.inl (stateType_bound hm))
  | isOpen ho | setIsOpen ho => exact hooks_bound (by simp [hooks, ho])
  | keys hk =>
    have hkeys : "handleKeyDown" ∈ Line.binds s.keys := by simp [keys, hk, keyHandler]
    exact mem_binds (.inr (.inr (.inr (setup_bound (.inr (.inr (.inr hkeys)))))))
  | inputId ht => exact hooks_bound (by simp [hooks, ht])
  | classHelper hv => exact mem_binds (.inr (.inl (classHelper_bound hv)))
  | primitive hq => exact mem_binds (.inl (primitive_bound hq))
  | parameter hp => exact mem_binds (.inr (.inr (.inl (parameter_bound hp hu))))

/-! ## Names that are used -/

theorem imports_refs (s : Source) : Line.refs s.imports = [] := by
  unfold imports
  cases s.plan.primitive <;> cases s.isMultiState <;> simp

theorem classHelper_refs (s : Source) : Line.refs s.classHelper = [] := by
  unfold classHelper
  split <;> simp

theorem signature_refs (s : Source) : ∀ name ∈ Line.refs s.signature,
    name = "React" ∨ name = s.propsType := by
  have hline : ∀ ps : List Parameter, Line.refs (ps.map parameterLine) = [] := by
    intro ps
    induction ps with
    | nil => rfl
    | cons p ps ih =>
      rw [List.map_cons, Line.refs_cons, ih, List.append_nil]
      unfold parameterLine
      split <;> simp
  simp [signature, hline]

theorem hooks_known : ∀ name ∈ Line.refs s.hooks, s.plan.Known s.body.opens name := by
  have hreact : s.plan.Known s.body.opens "React" := .react
  unfold hooks
  simp only [Line.refs_append, List.forall_mem_append]
  refine ⟨⟨?_, ?_⟩, ?_⟩
  · split
    · simpa using hreact
    · simp
  · split
    · rename_i hm
      have htype : s.plan.Known s.body.opens s.stateType := .stateType hm
      simpa using And.intro hreact htype
    · simp
  · split
    · simpa using hreact
    · simp

theorem classNames_known (hp : s.plan.IsComplete)
    (hb : s.body.markup.Scoped (s.plan.Known s.body.opens)) :
    ∀ name ∈ Line.refs s.classNames, s.plan.Known s.body.opens name := by
  have hclass : s.plan.Known s.body.opens "className" := Plan.known_of_has hp.className
  unfold classNames
  simp only [Line.refs_append, List.forall_mem_append]
  refine ⟨⟨⟨⟨by simp, ?state⟩, ?variants⟩, ?disabled⟩, by simpa using hclass⟩
  case state =>
    split
    · rename_i hm
      have hstate : s.plan.Known s.body.opens "interactionState" := .state hm
      simpa using hstate
    · simp
  case variants =>
    intro name hname
    obtain ⟨line, hline, hname⟩ := List.mem_flatMap.1 hname
    obtain ⟨p, hpv, rfl⟩ := List.mem_map.1 hline
    have hname : name = p.name ∨ name = "toClassName" := by
      simp [variantClass] at hname
      tauto
    rcases hname with rfl | rfl
    · exact .parameter (mem_parametersOf hpv)
    · exact .classHelper (List.ne_nil_of_mem hpv)
  case disabled =>
    -- the class is only added when the markup uses the parameter
    split
    · rename_i hd
      rw [bodyRefs, Markup.refs_eq, List.contains_iff_mem] at hd
      simp only [Markup.allNames, List.append_nil] at hd
      simpa using hb _ hd
    · simp

theorem keys_known (hp : s.plan.IsComplete) :
    ∀ name ∈ Line.refs s.keys, s.plan.Known s.body.opens name := by
  have hreact : s.plan.Known s.body.opens "React" := .react
  unfold keys
  split
  · rename_i hk
    have haction : s.plan.Known s.body.opens "onKeyboardAction" := Plan.known_of_has (hp.keys hk)
    have hline : ∀ k, ∀ name ∈ Line.refs (keyLines s.body.opens k),
        s.plan.Known s.body.opens name := by
      intro k
      unfold keyLines
      simp only [Line.refs_append, List.forall_mem_append]
      refine ⟨⟨⟨⟨by simp, ?_⟩, ?_⟩, ?_⟩, by simpa using haction⟩
      · split <;> simp
      · split
        · rename_i ho
          simpa [Change.code] using Plan.Known.setIsOpen (Bool.and_eq_true_iff.1 ho).1
        · simp
      · split
        · rename_i ho
          simpa [Change.code] using Plan.Known.setIsOpen (Bool.and_eq_true_iff.1 ho).1
        · simp
    have hkeys : ∀ name ∈ Line.refs (s.answered.flatMap (keyLines s.body.opens)),
        s.plan.Known s.body.opens name := by
      intro name hname
      obtain ⟨line, hl, hname⟩ := List.mem_flatMap.1 hname
      obtain ⟨k, -, hl⟩ := List.mem_flatMap.1 hl
      exact hline k name (List.mem_flatMap.2 ⟨line, hl, hname⟩)
    unfold keyHandler
    simp only [Line.refs_append, List.forall_mem_append]
    exact ⟨by simp, ⟨by simpa using hreact, hkeys⟩, by simp⟩
  · simp

/-- What the component does before its markup only uses names that are known. -/
theorem setup_known (hp : s.plan.IsComplete)
    (hb : s.body.markup.Scoped (s.plan.Known s.body.opens)) :
    ∀ name ∈ Line.refs s.setup, s.plan.Known s.body.opens name := by
  have hreact : s.plan.Known s.body.opens "React" := .react
  have htokens : s.plan.Known s.body.opens "tokenOverrides" := Plan.known_of_has hp.overrides
  unfold setup
  simp only [Line.refs_append, List.forall_mem_append]
  refine ⟨⟨⟨hooks_known, ?_⟩, classNames_known hp hb⟩, keys_known hp⟩
  simpa [overrides] using ⟨htokens, hreact⟩

theorem body_used {name : String} (h : name ∈ Line.refs (s.body.markup.lines 2)) :
    name ∈ s.bodyRefs ∧ name ∈ s.body.markup.names := by
  rw [Markup.refs_lines] at h
  refine ⟨?_, h⟩
  rw [bodyRefs, Markup.refs_eq]
  simp [Markup.allNames, h]

/-- Every name that a component uses is bound in it. -/
theorem refs_bound (hp : s.plan.IsComplete) (hb : s.body.markup.Scoped (s.plan.Known s.body.opens)) :
    ∀ name ∈ Line.refs s.lines, name ∈ Line.binds s.lines := by
  intro name hname
  rw [refs_lines] at hname
  simp only [List.mem_append] at hname
  -- the sections in the order in which they are written
  rcases hname with ((((hname | hname) | hname) | hname) | hname) | hname
  · rw [imports_refs] at hname; cases hname
  · rw [classHelper_refs] at hname; cases hname
  · rcases signature_refs s name hname with rfl | rfl
    · exact mem_binds (.inl react_bound)
    · exact mem_binds (.inl propsType_bound)
  · exact known_bound (setup_known hp hb name hname) (by simp [uses, hname])
  · obtain ⟨hu, hm⟩ := body_used hname
    exact known_bound (hb name hm) (by simp [uses, hu])
  · have hname : name = s.name := by simpa [ending] using hname
    rw [hname]
    exact mem_binds (.inr (.inr (.inl name_bound)))

end Source

/-! ## The component of a design -/

theorem isComplete_of_parameters {p : Plan}
    (h : p.parameters = parameters p.blueprint p.handlesKeys) : p.IsComplete := by
  have hclosing : ∀ q ∈ closingParameters, hasParameter p.parameters q.name = true := by
    intro q hq
    rw [h]
    exact List.any_eq_true.2 ⟨q, List.mem_append_right _ hq, beq_self_eq_true _⟩
  refine ⟨hclosing _ List.mem_cons_self, hclosing _ (List.mem_cons_of_mem _ List.mem_cons_self),
    hclosing _ (List.mem_cons_of_mem _ (List.mem_cons_of_mem _ List.mem_cons_self)), fun hk => ?_⟩
  rw [h, hk]
  refine List.any_eq_true.2 ⟨keyParameter, List.mem_append_left _ ?_, rfl⟩
  exact List.mem_append_right _ List.mem_cons_self

/-- The steps in which a plan is made. -/
theorem plan_steps {name : String} {outline tokens interaction matched : Datum} {p : Plan}
    {ns ms : List Notice} (h : (plan name outline tokens interaction matched).after ns = (.ok p, ms)) :
    p.name = name ∧ Blueprint.read outline interaction = .ok p.blueprint ∧
      p.parameters = parameters p.blueprint p.handlesKeys ∧
      ∃ category, categoryOf interaction = .ok category ∧ p.template = .of (.ofDatum category) ∧
        p.template.primitive? interaction = .ok p.primitive ∧
        p.template.handlesKeys interaction p.primitive = .ok p.handlesKeys := by
  unfold plan at h
  obtain ⟨category, hcategory, h⟩ := Run.after_lift_bind_ok h
  obtain ⟨ns', h⟩ := Run.after_ite_note h
  obtain ⟨primitive, hprimitive, h⟩ := Run.after_lift_bind_ok h
  obtain ⟨handlesKeys, hhandles, h⟩ := Run.after_lift_bind_ok h
  obtain ⟨blueprint, hblueprint, h⟩ := Run.after_lift_bind_ok h
  obtain ⟨table, -, h⟩ := Run.after_lift_bind_ok h
  cases h
  obtain ⟨d, hd, hkey⟩ := Outcome.bind_ok hcategory
  obtain rfl := Datum.asKey_ok hkey
  exact ⟨rfl, hblueprint, rfl, _, hd, rfl, hprimitive, hhandles⟩

/-- What a plan is made of. -/
theorem plan_ok {name : String} {outline tokens interaction matched : Datum} {p : Plan}
    {ns ms : List Notice} (h : (plan name outline tokens interaction matched).after ns = (.ok p, ms)) :
    p.name = name ∧ p.parameters = parameters p.blueprint p.handlesKeys ∧
      ∃ category, categoryOf interaction = .ok category ∧ p.template = .of (.ofDatum category) ∧
        p.template.primitive? interaction = .ok p.primitive := by
  obtain ⟨hname, -, hparameters, category, hcategory, htemplate, hprimitive, -⟩ := plan_steps h
  exact ⟨hname, hparameters, category, hcategory, htemplate, hprimitive⟩

/-- The steps in which a component is composed. -/
theorem compose_steps {title outline tokens interaction matched : Datum} {s : Source}
    {ns ms : List Notice}
    (h : (compose title outline tokens interaction matched).after ns = (.ok s, ms)) :
    ∃ name ms', componentName title = .ok name ∧
      (plan name outline tokens interaction matched).after ns = (.ok s.plan, ms') ∧
      s.plan.body = .ok s.body ∧
      (s.plan.handlesKeys = true → s.plan.blueprint.keys = .ok s.answered) := by
  unfold compose at h
  obtain ⟨name, hname, h⟩ := Run.after_lift_bind_ok h
  obtain ⟨p, ns', hp, h⟩ := Run.after_bind_ok h
  obtain ⟨body, hbody, h⟩ := Run.after_lift_bind_ok h
  refine ⟨name, ns', hname, ?_⟩
  split at h
  · obtain ⟨answered, hanswered, h⟩ := Run.after_lift_bind_ok h
    cases h; exact ⟨hp, hbody, fun _ => hanswered⟩
  · rename_i hk
    cases h; exact ⟨hp, hbody, fun hk' => absurd hk' hk⟩

/-- A component is composed of a plan and the markup that is written from it. -/
theorem compose_ok {title outline tokens interaction matched : Datum} {s : Source}
    {ns ms : List Notice}
    (h : (compose title outline tokens interaction matched).after ns = (.ok s, ms)) :
    ∃ name ms', componentName title = .ok name ∧
      (plan name outline tokens interaction matched).after ns = (.ok s.plan, ms') ∧
      s.plan.body = .ok s.body := by
  obtain ⟨name, ms', hname, hplan, hbody, -⟩ := compose_steps h
  exact ⟨name, ms', hname, hplan, hbody⟩

/-- A box to search in, with a label, two sizes and a state for when it is focused. -/
def sampleOutline : Datum :=
  .record
    [("meta", .record [("name", .text "Search box")]),
     ("slots", .list [.record [("name", .text "label")]]),
     ("variants", .list
       [.record [("properties", .record [("Size", .text "Large")])],
        .record [("properties", .record [("Size", .text "Small")])]])]

def sampleInteraction : Datum :=
  .record
    [("componentCategory", .text "combobox"),
     ("states", .list [.record [("name", .text "default")], .record [("name", .text "focus")]]),
     ("interactions", .list
       [.record [("trigger", .text "onFocus"), ("action", .text "setState"),
         ("target", .text "focus")]]),
     ("keyboard", .list [.record [("key", .text "Enter"), ("action", .text "open")]])]

end Maquette.Component
