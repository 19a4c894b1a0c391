/-
What becomes of the content that a component takes for its slots. It takes apart the parameter of every
slot that one of its nodes names, whatever the fate of the content in the nodes. A field, a component
without nodes and the label of what opens a dialog show the content themselves; else it has the fate that
the nodes give it. So a slot whose content is withheld is taken apart all the same, and nothing in the
markup refers to it.
-/
import Maquette.Proofs.Component.Consumed
import Maquette.Proofs.Component.Fates

namespace Maquette.Component

open Markup (Attribute Shows)

/-! ## Content of a component -/

/-- The slots that are named below the outermost node, with what becomes of the content for them. -/
def fatesOf (nodes : List Datum) : List (Datum × Fate) := Layer.allFates .shown (nodes.map Layer.read)

/-- What is known of the nodes and of the slots of a plan: each slot goes by one name, inside of the
component and outside, and is named by one node at most. -/
structure Plan.IsSlotted (p : Plan) (nodes : List Datum) : Prop where
  nodes_eq : p.nodes = .ok nodes
  areNodes : ∀ d ∈ nodes, Outline.IsNode d
  sources : ∃ names : List String, p.slots.map (·.source) = names.map .text ∧ names.Nodup ∧ "" ∉ names
  names : (p.slots.map (·.name)).Nodup ∧ "" ∉ p.slots.map (·.name)
  distinct : ((fatesOf nodes).map Prod.fst).Nodup

namespace Plan

variable {p : Plan} {nodes : List Datum} {q r : Parameter}

theorem IsSlotted.source (h : p.IsSlotted nodes) (hq : q ∈ p.slots) :
    ∃ slot, q.source = .text slot ∧ slot ≠ "" := by
  obtain ⟨names, hsources, -, hblank⟩ := h.sources
  obtain ⟨slot, hslot, he⟩ := List.mem_map.1 (hsources ▸ List.mem_map_of_mem hq)
  exact ⟨slot, he.symm, fun hs => hblank (hs ▸ hslot)⟩

theorem IsSlotted.source_injective (h : p.IsSlotted nodes) (hq : q ∈ p.slots) (hr : r ∈ p.slots)
    (he : q.source = r.source) : q = r := by
  obtain ⟨names, hsources, hnodup, -⟩ := h.sources
  exact List.inj_on_of_nodup_map (hsources ▸ hnodup.map fun _ _ => Datum.text.inj) hq hr he

/-- The names of the content for some of the slots. -/
def contentTable (given : List Parameter) : Table Datum Datum :=
  given.map fun q => (q.source, .text q.name)

section Given

variable {given : List Parameter} (h : p.IsSlotted nodes) (hg : ∀ q ∈ given, q ∈ p.slots)

include h hg

theorem IsSlotted.isSlotTable : IsSlotTable (contentTable given) := by
  intro row hrow
  obtain ⟨q, hq, rfl⟩ := List.mem_map.1 hrow
  obtain ⟨slot, hslot, hblank⟩ := h.source (hg q hq)
  refine ⟨slot, q.name, by rw [hslot], hblank, fun hname => h.names.2 ?_⟩
  exact hname ▸ List.mem_map_of_mem (hg q hq)

theorem IsSlotted.ofRows (hd : given.Nodup) :
    Table.ofRows (given.map fun q => (q.source, Datum.text q.name)) = contentTable given := by
  refine Table.ofRows_eq (List.pairwise_map.2 ?_)
  refine List.Pairwise.imp_of_mem (fun {q r} hq hr hne => ?_) hd
  obtain ⟨slot, hslot, -⟩ := h.source (hg r hr)
  rw [Bool.eq_false_iff, hslot]
  intro he
  exact hne (h.source_injective (hg q hq) (hg r hr) ((Datum.same_text.1 he).trans hslot.symm))

/-- The name of a slot's content is shown exactly if the slot has its content and the fate to be shown. -/
theorem IsSlotted.mem_content (hq : q ∈ p.slots) {fates : List (Datum × Fate)} :
    q.name ∈ fates.filterMap (content? (contentTable given)) ↔
      q ∈ given ∧ (q.source, .shown) ∈ fates := by
  -- what is found under a key is the name of a slot with this key
  have hfound : ∀ {key v}, (contentTable given).lookup key = some v →
      ∃ r ∈ given, key = r.source ∧ v = .text r.name := by
    intro key v hv
    obtain ⟨k, hk, hm⟩ := Table.mem_of_lookup hv
    obtain ⟨r, hr, he⟩ := List.mem_map.1 hm
    obtain ⟨rfl, rfl⟩ := Prod.mk.inj he
    obtain ⟨slot, hslot, -⟩ := h.source (hg r hr)
    rw [hslot] at hk
    exact ⟨r, hr, (Datum.same_text.1 hk).trans hslot.symm, rfl⟩
  rw [List.mem_filterMap]
  constructor
  · rintro ⟨⟨key, fate⟩, hrow, hcontent⟩
    unfold content? at hcontent
    split at hcontent
    · rename_i hfate
      obtain ⟨v, hv, hshown⟩ := Option.map_eq_some_iff.1 hcontent
      obtain ⟨r, hr, rfl, rfl⟩ := hfound hv
      obtain rfl : r = q := List.inj_on_of_nodup_map h.names.1 (hg r hr) hq hshown
      obtain rfl : fate = .shown := hfate
      exact ⟨hr, hrow⟩
    · cases hcontent
  · rintro ⟨hgiven, hrow⟩
    refine ⟨_, hrow, ?_⟩
    obtain ⟨slot, hslot, -⟩ := h.source hq
    have hsome : ((contentTable given).lookup q.source).isSome = true := by
      refine List.lookup_isSome_iff.2 ⟨_, List.mem_map_of_mem hgiven, ?_⟩
      rw [hslot]
      exact Datum.same_text.2 rfl
    obtain ⟨v, hv⟩ := Option.isSome_iff_exists.1 hsome
    obtain ⟨r, hr, hsource, rfl⟩ := hfound hv
    obtain rfl := h.source_injective hq (hg r hr) hsource
    rw [content?, if_pos rfl, hv]
    rfl

end Given

/-- The nodes show the content for exactly those slots whose fate is to be shown, and use no other names;
they are handed names for all slots that have a fate. -/
theorem IsSlotted.content (h : p.IsSlotted nodes) (hne : nodes ≠ []) {c : Content}
    (hc : p.content = .ok c) (hq : q ∈ p.slots) :
    (q.name ∈ Markup.allShows c.markup ↔ (q.source, .shown) ∈ fatesOf nodes) ∧
      (q.name ∈ Markup.allNames c.markup ↔ (q.source, .shown) ∈ fatesOf nodes) ∧
      (q.name ∈ c.handed ↔ ∃ fate, (q.source, fate) ∈ fatesOf nodes) := by
  unfold Plan.content at hc
  rw [h.nodes_eq, Outcome.ok_bind, if_neg (by simpa using hne)] at hc
  obtain ⟨keys, hkeys, hc⟩ := Outcome.bind_ok hc
  obtain ⟨given, hgiven, hc⟩ := Outcome.bind_ok hc
  obtain ⟨ms, hms, hc⟩ := Outcome.bind_ok hc
  cases hc
  have htest : ∀ r ∈ p.slots, (do return keys.contains (← r.source.asKey) : Outcome Bool) =
      pure (keys.contains r.source) := by
    intro r hr
    obtain ⟨slot, hslot, -⟩ := h.source hr
    rw [Datum.asKey_eq (by rw [hslot]; rfl)]
    rfl
  obtain rfl := Except.ok.inj (hgiven.symm.trans (filterM_pure htest))
  have hmem : ∀ r ∈ p.slots, (r ∈ p.slots.filter fun r => keys.contains r.source) ↔
      ∃ fate, (r.source, fate) ∈ fatesOf nodes := by
    intro r hr
    obtain ⟨slot, hslot, hblank⟩ := h.source hr
    rw [List.mem_filter, hslot, fatesOf, ← mem_slotsIn h.areNodes hkeys hblank,
      List.contains_iff_exists_mem_beq]
    simp [Datum.text_same, hr]
  have hg : ∀ r ∈ p.slots.filter fun r => keys.contains r.source, r ∈ p.slots :=
    fun r hr => List.mem_of_mem_filter hr
  rw [h.ofRows hg (h.names.1.of_map.filter _)] at hms
  obtain ⟨hshown, hused⟩ := layers_shows (h.isSlotTable hg) _ hms
  have hcontent : q.name ∈ (fatesOf nodes).filterMap
      (content? (contentTable (p.slots.filter fun r => keys.contains r.source))) ↔
        (q.source, .shown) ∈ fatesOf nodes := by
    rw [h.mem_content hg hq, hmem q hq]
    exact ⟨And.right, fun hrow => ⟨⟨_, hrow⟩, hrow⟩⟩
  refine ⟨hshown ▸ hcontent, hused ▸ hcontent, ?_⟩
  rw [← hmem q hq, List.mem_map]
  constructor
  · rintro ⟨r, hr, hname⟩
    exact List.inj_on_of_nodup_map h.names.1 (hg r hr) hq hname ▸ hr
  · exact fun hr => ⟨q, hr, rfl⟩

/-! ## Templates around content -/

variable {b : Body} {m : Markup}

theorem slotMarkup_shows {tag : String} {extra : List Attribute}
    (h : p.slotMarkup q tag extra = .ok m) : q.name ∈ m.shows := by
  unfold slotMarkup at h
  obtain ⟨part, -, h⟩ := Outcome.bind_ok h
  obtain ⟨mark, -, h⟩ := Outcome.bind_ok h
  cases h
  simp [Markup.shows, Markup.inlined, Markup.allShows]

theorem beforeField_shows (h : p.beforeField q = .ok m) : q.name ∈ m.shows := by
  unfold beforeField at h
  obtain ⟨label, -, h⟩ := Outcome.bind_ok h
  split at h
  · exact slotMarkup_shows h
  · exact slotMarkup_shows h

/-- Where there are no nodes, the content for each slot has an element of its own. -/
theorem content_alone (hn : p.nodes = .ok []) {c : Content} (hc : p.content = .ok c)
    (hq : q ∈ p.slots) : q.name ∈ Markup.allShows c.markup := by
  unfold content at hc
  rw [hn, Outcome.ok_bind, if_pos List.isEmpty_nil,
    if_neg (by simpa using List.ne_nil_of_mem hq)] at hc
  obtain ⟨ms, hms, hc⟩ := Outcome.bind_ok hc
  cases hc
  obtain ⟨m, hm, hmade⟩ := Outcome.mapM_mem hms q hq
  exact Markup.mem_allShows.2 ⟨m, hm, slotMarkup_shows hmade⟩

/-- A field shows the content for all slots, in front of its element or behind it. -/
theorem field_shows (h : p.IsSlotted nodes) (hb : p.field = .ok b) (hq : q ∈ p.slots) :
    q.name ∈ b.markup.shows := by
  obtain ⟨names, hsources, hnodup, -⟩ := h.sources
  unfold field at hb
  rw [namedSlots_eq hsources hnodup, Outcome.ok_bind] at hb
  obtain ⟨marked, hmarked, hb⟩ := Outcome.bind_ok hb
  obtain ⟨front, hfront, hb⟩ := Outcome.bind_ok hb
  obtain ⟨aria, -, hb⟩ := Outcome.bind_ok hb
  obtain ⟨handlers, -, hb⟩ := Outcome.bind_ok hb
  obtain ⟨back, hback, hb⟩ := Outcome.bind_ok hb
  cases hb
  obtain ⟨row, hrow, hmade⟩ := Outcome.mapM_mem hmarked q hq
  obtain ⟨isBefore, -, hmade⟩ := Outcome.bind_ok hmade
  cases hmade
  suffices hm : ∃ m ∈ front ++ back, q.name ∈ m.shows by
    obtain ⟨m, hm, hshows⟩ := hm
    rw [Markup.shows, Markup.mem_allShows]
    rcases List.mem_append.1 hm with hm | hm
    · exact ⟨m, by simp [hm], hshows⟩
    · exact ⟨m, by simp [hm], hshows⟩
  cases isBefore with
  | true =>
    have hbefore : q ∈ (marked.filter (·.2)).map (·.1) :=
      List.mem_map.2 ⟨_, List.mem_filter.2 ⟨hrow, rfl⟩, rfl⟩
    obtain ⟨m, hm, hmade⟩ := Outcome.mapM_mem hfront q hbefore
    exact ⟨m, List.mem_append_left _ hm, beforeField_shows hmade⟩
  | false =>
    have hafter : q ∈ (marked.filter (!·.2)).map (·.1) :=
      List.mem_map.2 ⟨_, List.mem_filter.2 ⟨hrow, rfl⟩, rfl⟩
    obtain ⟨m, hm, hmade⟩ := Outcome.mapM_mem hback q hafter
    exact ⟨m, List.mem_append_right _ hm, slotMarkup_shows hmade⟩

theorem triggerLabel_shows {fallback : String} (h : p.triggerLabel fallback = .ok m)
    (hl : labelParameter? p.parameters = .ok (some q)) : q.name ∈ m.shows := by
  unfold triggerLabel at h
  rw [hl, Outcome.ok_bind] at h
  cases h
  simp [Markup.shows]

/-- What a template shows of its content and of its label. -/
structure Surrounds (p : Plan) (b : Body) (c : Content) : Prop where
  content : p.content = .ok c
  handed : b.handed = c.handed
  shown : Markup.allShows c.markup ⊆ b.markup.shows
  label : p.labelsTrigger = true → ∀ q, labelParameter? p.parameters = .ok (some q) →
    q.name ∈ b.markup.shows

theorem listBoxMarkup_shows {aria : List Attribute} {hs : List Handler}
    {markup : List Markup → Markup} (h : p.listBoxMarkup aria hs = .ok markup) (content : List Markup) :
    Markup.allShows content ⊆ (markup content).shows ∧
      (p.primitive.any (·.name != "Select") = true →
        ∀ q, labelParameter? p.parameters = .ok (some q) → q.name ∈ (markup content).shows) := by
  unfold listBoxMarkup at h
  split at h
  · rename_i hnone
    cases h
    refine ⟨fun name hname => ?_, fun hany => ?_⟩
    · simpa [bareListBox, Markup.shows, Markup.allShows] using hname
    · rw [hnone] at hany; cases hany
  · rename_i primitive hsome
    split at h
    · rename_i hselect
      cases h
      refine ⟨fun name hname => ?_, fun hany => ?_⟩
      · simpa [selectListBox, blockOf, Markup.shows, Markup.allShows] using hname
      · rw [hsome] at hany
        simp [beq_iff_eq.1 hselect] at hany
    · obtain ⟨label, hlabel, h⟩ := Outcome.bind_ok h
      cases h
      refine ⟨fun name hname => ?_, fun _ q hq => ?_⟩
      · simp [popupListBox, blockOf, Markup.shows, Markup.allShows, hname]
      · simp [popupListBox, blockOf, Markup.shows, Markup.allShows, triggerLabel_shows hlabel hq]

theorem dialogMarkup_shows {label : Markup} {aria : List Attribute} {hs : List Handler}
    {markup : List Markup → Markup} (h : p.dialogMarkup label aria hs = .ok markup)
    (content : List Markup) :
    Markup.allShows content ⊆ (markup content).shows ∧ label.shows ⊆ (markup content).shows := by
  unfold dialogMarkup at h
  split at h
  · cases h
    constructor <;> intro name hname <;>
      simp [bareDialog, blockOf, Markup.shows, Markup.allShows, hname]
  · obtain ⟨title, -, h⟩ := Outcome.bind_ok h
    cases h
    constructor <;> intro name hname <;>
      simp [primitiveDialog, blockOf, Markup.inlined, Markup.shows, Markup.allShows, hname]

/-- Apart from fields, templates show all that their content shows, and those that something opens show
their label, too. -/
theorem body_surrounds (ht : p.template ≠ .field) (hb : p.body = .ok b) : ∃ c, p.Surrounds b c := by
  unfold body at hb
  split at hb <;> rename_i htemplate
  · unfold button at hb
    obtain ⟨aria, -, hb⟩ := Outcome.bind_ok hb
    obtain ⟨handlers, -, hb⟩ := Outcome.bind_ok hb
    obtain ⟨c, hc, hb⟩ := Outcome.bind_ok hb
    cases hb
    exact ⟨c, hc, rfl, fun name hname => by rwa [Markup.shows],
      fun hl => by rw [labelsTrigger, htemplate] at hl; cases hl⟩
  · exact absurd htemplate ht
  · unfold listBox at hb
    obtain ⟨aria, -, hb⟩ := Outcome.bind_ok hb
    obtain ⟨handlers, -, hb⟩ := Outcome.bind_ok hb
    obtain ⟨markup, hmarkup, hb⟩ := Outcome.bind_ok hb
    obtain ⟨c, hc, hb⟩ := Outcome.bind_ok hb
    cases hb
    obtain ⟨hshown, hlabel⟩ := listBoxMarkup_shows hmarkup c.markup
    exact ⟨c, hc, rfl, hshown, fun hl => hlabel (by rwa [labelsTrigger, htemplate] at hl)⟩
  · unfold dialog at hb
    obtain ⟨label, hlabel, hb⟩ := Outcome.bind_ok hb
    obtain ⟨aria, -, hb⟩ := Outcome.bind_ok hb
    obtain ⟨handlers, -, hb⟩ := Outcome.bind_ok hb
    obtain ⟨markup, hmarkup, hb⟩ := Outcome.bind_ok hb
    obtain ⟨c, hc, hb⟩ := Outcome.bind_ok hb
    cases hb
    obtain ⟨hshown, htrigger⟩ := dialogMarkup_shows hmarkup c.markup
    exact ⟨c, hc, rfl, hshown, fun _ q hq => htrigger (triggerLabel_shows hlabel hq)⟩
  · unfold container at hb
    obtain ⟨aria, -, hb⟩ := Outcome.bind_ok hb
    obtain ⟨handlers, -, hb⟩ := Outcome.bind_ok hb
    obtain ⟨c, hc, hb⟩ := Outcome.bind_ok hb
    cases hb
    exact ⟨c, hc, rfl, fun name hname => by rwa [Markup.shows],
      fun hl => by rw [labelsTrigger, htemplate] at hl; cases hl⟩

/-! ## What becomes of content -/

/-- What a component makes of the content for a slot: a field shows it, and so does a component without
nodes and one that something opens whose label it is; else it has the fate that the nodes give it. -/
inductive Treats (p : Plan) (nodes : List Datum) (q : Parameter) : Fate → Prop
  | field : p.template = .field → Treats p nodes q .shown
  | alone : nodes = [] → Treats p nodes q .shown
  | label : p.labelsTrigger = true → labelParameter? p.parameters = .ok (some q) →
      Treats p nodes q .shown
  | node {fate : Fate} : p.template ≠ .field →
      ¬ (p.labelsTrigger = true ∧ labelParameter? p.parameters = .ok (some q)) →
      (q.source, fate) ∈ fatesOf nodes → Treats p nodes q fate

/-- A component shows the content for a slot that is to be shown. -/
theorem IsSlotted.shows (h : p.IsSlotted nodes) (hb : p.body = .ok b) (hq : q ∈ p.slots)
    (ht : p.Treats nodes q .shown) : q.name ∈ b.markup.shows := by
  have hfield : p.template = .field → q.name ∈ b.markup.shows := by
    intro htemplate
    unfold body at hb
    rw [htemplate] at hb
    exact field_shows h hb hq
  by_cases htemplate : p.template = .field
  · exact hfield htemplate
  · obtain ⟨c, hc, -, hshown, hlabel⟩ := body_surrounds htemplate hb
    cases ht with
    | field htemplate => exact hfield htemplate
    | alone hnodes => exact hshown (content_alone (hnodes ▸ h.nodes_eq) hc hq)
    | label hl hq => exact hlabel hl q hq
    | node _ _ hfate =>
      have hne : nodes ≠ [] := by
        rintro rfl
        cases hfate
      exact hshown ((h.content hne hc hq).1.2 hfate)

end Plan

namespace Source

variable {s : Source} {nodes : List Datum} {q : Parameter}

/-- The names of the slots of a component are no names that it binds itself. -/
structure IsSlotted (s : Source) (nodes : List Datum) : Prop where
  plan : s.plan.IsSlotted nodes
  body : s.plan.body = .ok s.body
  parameters : s.plan.parameters = Component.parameters s.plan.blueprint s.plan.handlesKeys
  free : ∀ q ∈ s.plan.slots, s.plan.IsFree q.name

/-- Nothing in a component uses the name of a slot whose content neither its nodes nor its label show. -/
theorem IsSlotted.unused (h : s.IsSlotted nodes) (ht : s.plan.template ≠ .field) (hne : nodes ≠ [])
    (hq : q ∈ s.plan.slots)
    (hl : ¬ (s.plan.labelsTrigger = true ∧ labelParameter? s.plan.parameters = .ok (some q)))
    (hfate : (q.source, .shown) ∉ fatesOf nodes) :
    q.name ∉ Markup.Line.refs s.setup ∧ q.name ∉ s.body.markup.names := by
  have hslot : q ∈ parametersOf s.plan.parameters .slot := hq
  obtain ⟨hown, -⟩ := slot_named (h.parameters ▸ hslot)
  have hreserved : ∀ {name}, name ∈ reservedNames → q.name ≠ name := own_ne_reserved hown
  have hkind : ∀ r ∈ s.plan.parameters, r.name = q.name → r.kind = .slot := by
    intro r hr hname
    obtain rfl := own_unique hown (h.parameters ▸ hr) hname
    simpa using (List.mem_filter.1 hslot).2
  have hvariant : ∀ r ∈ s.plan.parameters, r.name = q.name → r.kind ≠ .variant :=
    fun r hr hname => by rw [hkind r hr hname]; decide
  have hapart : s.plan.IsApart q.name := by
    refine ⟨fun r hr hname => by rw [hkind r hr hname]; decide, fun hevent => ?_⟩
    have hevents : ∀ name ∈ eventTypes.map Prod.fst, name ∈ reservedNames := by decide
    exact hreserved (hevents _ hevent) rfl
  have hcomplete := isComplete_of_parameters h.parameters
  -- what the content and the label use is known without the slot
  have hcontent : ∀ c, s.plan.content = .ok c →
      ∀ m ∈ c.markup, m.Scoped ((s.plan.without q.name).Known s.body.opens) := by
    intro c hc m hm name hname
    refine Plan.known_without hvariant (Plan.content_scoped hc hcomplete.children m hm name hname) ?_
    rintro rfl
    exact hfate ((h.plan.content hne hc hq).2.1.1 (Markup.mem_allNames.2 ⟨m, hm, hname⟩))
  have hlabel : s.plan.labelsTrigger = true → ∀ m fallback, s.plan.triggerLabel fallback = .ok m →
      m.Scoped ((s.plan.without q.name).Known s.body.opens) := by
    intro hlabels m fallback hm name hname
    refine Plan.known_without hvariant (triggerLabel_scoped hm name hname) ?_
    rintro rfl
    unfold Plan.triggerLabel at hm
    obtain ⟨o, ho, hm⟩ := Outcome.bind_ok hm
    cases o with
    | none => cases hm; cases hname
    | some r =>
      cases hm
      have he : q.name = r.name := by simpa [Markup.names] using hname
      have hr := mem_of_firstLabel ho
      obtain rfl := List.inj_on_of_nodup_map h.plan.names.1 hq hr he
      exact hl ⟨hlabels, ho⟩
  refine unused_of_scoped hcomplete (h.free q hq) hvariant ?_
    (Plan.body_without hapart (hreserved (by decide)) ht h.body hcontent hlabel)
  have hfixed : ∀ name ∈ ["tokenOverrides", "className", "children", "onKeyboardAction"],
      name ∈ reservedNames := by decide
  exact fun hm => hreserved (hfixed _ hm) rfl

/-- A component makes something of the content of every slot whose parameter it takes apart. -/
theorem IsSlotted.treats (h : s.IsSlotted nodes) (hq : q ∈ s.plan.slots) (ht : q ∈ s.taken) :
    ∃ fate, s.plan.Treats nodes q fate := by
  by_cases htemplate : s.plan.template = .field
  · exact ⟨_, .field htemplate⟩
  by_cases hne : nodes = []
  · exact ⟨_, .alone hne⟩
  by_cases hl : s.plan.labelsTrigger = true ∧ labelParameter? s.plan.parameters = .ok (some q)
  · exact ⟨_, .label hl.1 hl.2⟩
  obtain ⟨c, hc, hhanded, -⟩ := Plan.body_surrounds htemplate h.body
  suffices hfate : ∃ fate, (q.source, fate) ∈ fatesOf nodes by
    obtain ⟨fate, hfate⟩ := hfate
    exact ⟨fate, .node htemplate hl hfate⟩
  -- a name that is used is shown or handed to the nodes
  by_contra hnone
  have hshown : (q.source, .shown) ∉ fatesOf nodes := fun hfate => hnone ⟨_, hfate⟩
  obtain ⟨hsetup, hbody⟩ := h.unused htemplate hne hq hl hshown
  have hused := (List.mem_filter.1 ht).2
  rw [List.contains_iff_mem, uses, List.mem_append, List.mem_append, bodyRefs, Markup.refs_eq] at hused
  rcases hused with (hused | hused) | hused
  · exact hsetup hused
  · exact hbody (by simpa [Markup.allNames] using hused)
  · exact hnone ((h.plan.content hne hc hq).2.2.1 (hhanded ▸ hused))

/-- Nothing in the markup refers to a slot whose content is withheld. -/
theorem IsSlotted.withheld (h : s.IsSlotted nodes) (hq : q ∈ s.plan.slots)
    (ht : s.plan.Treats nodes q .withheld) : q.name ∉ s.bodyRefs := by
  cases ht with
  | node htemplate hl hfate =>
    have hne : nodes ≠ [] := by
      rintro rfl
      cases hfate
    have hshown : (q.source, .shown) ∉ fatesOf nodes := fun hshown =>
      nomatch List.inj_on_of_nodup_map h.plan.distinct hfate hshown rfl
    rw [bodyRefs, Markup.refs_eq]
    simpa [Markup.allNames] using (h.unused htemplate hne hq hl hshown).2

end Source

/-! ## The component of an outline -/

section Outlined

variable {scene : Scene} {origin : Outline.Origin}
  {title outline tokens matched intelligence interaction : Datum} {s : Source} {notices : List Notice}

theorem base_small : ∀ w ∈ Outline.Slot.vocabulary, Naming.BeginsSmall w.base.toList := by
  have hany : ∀ w ∈ Outline.Slot.vocabulary,
      w.base.toList.head?.any (fun c => decide (Naming.IsSmall c)) = true := by decide
  intro w hw
  obtain ⟨c, hc, hsmall⟩ := (Option.any_eq_true _ _).1 (hany w hw)
  exact ⟨c, hc, of_decide_eq_true hsmall⟩

/-- The parameters of the slots of an outline have names that begin with a small letter. -/
theorem slots_small {p : Plan} {slots : List Outline.Slot}
    (hb : Blueprint.read outline interaction = .ok p.blueprint)
    (hp : p.parameters = parameters p.blueprint p.handlesKeys)
    (hs : outline.get "slots" = .ok (.list (slots.map Outline.Slot.toDatum)))
    (hnames : ∀ slot ∈ slots, Outline.Slot.IsName slot.name) :
    ∀ q ∈ p.slots, Naming.BeginsSmall q.name.toList := by
  obtain ⟨-, -, ⟨items, hitems, hread⟩, -⟩ := Blueprint.read_ok hb
  rw [Datum.itemsOf_list hs] at hitems
  cases hitems
  have hwish : ∀ spec ∈ p.blueprint.slots, Naming.BeginsSmall spec.wish.toList := by
    intro spec hspec
    obtain ⟨d, hd, hmade⟩ := Outcome.mem_mapM hread spec hspec
    obtain ⟨slot, hslot, rfl⟩ := List.mem_map.1 hd
    obtain ⟨name, hname, hmade⟩ := Outcome.bind_ok hmade
    obtain ⟨pieces, hpieces, hmade⟩ := Outcome.bind_ok hmade
    cases hmade
    obtain rfl : Datum.text slot.name = name := Except.ok.inj hname
    obtain ⟨w, hw, rest, hrest⟩ := (hnames slot hslot).begins
    have hsmall : Naming.BeginsSmall slot.name.toList := hrest ▸ (base_small w hw).append rest
    have htruthy : Datum.isTruthy (.text slot.name) = true := by
      obtain ⟨c, hc, -⟩ := hsmall
      rw [Datum.isTruthy, Bool.not_eq_true', String.isEmpty_eq_false_iff]
      rintro he
      rw [he] at hc
      cases hc
    rw [Pieces.ofDatum, htruthy] at hpieces
    cases hpieces
    exact Naming.camel_small hsmall _
  intro q hq
  have hslot : q ∈ parametersOf p.parameters .slot := hq
  obtain ⟨-, spec, hspec, taken, hname⟩ := slot_named (hp ▸ hslot)
  obtain ⟨rest, hrest⟩ := Naming.unique_prefix spec.wish taken
  rw [hname, ← hrest]
  exact (hwish spec hspec).append rest

theorem namespace_large {a : Archetype} {name : String} (h : namespace? a = some name) :
    Naming.BeginsLarge name.toList := by
  cases a with
  | combobox | select | dialog | modal =>
    cases h
    simp [Naming.BeginsLarge, Text.isSmallAscii]
  | _ => cases h

theorem isSlotted_of_scene (ho : Outline.ofScene scene origin = .ok outline)
    (hc : Archetype.classify outline = .ok intelligence)
    (hi : Interaction.build outline intelligence = .ok interaction)
    (hs : (compose title outline tokens interaction matched).exec = (.ok s, notices)) :
    ∃ nodes, s.IsSlotted nodes := by
  obtain ⟨name, ms, htitle, hplan, hbody⟩ := compose_ok hs
  obtain ⟨hname, hb, hparameters, category, hcategory, htemplate, hprimitive, -⟩ := plan_steps hplan
  obtain ⟨nodes, slots, hnodes, hslots, hnodup, hnames, hare, hsub⟩ :=
    Plan.nodes_of_scene ho (Blueprint.read_ok hb).1
  have hrecord : outline.isRecord = true := by
    cases outline with
    | record => rfl
    | _ => cases hslots
  have hget : outline.get "slots" = .ok (.list (slots.map Outline.Slot.toDatum)) := by
    rw [Datum.get_eq hrecord, hslots]; rfl
  have hsmall := slots_small hb hparameters hget hnames
  have hblank : ∀ {name : String}, Naming.BeginsSmall name.toList → name ≠ "" := by
    rintro _ ⟨c, hc, -⟩ rfl
    cases hc
  refine ⟨nodes, ⟨hnodes, hare, ?sources, ?names, ?distinct⟩, hbody, hparameters, fun q hq => ?free⟩
  case sources =>
    refine ⟨_, slots_of_read hb hparameters hrecord hslots, hnodup, fun hm => ?_⟩
    obtain ⟨slot, hslot, he⟩ := List.mem_map.1 hm
    obtain ⟨w, hw, rest, hrest⟩ := (hnames slot hslot).begins
    exact hblank (hrest ▸ (base_small w hw).append rest) he
  case names =>
    have hgiven : (s.plan.slots.map (·.name)).Sublist (givenNames s.plan.blueprint) := by
      rw [← ownParameters_names, Plan.slots, hparameters, parametersOf_slot, ownParameters_eq]
      exact (List.sublist_append_right _ _).map _
    refine ⟨(Naming.uniques_spec _ _).2.1.sublist hgiven, fun hm => ?_⟩
    obtain ⟨q, hq, he⟩ := List.mem_map.1 hm
    exact hblank (hsmall q hq) he
  case distinct =>
    have hkeys := fatesItems_keys .shown 1 nodes
    rw [readItems_eq] at hkeys
    have hdistinct := hsub.nodup hnodup
    rw [← keysAmong_shown, ← hkeys] at hdistinct
    exact hdistinct.of_map
  case free =>
    have hlarge : ∀ {name : String}, Naming.BeginsLarge name.toList → q.name ≠ name := by
      rintro _ h rfl
      exact (hsmall q hq).not_large h
    have hslot : q ∈ parametersOf s.plan.parameters .slot := hq
    obtain ⟨hown, -⟩ := slot_named (hparameters ▸ hslot)
    refine ⟨fun hbound => ?_, hlarge ?_, fun r hr he => ?_⟩
    · have hreserved : ∀ name ∈ boundNames, name ∈ reservedNames := by decide
      exact own_ne_reserved hown (hreserved _ hbound) rfl
    · obtain ⟨ps, -, htitle⟩ := Outcome.bind_ok htitle
      cases htitle
      rw [hname, String.toList_append]
      refine (Naming.pascal_large ?_ ps).append ?_ <;> simp [Naming.BeginsLarge, Text.isSmallAscii]
    · obtain ⟨a, -, hcategoryOf, hrequired⟩ := build_ok hc hi
      obtain rfl : Datum.text a.name = category := Except.ok.inj (hcategoryOf.symm.trans hcategory)
      rw [ofDatum_name] at htemplate
      rw [htemplate] at hprimitive
      have hspace := primitive_name hrequired hprimitive
      rw [Option.mem_def.1 hr] at hspace
      exact hlarge (namespace_large hspace.symm) he.symm

/-- In the component of any scene, every slot whose parameter is taken apart is treated in some way. If its
content is to be shown, an expression of the markup shows it; if it is withheld, nothing in the markup
refers to it. -/
theorem content_treated (ho : Outline.ofScene scene origin = .ok outline)
    (hc : Archetype.classify outline = .ok intelligence)
    (hi : Interaction.build outline intelligence = .ok interaction)
    (hs : (compose title outline tokens interaction matched).exec = (.ok s, notices)) :
    ∃ nodes, s.plan.nodes = .ok nodes ∧ ∀ q ∈ s.taken, q.kind = .slot →
      (∃ fate, s.plan.Treats nodes q fate) ∧
      (s.plan.Treats nodes q .shown → q.name ∈ s.bodyRefs ∧ q.name ∈ s.body.markup.shows) ∧
      (s.plan.Treats nodes q .withheld → q.name ∉ s.bodyRefs) := by
  obtain ⟨nodes, h⟩ := isSlotted_of_scene ho hc hi hs
  refine ⟨nodes, h.plan.nodes_eq, fun q ht hk => ?_⟩
  have hq : q ∈ s.plan.slots := List.mem_filter.2 ⟨List.mem_of_mem_filter ht, by simpa using hk⟩
  refine ⟨h.treats hq ht, fun hshown => ?_, h.withheld hq⟩
  have hshows := h.plan.shows h.body hq hshown
  refine ⟨?_, hshows⟩
  rw [Source.bodyRefs, Markup.refs_eq]
  simpa [Markup.allNames] using Markup.shows_subset_names _ hshows

end Outlined

/-! ## A card -/

/-- A card with two slots: a text for its label, and a frame for its content with a line in it. -/
def cardLayer : Datum :=
  .record
    [("id", .text "1:1"), ("name", .text "Card"), ("type", .text "FRAME"),
     ("children", .list
       [.record [("id", .text "1:2"), ("name", .text "Label"), ("type", .text "TEXT")],
        .record
          [("id", .text "1:3"), ("name", .text "Content"), ("type", .text "FRAME"),
           ("children", .list
             [.record [("id", .text "1:4"), ("name", .text "Line"), ("type", .text "FRAME")]])]])]

/-- The nodes of the text and of the frame. -/
def cardNodes : List Datum :=
  [.record
     [("id", .text "1:2"), ("name", .text "Label"), ("type", .text "TEXT"), ("zIndex", .int 0),
      ("roleHint", .text "label"), ("typography", .record
        [("fontFamily", .text "Inter"), ("fontSize", .int 16), ("fontWeight", .int 400),
         ("lineHeight", .text "normal"), ("letterSpacing", .text "0px"), ("textAlign", .text "left"),
         ("textDecoration", .text "none"), ("textTransform", .text "none")]),
      ("slotName", .text "label"), ("children", .list [])],
   .record
     [("id", .text "1:3"), ("name", .text "Content"), ("type", .text "FRAME"), ("zIndex", .int 1),
      ("slotName", .text "content"), ("children", .list
        [.record
          [("id", .text "1:4"), ("name", .text "Line"), ("type", .text "FRAME"), ("zIndex", .int 0),
           ("children", .list [])]])]]

def cardTree : Datum :=
  .record
    [("id", .text "1:1"), ("name", .text "Card"), ("type", .text "FRAME"), ("zIndex", .int 0),
     ("children", .list cardNodes)]

def cardSlots : List Outline.Slot :=
  [⟨"label", "text", false, .text "1:2"⟩, ⟨"content", "content", false, .text "1:3"⟩]

theorem cardTree_made : Outline.tree (Scene.ofDatum cardLayer) = .ok (some cardTree, cardSlots) := by
  have hsearch : (Scene.ofDatum cardLayer).Search [] [⟨3, 0, 0⟩]
      (.cons ⟨3, 0, 0⟩ (.cons ⟨0, 1, 0⟩ .nil
        (.cons ⟨2, 1, 1⟩ (.cons ⟨1, 2, 0⟩ .nil .nil) .nil)) .nil) [1, 2, 0, 3] :=
    .visit (by simp) rfl (.visit (by simp) rfl (.nil _)
      (.visit (by simp) rfl (.visit (by simp) rfl (.nil _) (.nil _)) (.nil _))) (.nil _)
  have htrail := Scene.trailFrom_search hsearch (by decide) true
  have hroot : (Scene.ofDatum cardLayer).root = .node 3 := rfl
  unfold Outline.tree
  rw [hroot]
  simp only [htrail]
  rfl

def cardOutline : Datum :=
  .record
    [("version", .text Outline.version),
     ("meta", .record
       [("name", .text "Card"), ("figmaUrl", .text ""), ("nodeId", .text "1:1"),
        ("type", .text "FRAME"), ("componentType", .text "frame"),
        ("extractedAt", .text Outline.epoch), ("sourceFileKey", .text "")]),
     ("tree", cardTree), ("variants", .list []),
     ("slots", .list (cardSlots.map Outline.Slot.toDatum)),
     ("layoutIntent", .record [("horizontal", .text "intrinsic"), ("vertical", .text "intrinsic")]),
     ("visualHints", (⟨false, false, false⟩ : Outline.Needs).toDatum), ("stateMapping", .list []),
     ("stats", .record [("nodeCount", .int 4)])]

theorem cardTree_walked : Walked.ofDatum cardTree = ⟨cardTree.preorder 0, none⟩ :=
  Walked.ofDatum_tree rfl rfl rfl

theorem cardOutline_made :
    Outline.ofScene (Scene.ofDatum cardLayer) ⟨.text "", .text "", .null⟩ = .ok cardOutline := by
  have hhints : Outline.visualHints cardTree =
      .ok (⟨false, false, false⟩ : Outline.Needs).toDatum := by
    unfold Outline.visualHints
    rw [cardTree_walked]
    rfl
  have hcount : (Walked.ofDatum cardTree).count = .ok 4 := by rw [cardTree_walked]; rfl
  unfold Outline.ofScene
  rw [cardTree_made]
  unfold Outline.document
  simp only [Outcome.ok_bind, Option.getD_some, hhints, hcount]
  rfl

def cardIntelligence : Datum :=
  (⟨.card, .name⟩ : Archetype.Verdict).toDatum
    { Archetype.Features.none with hasText := true, depth := 2 } [.text "label", .text "content"]

theorem cardOutline_classified : Archetype.classify cardOutline = .ok cardIntelligence := by
  have htree : cardOutline.get "tree" = .ok cardTree := rfl
  unfold Archetype.classify Archetype.Features.ofOutline
  rw [htree, Outcome.ok_bind, cardTree_walked]
  rfl

def cardAria : Table String Datum := [("role", .text "article"), ("ariaLabelledBy", .text "label-id")]

def cardInteraction : Datum :=
  interactionOf .card [Interaction.stateDatum .card (.text "default")] cardAria []

theorem cardInteraction_built :
    Interaction.build cardOutline cardIntelligence = .ok cardInteraction := by rfl

def cardBlueprint : Blueprint where
  outline := cardOutline
  interaction := cardInteraction
  variants := []
  slots := [⟨.text "label", "label"⟩, ⟨.text "content", "content"⟩]
  states := [⟨.text "default", .text ""⟩]
  aria := cardAria
  rules := []
  category := .text "card"

def cardPlan : Plan where
  name := "Card"
  base := "card"
  blueprint := cardBlueprint
  parameters := parameters cardBlueprint false
  tokens := .ok []
  template := .plain
  primitive := none
  handlesKeys := false

theorem cardPlan_made :
    (plan "Card" cardOutline .null cardInteraction (.list [])).exec = (.ok cardPlan, []) := by
  rfl

/-- The component of the card takes the parameters of both slots apart, and refers to the text alone. -/
theorem cardComponent_made : ∃ body,
    (compose (.text "Card") cardOutline .null cardInteraction (.list [])).exec =
      (.ok ⟨cardPlan, body, []⟩, []) ∧
    (Source.taken ⟨cardPlan, body, []⟩).map Parameter.name =
      ["label", "content", "ariaLabelledBy", "tokenOverrides", "className"] ∧
    Source.bodyRefs ⟨cardPlan, body, []⟩ =
      ["componentClassName", "overrideStyles", "ariaLabelledBy", "label"] := by
  have hnodes : cardPlan.nodes = .ok cardNodes := rfl
  have hslots : Plan.slotsIn cardNodes = .ok [.text "label", .text "content", .null] := by
    simp only [Plan.slotsIn, cardNodes, List.foldlM_cons, List.foldlM_nil]
    rw [Walked.ofDatum_tree rfl rfl rfl, Walked.ofDatum_tree rfl rfl rfl]
    rfl
  have hcontainer : cardPlan.body = cardPlan.container := rfl
  have hbody : ∃ body, cardPlan.body = .ok body ∧
      (Source.taken ⟨cardPlan, body, []⟩).map Parameter.name =
        ["label", "content", "ariaLabelledBy", "tokenOverrides", "className"] ∧
      Source.bodyRefs ⟨cardPlan, body, []⟩ =
        ["componentClassName", "overrideStyles", "ariaLabelledBy", "label"] := by
    rw [hcontainer]
    unfold Plan.container Plan.content
    rw [hnodes]
    simp only [Outcome.ok_bind]
    rw [hslots]
    exact ⟨_, rfl, rfl, rfl⟩
  obtain ⟨body, hbody, htaken, hrefs⟩ := hbody
  have hname : componentName (.text "Card") = .ok "Card" := rfl
  exact ⟨body, compose_of_plan hname cardPlan_made hbody rfl, htaken, hrefs⟩

/-- The parameters of the two slots. -/
def cardLabel : Parameter := slotParameter ⟨.text "label", "label"⟩ "label"

def cardContent : Parameter := slotParameter ⟨.text "content", "content"⟩ "content"

/-- A parameter of the card's slots that goes by a name that is taken apart is the one that is. -/
theorem card_taken {body : Body} {q : Parameter} (hq : q ∈ [cardLabel, cardContent])
    (h : q.name ∈ (Source.taken ⟨cardPlan, body, []⟩).map Parameter.name) :
    q ∈ Source.taken ⟨cardPlan, body, []⟩ := by
  have hown : q ∈ ownParameters cardBlueprint := hq
  obtain ⟨r, hr, hname⟩ := List.mem_map.1 h
  exact own_unique hown (List.mem_of_mem_filter hr) hname ▸ hr

/-- The card shows what is given for its label, and withholds what is given for its content. -/
theorem content_treated_card : ∃ s notices,
    Outline.ofScene (Scene.ofDatum cardLayer) ⟨.text "", .text "", .null⟩ = .ok cardOutline ∧
    Archetype.classify cardOutline = .ok cardIntelligence ∧
    Interaction.build cardOutline cardIntelligence = .ok cardInteraction ∧
    (compose (.text "Card") cardOutline .null cardInteraction (.list [])).exec = (.ok s, notices) ∧
    cardLabel ∈ s.taken ∧ s.plan.Treats cardNodes cardLabel .shown ∧ "label" ∈ s.bodyRefs ∧
    "label" ∈ s.body.markup.shows ∧
    cardContent ∈ s.taken ∧ s.plan.Treats cardNodes cardContent .withheld ∧ "content" ∉ s.bodyRefs := by
  obtain ⟨body, hs, htaken, -⟩ := cardComponent_made
  obtain ⟨nodes, hnodes, hall⟩ :=
    content_treated cardOutline_made cardOutline_classified cardInteraction_built hs
  obtain rfl : cardNodes = nodes := Except.ok.inj hnodes
  have hlabel : cardLabel ∈ Source.taken ⟨cardPlan, body, []⟩ :=
    card_taken (by simp) (by rw [htaken]; decide)
  have hcontent : cardContent ∈ Source.taken ⟨cardPlan, body, []⟩ :=
    card_taken (by simp) (by rw [htaken]; decide)
  have hfates : fatesOf cardNodes = [(.text "label", .shown), (.text "content", .withheld)] := rfl
  have hshown : cardPlan.Treats cardNodes cardLabel .shown :=
    .node (by decide) (fun h => nomatch h.1) (by rw [hfates]; exact .head _)
  have hwithheld : cardPlan.Treats cardNodes cardContent .withheld :=
    .node (by decide) (fun h => nomatch h.1) (by rw [hfates]; exact .tail _ (.head _))
  obtain ⟨hrefs, hshows⟩ := (hall _ hlabel rfl).2.1 hshown
  exact ⟨_, [], cardOutline_made, cardOutline_classified, cardInteraction_built, hs, hlabel, hshown, hrefs,
    hshows, hcontent, hwithheld, (hall _ hcontent rfl).2.2 hwithheld⟩

/-- The component of the card takes the parameter of its content apart, and its markup does not refer to
it. -/
theorem content_unused : ∃ outline intelligence interaction s notices,
    Outline.ofScene (Scene.ofDatum cardLayer) ⟨.text "", .text "", .null⟩ = .ok outline ∧
    Archetype.classify outline = .ok intelligence ∧
    Interaction.build outline intelligence = .ok interaction ∧
    (compose (.text "Card") outline .null interaction (.list [])).exec = (.ok s, notices) ∧
    ∃ q ∈ s.taken, q.kind = .slot ∧ q.source = .text "content" ∧ q.name ∉ s.bodyRefs := by
  obtain ⟨body, hs, htaken, hrefs⟩ := cardComponent_made
  have hcontent : cardContent ∈ Source.taken ⟨cardPlan, body, []⟩ :=
    card_taken (by simp) (by rw [htaken]; decide)
  refine ⟨_, _, _, _, [], cardOutline_made, cardOutline_classified, cardInteraction_built, hs, cardContent,
    hcontent, rfl, rfl, ?_⟩
  rw [hrefs]
  decide

end Maquette.Component
