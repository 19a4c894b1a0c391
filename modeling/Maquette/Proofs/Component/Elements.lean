/-
The elements of a component. Whatever its template, the attributes of each of its elements have distinct
names; it writes out the ids of its slots, or of those of its slots that the nodes show, and at most
one id of its own; and it refers to the elements that its accessibility entries refer to.
-/
import Maquette.Proofs.Component.Shown

namespace Maquette.Component

open Markup (Attribute Bears Carries Named)
open Interaction (slotId)

/-! ## What a markup exposes -/

namespace Plan

/-- The elements of a markup have attributes of distinct names; they write out `own` and the ids of
`slots`, and refer to what the accessibility entries refer to. -/
structure Exposes (p : Plan) (own slots : List String) (m : Markup) : Prop where
  distinct : ∀ as ∈ m.elements, (as.map Attribute.name).Nodup
  ids : m.ids.Perm (own ++ slots.map slotId)
  references : ∀ id, id ∈ m.references ↔ p.blueprint.RefersTo id

/-- The slots that the content of a component shows. -/
def contentSlots (p : Plan) (nodes : List Datum) : List String :=
  if nodes.isEmpty then p.slots.map (·.source.shown) else Layer.allSlots (nodes.map Layer.read)

/-- The slots that a component shows. -/
def shown (p : Plan) (nodes : List Datum) : List String :=
  if p.template = .field then p.slots.map (·.source.shown) else p.contentSlots nodes

/-- The ids that a component writes out besides those of its slots. -/
def ownIds (p : Plan) : List String :=
  match p.template with
  | .listBox => ["listbox-id"]
  | .dialog => if p.primitive.isSome then ["dialog-title"] else []
  | _ => []

section Exposes

variable {p : Plan} {own slots ids refs : List String} {m : Markup}

theorem Exposes.of_carries (h : Carries [m] ids refs) (hi : ids.Perm (own ++ slots.map slotId))
    (hr : ∀ id, id ∈ refs ↔ p.blueprint.RefersTo id) : p.Exposes own slots m := by
  obtain ⟨hdistinct, hids, hrefs⟩ := h.single
  exact ⟨hdistinct, hids ▸ hi, hrefs ▸ hr⟩

end Exposes

/-! ## Parts -/

section Parts

variable {p : Plan} {slot : Parameter} {m : Markup}

/-- A slot is written in an element with its id. -/
theorem slotMarkup_carries {tag : String} {extra : List Attribute}
    (h : p.slotMarkup slot tag extra = .ok m) (he : Bears ["htmlFor"] extra [] []) :
    Carries [m] [slotId slot.source.shown] [] := by
  unfold slotMarkup at h
  obtain ⟨part, -, h⟩ := Outcome.bind_ok h
  obtain ⟨mark, hmark, h⟩ := Outcome.bind_ok h
  cases h
  have hname := Attribute.name_ofDatum hmark
  have hclass : Bears ["className"] [p.partClass (Naming.kebab part)] [] [] := .plain rfl (by decide)
  have hmark : Bears ["data-slot"] [mark] [] [] := .plain (by simp [hname]) (by decide)
  have hid : Bears ["id"] [Attribute.text "id" (slot.source.shown ++ "-id")]
      [slotId slot.source.shown] [] := ⟨.of_eq rfl (by decide), rfl, rfl⟩
  have hall := ((hclass.append hmark (by decide)).append hid (by decide)).append he (by decide)
  exact .guarded _ ((Carries.element .inline (.plain tag) hall (.expr _)).congr (by simp) rfl)

theorem slotElement_carries (h : p.slotElement slot = .ok m) :
    Carries [m] [slotId slot.source.shown] [] :=
  slotMarkup_carries h .nil

theorem beforeField_carries (h : p.beforeField slot = .ok m) :
    Carries [m] [slotId slot.source.shown] [] := by
  unfold beforeField at h
  obtain ⟨label, -, h⟩ := Outcome.bind_ok h
  split at h
  · exact slotMarkup_carries h (.plain rfl (by decide))
  · exact slotElement_carries h

/-- Slots that are written one after the other. -/
theorem slots_carries {f : Parameter → Outcome Markup} {slots : List Parameter} {ms : List Markup}
    (hf : ∀ slot m, f slot = .ok m → Carries [m] [slotId slot.source.shown] [])
    (h : slots.mapM f = .ok ms) : Carries ms ((slots.map (·.source.shown)).map slotId) [] := by
  refine (Carries.mapM (fun slot _ m hm => hf slot m hm) h).congr ?_ (by simp)
  rw [List.map_map, List.map_eq_flatMap]
  rfl

/-- The content of a component carries the ids of the slots that it shows. -/
theorem content_carries {nodes : List Datum} {c : Content} (hn : p.nodes = .ok nodes)
    (h : p.content = .ok c) : Carries c.markup ((p.contentSlots nodes).map slotId) [] := by
  unfold content at h
  rw [hn, Outcome.ok_bind] at h
  unfold contentSlots
  split at h
  · rename_i hnodes
    rw [if_pos hnodes]
    split at h
    · rename_i hslots
      cases h
      rw [List.isEmpty_iff.1 hslots]
      exact .expr _
    · obtain ⟨ms, hms, h⟩ := Outcome.bind_ok h
      cases h
      exact slots_carries (fun _ _ => slotElement_carries) hms
  · rename_i hnodes
    rw [if_neg hnodes]
    obtain ⟨inTree, -, h⟩ := Outcome.bind_ok h
    obtain ⟨given, -, h⟩ := Outcome.bind_ok h
    obtain ⟨ms, hms, h⟩ := Outcome.bind_ok h
    cases h
    exact layers_carries _ hms

theorem triggerLabel_carries {fallback : String} (h : p.triggerLabel fallback = .ok m) :
    Carries [m] [] [] := by
  unfold triggerLabel at h
  obtain ⟨label, -, h⟩ := Outcome.bind_ok h
  cases label with
  | none => cases h; exact .text _
  | some label => cases h; exact .expr _

end Parts

/-! ## Attributes of outermost elements -/

def rootNames : List String := ownNames ++ ariaNames

section Attributes

variable {p : Plan} {as : List Attribute} {hs : List Handler} {opens withRole : Bool}
  {exclude refs : List String}

theorem own_bears (p : Plan) : Bears ownNames p.ownAttributes [] [] :=
  .of_named p.own_named (by decide) (by decide) (by decide)

theorem disabled_bears (p : Plan) : Bears ["disabled"] p.disabledAttribute [] [] :=
  .of_named p.disabled_named (by decide) (by decide) (by decide)

theorem key_bears (p : Plan) : Bears ["tabIndex", "onKeyDown"] p.keyAttributes [] [] :=
  .of_named p.key_named (by decide) (by decide) (by decide)

theorem handlers_bears (hp : p.blueprint.IsUsual) (h : p.handlersBut exclude = .ok hs) :
    Bears eventNames (handlerAttributes hs) [] [] :=
  .of_named (handlers_named hp h) (by decide) (by decide) (by decide)

theorem aria_bears (hp : p.blueprint.IsUsual) (h : p.aria opens withRole = .ok as) :
    ∃ refs, (∀ id, id ∈ refs ↔ p.blueprint.RefersTo id) ∧ Bears ariaNames as [] refs := by
  obtain ⟨hnamed, hrefs⟩ := ariaAttributes_spec hp h
  refine ⟨_, hrefs, hnamed, List.filterMap_eq_nil_iff.2 fun a ha => ?_, rfl⟩
  refine Attribute.literalId?_ne fun he => absurd (hnamed.among a ha) ?_
  rw [he]; decide

theorem root_bears (hp : p.blueprint.IsUsual) (h : p.rootAttributes opens withRole = .ok as) :
    ∃ refs, (∀ id, id ∈ refs ↔ p.blueprint.RefersTo id) ∧ Bears rootNames as [] refs := by
  unfold rootAttributes at h
  obtain ⟨aria, haria, h⟩ := Outcome.bind_ok h
  cases h
  obtain ⟨refs, hrefs, hbears⟩ := aria_bears hp haria
  exact ⟨refs, hrefs, p.own_bears.append hbears (by decide)⟩

/-- The attributes of an outermost element with its handlers. -/
theorem outer_bears (ha : Bears rootNames as [] refs)
    (hh : Bears eventNames (handlerAttributes hs) [] []) :
    Bears (rootNames ++ eventNames) (as ++ handlerAttributes hs) [] refs :=
  (ha.append hh (by decide)).congr rfl (List.append_nil _)

end Attributes

/-! ## Templates -/

section Templates

variable {p : Plan} {b : Body} {nodes : List Datum}

theorem button_exposes (hp : p.blueprint.IsUsual) (hn : p.nodes = .ok nodes)
    (h : p.button = .ok b) : p.Exposes [] (p.contentSlots nodes) b.markup := by
  unfold button at h
  obtain ⟨aria, haria, h⟩ := Outcome.bind_ok h
  obtain ⟨handlers, hhandlers, h⟩ := Outcome.bind_ok h
  obtain ⟨content, hcontent, h⟩ := Outcome.bind_ok h
  cases h
  obtain ⟨refs, hrefs, hroot⟩ := root_bears hp haria
  have htype : Bears ["type"] [Attribute.text "type" "button"] [] [] := .plain rfl (by decide)
  have hall := ((htype.append hroot (by decide)).append p.disabled_bears (by decide)).append
    (handlers_bears hp hhandlers) (by decide)
  have hcarries := (Carries.element (.spread 1) (.plain "button") hall
    (content_carries hn hcontent)).congr rfl (by simp : _ = refs)
  exact .of_carries hcarries (.refl _) hrefs

/-- The slots of a component, by distinct names, are the slots by their names. -/
theorem namedSlots_eq {names : List String} (hs : p.slots.map (·.source) = names.map Datum.text)
    (hn : names.Nodup) : p.namedSlots = .ok p.slots := by
  have hkey : ∀ s ∈ p.slots, (do return (← s.source.asKey, s) : Outcome (Datum × Parameter)) =
      .ok (s.source, s) := by
    intro s hslot
    have hmem : s.source ∈ names.map Datum.text := hs ▸ List.mem_map_of_mem hslot
    obtain ⟨name, -, hname⟩ := List.mem_map.1 hmem
    rw [Datum.asKey_eq (by rw [← hname]; rfl)]
    rfl
  have hpairs : (p.slots.map (·.source)).Pairwise fun d d' => (d == d') = false := by
    rw [hs, List.pairwise_map]
    exact hn.imp fun hne => Bool.eq_false_iff.2 fun he => hne (Datum.text.inj (Datum.same_text.1 he))
  have htable : Table.ofRows (p.slots.map fun s => (s.source, s)) =
      p.slots.map fun s => (s.source, s) := Table.ofRows_eq (by
    rw [List.pairwise_map] at hpairs ⊢
    exact hpairs)
  unfold namedSlots
  rw [Outcome.mapM_ok hkey, Outcome.ok_bind, htable, List.map_map]
  exact congrArg _ (List.map_id _)

theorem field_exposes (hp : p.blueprint.IsUsual) {names : List String}
    (hs : p.slots.map (·.source) = names.map Datum.text) (hd : names.Nodup) (h : p.field = .ok b) :
    p.Exposes [] (p.slots.map (·.source.shown)) b.markup := by
  unfold field at h
  rw [namedSlots_eq hs hd, Outcome.ok_bind] at h
  obtain ⟨marked, hmarked, h⟩ := Outcome.bind_ok h
  obtain ⟨front, hfront, h⟩ := Outcome.bind_ok h
  obtain ⟨aria, haria, h⟩ := Outcome.bind_ok h
  obtain ⟨handlers, hhandlers, h⟩ := Outcome.bind_ok h
  obtain ⟨back, hback, h⟩ := Outcome.bind_ok h
  cases h
  obtain ⟨refs, hrefs, haria⟩ := aria_bears hp haria
  have hslots : marked.map (·.1) = p.slots := by
    have hpairs := Outcome.forall₂_mapM hmarked
    refine (List.forall₂_eq_eq_eq ▸ List.forall₂_map_right_iff.2 (hpairs.imp fun s row hrow => ?_) :
      p.slots = marked.map (·.1)).symm
    obtain ⟨isBefore, -, hrow⟩ := Outcome.bind_ok hrow
    cases hrow
    rfl
  have hfield : Bears ["className", "id"]
      [p.partClass "field", Attribute.code "id" [.ref "inputId"]] [] [] :=
    ⟨.of_eq rfl (by decide), rfl, rfl⟩
  have hall := ((hfield.append haria (by decide)).append p.disabled_bears (by decide)).append
    (handlers_bears hp hhandlers) (by decide)
  have helement := Carries.element (.spread 1)
    (.plain (if p.blueprint.archetype = .textarea then "textarea" else "input")) hall .nil
  have hrest : Carries (if p.slots.isEmpty then [placeholder] else []) [] [] := by
    split
    · exact .expr _
    · exact .nil
  have hinner := (((slots_carries (fun _ _ => beforeField_carries) hfront).append helement).append
    (slots_carries (fun _ _ => slotElement_carries) hback)).append hrest
  refine .of_carries ((Carries.element (.spread 1) (.plain "div") p.own_bears hinner).congr rfl
    (by simp : _ = refs)) ?_ hrefs
  -- the slots in front and those behind are all slots
  have hsides := ((List.filter_append_perm (fun row : Parameter × Bool => row.2) marked).map
    (·.1)).trans (.of_eq hslots)
  rw [List.map_append] at hsides
  simpa using (hsides.map (·.source.shown)).map slotId

section Around

variable {aria : List Attribute} {hs : List Handler} {content : List Markup} {label : Markup}
  {ids refs : List String}

theorem bareListBox_carries (ha : Bears rootNames aria [] refs)
    (hh : Bears eventNames (handlerAttributes hs) [] []) (hc : Carries content ids []) :
    Carries [p.bareListBox aria hs content] ("listbox-id" :: ids) refs := by
  have houter := (outer_bears ha hh).append p.key_bears (by decide)
  have hlist : Bears ["className", "id", "role", "hidden"] [p.partClass "listbox", listBoxId,
      .text "role" "listbox", .code "hidden" [.raw "!", .ref "isOpen"]] ["listbox-id"] [] :=
    ⟨.of_eq rfl (by decide), rfl, rfl⟩
  exact (Carries.element _ _ houter (.element _ _ hlist hc)).congr rfl (by simp)

theorem openState_bears (c : Markup.Code) :
    Bears ["open", "onOpenChange"] (openState c) [] [] := .plain rfl (by decide)

theorem selectListBox_carries (space : String) (ha : Bears rootNames aria [] refs)
    (hh : Bears eventNames (handlerAttributes hs) [] []) (hc : Carries content ids []) :
    Carries [p.selectListBox space aria hs content] ("listbox-id" :: ids) refs := by
  have hvalue : Bears ["placeholder"] [Attribute.code "placeholder" [.literal selectText]] [] [] :=
    .plain rfl (by decide)
  have hicon : Bears ["className"] [p.partClass "icon"] [] [] := .plain rfl (by decide)
  have hcontent : Bears ["className", "position"]
      [p.partClass "content", Attribute.text "position" "popper"] [] [] := .plain rfl (by decide)
  have hid : Bears ["id"] [listBoxId] ["listbox-id"] [] := ⟨.of_eq rfl (by decide), rfl, rfl⟩
  have htrigger := Carries.element (.spread 1) (part space "Trigger") (outer_bears ha hh)
    ((Carries.element .inline (part space "Value") hvalue .nil).cons
      (.element .inline (part space "Icon") hicon .nil))
  have hportal := Carries.wrapped (.block 1) (part space "Portal")
    (.element (.block 1) (part space "Content") hcontent
      (.element (.block 2) (part space "Viewport") hid hc))
  exact (Carries.element _ _ (openState_bears _) (htrigger.cons hportal)).congr rfl (by simp)

theorem popupListBox_carries (space : String) (ha : Bears rootNames aria [] refs)
    (hh : Bears eventNames (handlerAttributes hs) [] []) (hl : Carries [label] [] [])
    (hc : Carries content ids []) :
    Carries [p.popupListBox space aria hs label content] ("listbox-id" :: ids) refs := by
  have htype : Bears ["type"] [Attribute.text "type" "button"] [] [] := .plain rfl (by decide)
  have hbutton := (htype.append ha (by decide)).append hh (by decide)
  have hlist : Bears ["className", "id", "role"]
      [p.partClass "content", listBoxId, .text "role" "listbox"] ["listbox-id"] [] :=
    ⟨.of_eq rfl (by decide), rfl, rfl⟩
  have hchild : Bears ["asChild"] [Attribute.flag "asChild"] [] [] := .plain rfl (by decide)
  have htrigger := Carries.element (.block 1) (part space "Trigger") hchild
    (.element (.spread 1) (.plain "button") hbutton hl)
  have hportal := Carries.wrapped (.block 1) (part space "Portal")
    (.element (.block 2) (part space "Content") hlist hc)
  exact (Carries.element _ _ (openState_bears _) (htrigger.cons hportal)).congr rfl (by simp)

theorem bareDialog_carries (hl : Carries [label] [] []) (ha : Bears rootNames aria [] refs)
    (hh : Bears eventNames (handlerAttributes hs) [] []) (hc : Carries content ids []) :
    Carries [p.bareDialog label aria hs content] ids refs := by
  have hbutton : Bears ["type", "className", "onClick"] [typeButton, p.partClass "trigger",
      .code "onClick" [.raw "() => ", .ref "setIsOpen", .raw "(true)"]] [] [] :=
    .plain rfl (by decide)
  have hoverlay : Bears ["className", "role"]
      [p.partClass "overlay", Attribute.text "role" "presentation"] [] [] := .plain rfl (by decide)
  have houter := (outer_bears ha hh).append p.key_bears (by decide)
  have htrigger := Carries.element (.block 1) (.plain "button") hbutton hl
  have hopen := Carries.guarded "isOpen" (Carries.element (.block 1) (.plain "div") hoverlay
    (.element (.spread 1) (.plain "div") houter hc))
  exact (Carries.wrapped (.block 1) (.plain "") (htrigger.cons hopen)).congr rfl (by simp)

theorem primitiveDialog_carries (space title : String) (hl : Carries [label] [] [])
    (ha : Bears rootNames aria [] refs) (hh : Bears eventNames (handlerAttributes hs) [] [])
    (hc : Carries content ids []) :
    Carries [p.primitiveDialog space label aria hs title content] ("dialog-title" :: ids) refs := by
  have hbutton : Bears ["type", "className"] [typeButton, p.partClass "trigger"] [] [] :=
    .plain rfl (by decide)
  have hoverlay : Bears ["className"] [p.partClass "overlay"] [] [] := .plain rfl (by decide)
  have hid : Bears ["className", "id"] [p.partClass "title", .text "id" "dialog-title"]
      ["dialog-title"] [] := ⟨.of_eq rfl (by decide), rfl, rfl⟩
  have hchild : Bears ["asChild"] [Attribute.flag "asChild"] [] [] := .plain rfl (by decide)
  have htrigger := Carries.element (.block 1) (part space "Trigger") hchild
    (.element .inline (.plain "button") hbutton hl)
  have hheading := Carries.element .inline (part space "Title") hid (.text title)
  have hportal := Carries.wrapped (.block 1) (part space "Portal")
    ((Carries.element .inline (part space "Overlay") hoverlay .nil).cons
      (.element (.spread 2) (part space "Content") (outer_bears ha hh) (hheading.append hc)))
  exact (Carries.element _ _ (openState_bears _) (htrigger.cons hportal)).congr rfl (by simp)

end Around

theorem listBox_exposes (hp : p.blueprint.IsUsual) (hn : p.nodes = .ok nodes)
    (h : p.listBox = .ok b) : p.Exposes ["listbox-id"] (p.contentSlots nodes) b.markup := by
  unfold listBox at h
  obtain ⟨aria, haria, h⟩ := Outcome.bind_ok h
  obtain ⟨handlers, hhandlers, h⟩ := Outcome.bind_ok h
  obtain ⟨markup, hmarkup, h⟩ := Outcome.bind_ok h
  obtain ⟨content, hcontent, h⟩ := Outcome.bind_ok h
  cases h
  obtain ⟨refs, hrefs, hroot⟩ := root_bears hp haria
  have hh := handlers_bears hp hhandlers
  have hc := content_carries hn hcontent
  suffices hm : Carries [markup content.markup]
      ("listbox-id" :: (p.contentSlots nodes).map slotId) refs from .of_carries hm (.refl _) hrefs
  unfold listBoxMarkup at hmarkup
  split at hmarkup
  · cases hmarkup
    exact bareListBox_carries hroot hh hc
  · rename_i q _
    split at hmarkup
    · cases hmarkup
      exact selectListBox_carries q.name hroot hh hc
    · obtain ⟨label, hlabel, hmarkup⟩ := Outcome.bind_ok hmarkup
      cases hmarkup
      exact popupListBox_carries q.name hroot hh (triggerLabel_carries hlabel) hc

theorem dialog_exposes (hp : p.blueprint.IsUsual) (hn : p.nodes = .ok nodes)
    (h : p.dialog = .ok b) :
    p.Exposes (if p.primitive.isSome then ["dialog-title"] else []) (p.contentSlots nodes)
      b.markup := by
  unfold dialog at h
  obtain ⟨label, hlabel, h⟩ := Outcome.bind_ok h
  obtain ⟨aria, haria, h⟩ := Outcome.bind_ok h
  obtain ⟨handlers, hhandlers, h⟩ := Outcome.bind_ok h
  obtain ⟨markup, hmarkup, h⟩ := Outcome.bind_ok h
  obtain ⟨content, hcontent, h⟩ := Outcome.bind_ok h
  cases h
  obtain ⟨refs, hrefs, hroot⟩ := root_bears hp haria
  have hl := triggerLabel_carries hlabel
  have hh := handlers_bears hp hhandlers
  have hc := content_carries hn hcontent
  suffices hm : Carries [markup content.markup] ((if p.primitive.isSome then ["dialog-title"] else []) ++
      (p.contentSlots nodes).map slotId) refs from .of_carries hm (.refl _) hrefs
  unfold dialogMarkup at hmarkup
  split at hmarkup
  · rename_i hq
    cases hmarkup
    rw [hq]
    exact bareDialog_carries hl hroot hh hc
  · rename_i q hq
    obtain ⟨title, -, hmarkup⟩ := Outcome.bind_ok hmarkup
    cases hmarkup
    rw [hq]
    exact primitiveDialog_carries q.name title hl hroot hh hc

theorem container_exposes (hp : p.blueprint.IsUsual) (hn : p.nodes = .ok nodes)
    (h : p.container = .ok b) : p.Exposes [] (p.contentSlots nodes) b.markup := by
  unfold container at h
  obtain ⟨aria, haria, h⟩ := Outcome.bind_ok h
  obtain ⟨handlers, hhandlers, h⟩ := Outcome.bind_ok h
  obtain ⟨content, hcontent, h⟩ := Outcome.bind_ok h
  cases h
  obtain ⟨refs, hrefs, hroot⟩ := root_bears hp haria
  have hdisabled : Bears ["aria-disabled"] p.disabledAria [] [] :=
    .of_named p.disabledAria_named (by decide) (by decide) (by decide)
  have hall := ((hroot.append hdisabled (by decide)).append (handlers_bears hp hhandlers)
    (by decide)).append p.key_bears (by decide)
  have hcarries := (Carries.element (.spread 1) (.plain "div") hall
    (content_carries hn hcontent)).congr rfl (by simp : _ = refs)
  exact .of_carries hcarries (.refl _) hrefs

/-- Every template writes out the ids of the slots that it shows. -/
theorem body_exposes (hp : p.blueprint.IsUsual) {names : List String}
    (hs : p.slots.map (·.source) = names.map Datum.text) (hd : names.Nodup)
    (hn : p.nodes = .ok nodes) (h : p.body = .ok b) :
    p.Exposes p.ownIds (p.shown nodes) b.markup := by
  unfold body at h
  unfold ownIds shown
  split at h <;> rename_i ht <;> rw [ht]
  · exact button_exposes hp hn h
  · exact field_exposes hp hs hd h
  · exact listBox_exposes hp hn h
  · exact dialog_exposes hp hn h
  · exact container_exposes hp hn h

end Templates

end Plan

end Maquette.Component
