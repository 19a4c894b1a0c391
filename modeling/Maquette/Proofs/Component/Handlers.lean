/-
The handlers of events. An event has at most one attribute, and the attributes come in the order in which
rules first name their events. What an event does is what its rules add, each statement once and where it
is first asked for, and then the answer from outside, if the component has a parameter for it.

What is kept of a list is told item by item, as it is gathered, and so it does not depend on the way in
which repeated items are removed. Events are compared as keys and statements by their texts.
-/
import Maquette.Proofs.Component.Names
import Maquette.Proofs.Component.Parameters
import Maquette.Proofs.Component.Statements
import Maquette.Proofs.Key

namespace Maquette.Component

open Markup (Attribute Code Piece)

/-! ## First occurrences -/

/-- What is kept of items that come one after the other, when an item that is the same as a kept one is
left out. -/
inductive FirstSeen {α : Type} [BEq α] : List α → List α → Prop
  | nil : FirstSeen [] []
  | again {items kept : List α} {a : α} : FirstSeen items kept → (∃ b ∈ kept, (b == a) = true) →
      FirstSeen (items ++ [a]) kept
  | first {items kept : List α} {a : α} : FirstSeen items kept → (∀ b ∈ kept, (b == a) = false) →
      FirstSeen (items ++ [a]) (kept ++ [a])

section FirstSeen

variable {α β γ : Type} [BEq α] [BEq β] {items kept : List α}

/-- Items are the same exactly if they have one code. -/
def HaveCode (f : α → γ) (items : List α) : Prop :=
  ∀ a ∈ items, ∀ b ∈ items, (a == b) = true ↔ f a = f b

/-- One more item is distinct from those before it, or it is left out. -/
theorem distinct_snoc {f : α → γ} {a : α} (h : HaveCode f (items ++ [a])) :
    (∃ b ∈ distinct items, (b == a) = true) ∧ distinct (items ++ [a]) = distinct items ∨
      (∀ b ∈ distinct items, (b == a) = false) ∧ distinct (items ++ [a]) = distinct items ++ [a] := by
  induction items with
  | nil => exact .inr ⟨by simp [distinct], rfl⟩
  | cons c items ih =>
    have hcode : HaveCode f (items ++ [a]) := fun b hb b' hb' =>
      h b (List.mem_cons_of_mem _ hb) b' (List.mem_cons_of_mem _ hb')
    have hc : c ∈ c :: items ++ [a] := List.mem_cons_self
    have ha : a ∈ c :: items ++ [a] := List.mem_append_right _ (List.mem_singleton_self a)
    have hsymm : (a == c) = true ↔ (c == a) = true := by rw [h a ha c hc, h c hc a ha, eq_comm]
    rw [List.cons_append, distinct, distinct]
    rcases ih hcode with ⟨⟨b, hb, hsame⟩, hkept⟩ | ⟨hother, hkept⟩ <;> rw [hkept]
    · left
      refine ⟨?_, rfl⟩
      by_cases hbc : (b == c) = true
      · have hmem : b ∈ c :: items ++ [a] :=
          List.mem_append_left _ (List.mem_cons_of_mem _ (mem_distinct hb))
        refine ⟨c, List.mem_cons_self, (h c hc a ha).2 ?_⟩
        rw [← (h b hmem c hc).1 hbc, (h b hmem a ha).1 hsame]
      · exact ⟨b, List.mem_cons_of_mem _ (List.mem_filter.2 ⟨hb, by simpa using hbc⟩), hsame⟩
    · rw [List.filter_append]
      by_cases hac : (a == c) = true
      · left
        refine ⟨⟨c, List.mem_cons_self, hsymm.1 hac⟩, ?_⟩
        rw [List.filter_cons_of_neg (by simpa using hac), List.filter_nil, List.append_nil]
      · right
        refine ⟨List.forall_mem_cons.2 ⟨?_, fun b hb => hother b (List.mem_of_mem_filter hb)⟩, ?_⟩
        · rw [← Bool.not_eq_true, ← hsymm]
          exact hac
        · rw [List.filter_cons_of_pos (by simpa using hac), List.filter_nil, List.cons_append]

theorem firstSeen_distinct {f : α → γ} (h : HaveCode f items) : FirstSeen items (distinct items) := by
  induction items using List.reverseRecOn with
  | nil => exact .nil
  | append_singleton items a ih =>
    have hbefore := ih fun b hb c hc => h b (List.mem_append_left _ hb) c (List.mem_append_left _ hc)
    rcases distinct_snoc h with ⟨hsame, hkept⟩ | ⟨hother, hkept⟩ <;> rw [hkept]
    · exact hbefore.again hsame
    · exact hbefore.first hother

/-- What is gathered can be shown in another way that tells the items apart alike. -/
theorem FirstSeen.map {g : α → β} (hg : ∀ a b, (g a == g b) = (a == b)) (h : FirstSeen items kept) :
    FirstSeen (items.map g) (kept.map g) := by
  induction h with
  | nil => exact .nil
  | again _ hsame ih =>
    obtain ⟨b, hb, hsame⟩ := hsame
    rw [List.map_append]
    exact ih.again ⟨g b, List.mem_map_of_mem hb, (hg ..).trans hsame⟩
  | first _ hother ih =>
    rw [List.map_append, List.map_append]
    refine ih.first fun b hb => ?_
    obtain ⟨a, ha, rfl⟩ := List.mem_map.1 hb
    exact (hg ..).trans (hother a ha)

/-- Every item is the same as one that is kept. -/
theorem FirstSeen.exists_same (h : FirstSeen items kept) (hrefl : ∀ a ∈ items, (a == a) = true) :
    ∀ a ∈ items, ∃ b ∈ kept, (b == a) = true := by
  induction h with
  | nil => simp
  | again _ hsame ih =>
    intro a ha
    rcases List.mem_append.1 ha with ha | ha
    · exact ih (fun a ha => hrefl a (List.mem_append_left _ ha)) a ha
    · exact List.mem_singleton.1 ha ▸ hsame
  | first _ _ ih =>
    intro a ha
    rcases List.mem_append.1 ha with hbefore | hlast
    · obtain ⟨b, hb, hsame⟩ := ih (fun a ha => hrefl a (List.mem_append_left _ ha)) a hbefore
      exact ⟨b, List.mem_append_left _ hb, hsame⟩
    · exact ⟨a, List.mem_append_right _ hlast, hrefl a ha⟩

end FirstSeen

/-! ## Answers from outside -/

/-- Whether there is a parameter for the answer to an event from outside. -/
def IsDeclared (ps : List Parameter) (event : String) : Prop :=
  ∃ p ∈ ps, p.kind = .event ∧ p.source = .text event ∧ p.key = event ∧ p.name = event

/-- A parameter with a fixed name is there for an event, or it has the name of none and does not stand for
an event that is called like it. -/
theorem fixedParameters_cases {b : Blueprint} {handlesKeys : Bool} {p : Parameter}
    (h : p ∈ fixedParameters b handlesKeys) : p ∈ eventParameters b ∨
      p.name ∉ eventTypes.map Prod.fst ∧ (p.kind = .event → p.source ≠ .text p.name) := by
  unfold fixedParameters at h
  simp only [List.mem_append] at h
  rcases h with (((h | h) | h) | h) | h
  · split at h
    · obtain rfl := List.mem_singleton.1 h
      exact .inr ⟨by decide, fun hkind => by cases hkind⟩
    · cases h
  · obtain ⟨row, hrow, rfl⟩ := List.mem_map.1 h
    have hnames : ∀ row ∈ ariaAttributes, row.1 ∉ eventTypes.map Prod.fst := by decide
    exact .inr ⟨hnames row (List.mem_of_mem_filter hrow), fun hkind => by cases hkind⟩
  · exact .inl h
  · split at h
    · obtain rfl := List.mem_singleton.1 h
      exact .inr ⟨by decide, fun _ hsource => absurd (Datum.text.inj hsource) (by decide)⟩
    · cases h
  · simp only [closingParameters, List.mem_cons, List.not_mem_nil, or_false] at h
    rcases h with rfl | rfl | rfl <;> exact .inr ⟨by decide, fun hkind => by cases hkind⟩

/-- An event is passed on exactly if there is a parameter for it: the parameters of properties and slots
have other names. -/
theorem isForwarded_iff (b : Blueprint) (handlesKeys : Bool) (event : String) :
    isForwarded (parameters b handlesKeys) event = true ↔ IsDeclared (parameters b handlesKeys) event := by
  have hlookup : (eventTypes.lookup event).isSome = true ↔ event ∈ eventTypes.map Prod.fst := by
    simp only [List.lookup_isSome_iff, List.mem_map, beq_iff_eq]
    exact exists_congr fun row => and_congr_right fun _ => eq_comm
  rw [isForwarded, Bool.and_eq_true, hlookup, hasParameter, List.any_eq_true, IsDeclared, parameters_eq]
  constructor
  · rintro ⟨hevent, p, hp, hname⟩
    obtain rfl := beq_iff_eq.1 hname
    rcases List.mem_append.1 hp with hown | hfixed
    · have hreserved : ∀ name ∈ eventTypes.map Prod.fst, name ∈ reservedNames := by decide
      exact absurd rfl (own_ne_reserved hown (hreserved _ hevent))
    · rcases fixedParameters_cases hfixed with hdeclared | ⟨hother, -⟩
      · obtain ⟨row, -, rfl⟩ := List.mem_map.1 hdeclared
        exact ⟨_, hp, rfl, rfl, rfl, rfl⟩
      · exact absurd hevent hother
  · rintro ⟨p, hp, hkind, hsource, hkey, rfl⟩
    refine ⟨?_, p, hp, beq_iff_eq.2 rfl⟩
    rcases List.mem_append.1 hp with hown | hfixed
    · rcases (ownParameters_key hown).2 with hvariant | hslot
      · rw [hvariant] at hkind; cases hkind
      · rw [hslot] at hkind; cases hkind
    · rcases fixedParameters_cases hfixed with hdeclared | ⟨-, hother⟩
      · obtain ⟨row, hrow, rfl⟩ := List.mem_map.1 hdeclared
        exact List.mem_map_of_mem (List.mem_of_mem_filter hrow)
      · exact absurd hsource (hother hkind)

/-! ## Attributes -/

/-- The handler that runs statements in order; it takes the event if any of them mentions it. -/
def running (event : String) (statements : List String) : String :=
  event ++ "=\x7b(" ++ (if ∃ s ∈ statements, "event".toList <:+: s.toList then "event" else "") ++ ") => \x7b " ++
    " ".intercalate statements ++ " \x7d\x7d"

/-- The attribute of an event for what its rules add, and for the answer from outside if one is declared:
none if there is neither. -/
inductive Written (event : String) (declared : Bool) : List String → Option String → Prop
  | nothing : declared = false → Written event declared [] none
  | passed : declared = true → Written event declared [] (some (event ++ "=\x7b" ++ event ++ "\x7d"))
  | handled {added : List String} : added ≠ [] → Written event declared added
      (some (running event (added ++ if declared then [event ++ "?.(event);"] else [])))

namespace Handler

theorem text_codes (h : Handler) : h.codes.map Code.text =
    (h.statements.map fun s => s.code.text) ++
      if h.isForwarded then [h.trigger ++ "?.(event);"] else [] := by
  rw [codes, List.map_append, List.map_map]
  congr 1
  cases h.isForwarded with
  | false => rfl
  | true =>
    have htext : Code.text [.ref h.trigger, .raw "?.(event);"] = h.trigger ++ "?.(event);" := by
      simp [Code.text, Piece.text]
    exact congrArg (fun s => [s]) htext

/-- A handler takes the event exactly if what it runs mentions it. -/
theorem takesEvent_iff (h : Handler) :
    h.takesEvent = true ↔ ∃ s ∈ h.codes.map Code.text, "event".toList <:+: s.toList := by
  simp only [takesEvent, List.any_eq_true, Text.has, Text.occursIn_iff, List.mem_map,
    exists_exists_and_eq_and]

theorem text_running (h : Handler) :
    (Attribute.code h.trigger ([.raw ((if h.takesEvent then "(event)" else "()") ++ " => \x7b ")] ++
      Code.between " " h.codes ++ [.raw " \x7d"])).toCode.text =
    running h.trigger (h.codes.map Code.text) := by
  rw [Attribute.text_code, Code.text_append, Code.text_append, Code.text_raw, Code.text_raw,
    Code.text_between, running]
  refine String.toList_injective ?_
  by_cases htakes : h.takesEvent = true
  · rw [if_pos htakes, if_pos (h.takesEvent_iff.1 htakes)]
    simp
  · rw [if_neg htakes, if_neg (mt h.takesEvent_iff.2 htakes)]
    simp

/-- The attribute of a handler is written as its statements and the answer from outside ask. -/
theorem written (h : Handler) :
    Written h.trigger h.isForwarded (h.statements.map fun s => s.code.text)
      (h.attribute?.map fun a => a.toCode.text) := by
  unfold attribute?
  split
  · rename_i hempty
    rw [List.isEmpty_iff.1 hempty]
    split
    · rename_i hforwarded
      have htext : Code.text [.ref h.trigger] = h.trigger := by simp [Code.text, Piece.text]
      rw [Option.map_some, Attribute.text_code, htext]
      exact .passed hforwarded
    · rename_i hforwarded
      exact .nothing (Bool.eq_false_of_not_eq_true hforwarded)
  · rename_i hstatements
    rw [Option.map_some, text_running, text_codes]
    refine .handled fun hnil => hstatements ?_
    rw [List.map_eq_nil_iff.1 hnil]
    rfl

end Handler

/-! ## Events -/

/-- The events that rules name one after the other, but for those that are left out. -/
def namedEvents (b : Blueprint) (exclude : List String) : List Datum :=
  (b.rules.map (·.trigger)).filter fun t => t.isTruthy && !t.isOneOf exclude

/-- The rules of an event. -/
def rulesOf (b : Blueprint) (t : Datum) : List RuleSpec := b.rules.filter (·.trigger == t)

/-- What an event is answered with: what its rules add, in their order and without repeats, and at last
the answer from outside if one is declared. -/
def Answered (b : Blueprint) (ps : List Parameter) (t : Datum) (attribute? : Option String) : Prop :=
  ∃ added kept declared,
    List.Forall₂ (fun rule text? => ∀ s, text? = some s ↔ Adds b.isMultiState rule s) (rulesOf b t) added ∧
      FirstSeen added.reduceOption kept ∧ (declared = true ↔ IsDeclared ps t.shown) ∧
      Written t.shown declared kept attribute?

section Events

variable {outline interaction : Datum} {b : Blueprint} {handlesKeys : Bool} {exclude : List String}
  {t : Datum} {h : Handler}

theorem handler_answered (hh : handler b (parameters b handlesKeys) t = .ok h) :
    Answered b (parameters b handlesKeys) t (h.attribute?.map fun a => a.toCode.text) := by
  obtain ⟨statements, hstatements, hh⟩ := Outcome.bind_ok hh
  cases hh
  refine ⟨statements.map (Option.map fun s => s.code.text), _, _, ?_, ?_, isForwarded_iff ..,
    Handler.written ⟨t.shown, distinct (statements.filterMap id), _⟩⟩
  · rw [List.forall₂_map_right_iff]
    exact (Outcome.forall₂_mapM hstatements).imp fun rule added hadded => adds_iff hadded
  · have hcode : HaveCode id (statements.filterMap id) := fun s _ s' _ => beq_iff_eq
    have htexts : ∀ s s' : Statement, (s.code.text == s'.code.text) = (s == s') := fun s s' => by
      rw [Bool.eq_iff_iff, beq_iff_eq, beq_iff_eq]
      exact Statement.text_injective.eq_iff
    rw [List.reduceOption_map]
    exact (firstSeen_distinct hcode).map htexts

/-- A handler can be read unless a rule of its event asks for something under a condition that is no
key. -/
theorem handler_ok_iff {ps : List Parameter} : (∃ h, handler b ps t = .ok h) ↔
    ∀ rule ∈ rulesOf b t, (∃ s, Asks b.isMultiState rule s) → rule.condition.isTruthy = true →
      rule.condition.isKey = true := by
  constructor
  · rintro ⟨h, hh⟩ rule hrule
    obtain ⟨statements, hstatements, -⟩ := Outcome.bind_ok hh
    obtain ⟨added, -, hadded⟩ := Outcome.mapM_mem hstatements rule hrule
    exact ofRule?_ok_iff.1 ⟨added, hadded⟩
  · intro hrules
    obtain ⟨statements, hstatements, -⟩ := Outcome.mapM_all (Q := fun _ => True) hrules
      fun rule hrule => (ofRule?_ok_iff.2 hrule).imp fun added hadded => ⟨hadded, trivial⟩
    exact ⟨_, by rw [handler, ← rulesOf, hstatements]; rfl⟩

/-- The events that rules name are keys. -/
theorem isKey_trigger (h : Blueprint.read outline interaction = .ok b) :
    ∀ rule ∈ b.rules, rule.trigger.isKey = true := by
  obtain ⟨-, -, -, -, -, ⟨items, -, hrules⟩, -⟩ := Blueprint.read_ok h
  intro rule hrule
  obtain ⟨d, -, hread⟩ := Outcome.mem_mapM hrules rule hrule
  obtain ⟨_, -, hread⟩ := Outcome.bind_ok hread
  obtain ⟨key, hkey, hread⟩ := Outcome.bind_ok hread
  obtain ⟨_, -, hread⟩ := Outcome.bind_ok hread
  obtain ⟨_, -, hread⟩ := Outcome.bind_ok hread
  obtain ⟨_, -, hread⟩ := Outcome.bind_ok hread
  cases hread
  unfold Datum.asKey at hkey
  split at hkey
  · rename_i hisKey
    cases hkey
    exact hisKey
  · cases hkey

theorem isKey_namedEvents (h : Blueprint.read outline interaction = .ok b) (exclude : List String) :
    ∀ t ∈ namedEvents b exclude, t.isKey = true := by
  intro t ht
  obtain ⟨rule, hrule, rfl⟩ := List.mem_map.1 (List.mem_of_mem_filter ht)
  exact isKey_trigger h rule hrule

theorem haveCode_namedEvents (h : Blueprint.read outline interaction = .ok b) (exclude : List String) :
    HaveCode Datum.keyCode (namedEvents b exclude) := fun t ht _ _ =>
  Datum.same_iff (.inl (isKey_namedEvents h exclude t ht))

/-- The events whose handlers are made are those that are named, each where it is first seen. -/
theorem firstSeen_triggers (h : Blueprint.read outline interaction = .ok b) (exclude : List String) :
    FirstSeen (namedEvents b exclude) (triggers b.rules exclude) :=
  firstSeen_distinct (haveCode_namedEvents h exclude)

/-- Rules of events that are the same are the same. -/
theorem rulesOf_same (h : Blueprint.read outline interaction = .ok b) {t' : Datum} (ht : t'.isKey = true)
    (hsame : (t' == t) = true) : rulesOf b t = rulesOf b t' := by
  refine List.filter_congr fun rule hrule => ?_
  have hkey := isKey_trigger h rule hrule
  rw [Bool.eq_iff_iff, Datum.same_iff (.inl hkey), Datum.same_iff (.inl hkey), (Datum.same_iff (.inl ht)).1 hsame]

/-- Whatever the documents of a component are and whichever events are left out, the attributes of the
others come in the order in which rules first name them, at most one for each, and an event is answered
with all that its rules add. They can be written unless a rule asks for something under a condition that
is no key. -/
theorem handlers_answered (h : Blueprint.read outline interaction = .ok b) (handlesKeys : Bool)
    (exclude : List String) :
    ((∃ hs, handlers b (parameters b handlesKeys) exclude = .ok hs) ↔
      ∀ t ∈ namedEvents b exclude, ∀ rule ∈ rulesOf b t, (∃ s, Asks b.isMultiState rule s) →
        rule.condition.isTruthy = true → rule.condition.isKey = true) ∧
    ∀ hs, handlers b (parameters b handlesKeys) exclude = .ok hs →
      ∃ events attributes, FirstSeen (namedEvents b exclude) events ∧
        List.Forall₂ (Answered b (parameters b handlesKeys)) events attributes ∧
        (handlerAttributes hs).map (fun a => a.toCode.text) = attributes.reduceOption := by
  have hseen := firstSeen_triggers h exclude
  refine ⟨⟨?_, ?_⟩, ?_⟩
  · rintro ⟨hs, hhs⟩ t ht
    have hcode := haveCode_namedEvents h exclude
    obtain ⟨t', ht', hsame⟩ := hseen.exists_same (fun a ha => (hcode a ha a ha).2 rfl) t ht
    obtain ⟨hd, -, hhd⟩ := Outcome.mapM_mem hhs t' ht'
    rw [rulesOf_same h (isKey_namedEvents h exclude t' (mem_distinct ht')) hsame]
    exact handler_ok_iff.1 ⟨hd, hhd⟩
  · intro hrules
    obtain ⟨hs, hhs, -⟩ := Outcome.mapM_all (Q := fun _ => True)
      (fun t ht => hrules t (mem_distinct ht)) fun t ht =>
        (handler_ok_iff.2 ht).imp fun hd hhd => ⟨hhd, trivial⟩
    exact ⟨hs, hhs⟩
  · intro hs hhs
    refine ⟨_, hs.map fun h => h.attribute?.map fun a => a.toCode.text, hseen, ?_, ?_⟩
    · rw [List.forall₂_map_right_iff]
      exact (Outcome.forall₂_mapM hhs).imp fun t h hh => handler_answered hh
    · rw [handlerAttributes, List.map_filterMap, List.reduceOption, List.filterMap_map]
      rfl

end Events

/-- A list that opens when it gets the focus, for which there are three rules, and closes when the pointer
is elsewhere. -/
def listInteraction : Datum :=
  .record
    [("states", .list [.record [("name", .text "default")], .record [("name", .text "focus")]]),
     ("interactions", .list
       [.record [("trigger", .text "onFocus"), ("action", .text "open")],
        .record [("trigger", .text "onBlur"), ("action", .text "close"),
          ("condition", .text "!isMouseInside")],
        .record [("trigger", .text "onFocus"), ("action", .text "setState"), ("target", .text "focus")],
        .record [("trigger", .text "onFocus"), ("action", .text "open")]])]

/-- What is written for the list. -/
def listHandlers : List String :=
  ["onFocus=\x7b(event) => \x7b setIsOpen(true); setInteractionState('focus'); onFocus?.(event); \x7d\x7d",
   "onBlur=\x7b(event) => \x7b if (!event.currentTarget.contains(event.relatedTarget as Node | null)) " ++
     "setIsOpen(false); onBlur?.(event); \x7d\x7d"]

theorem handlers_answered_list : ∃ b hs events attributes,
    Blueprint.read .empty listInteraction = .ok b ∧ handlers b (parameters b false) [] = .ok hs ∧
      FirstSeen (namedEvents b []) events ∧
      List.Forall₂ (Answered b (parameters b false)) events attributes ∧
      attributes.reduceOption = listHandlers := by
  have hwritten : ((Blueprint.read .empty listInteraction >>= fun b =>
      handlers b (parameters b false) []).toOption.map fun hs =>
        (handlerAttributes hs).map fun a => a.toCode.text) = some listHandlers := by
    decide +kernel
  obtain ⟨hs, hhs, htexts⟩ := Outcome.ok_of_toOption hwritten
  obtain ⟨b, hb, hhs⟩ := Outcome.bind_ok hhs
  obtain ⟨events, attributes, hseen, hanswered, hattributes⟩ := (handlers_answered hb false []).2 hs hhs
  exact ⟨b, hs, events, attributes, hb, hhs, hseen, hanswered, hattributes.symm.trans htexts⟩

end Maquette.Component
