/-
The attributes of a component's outermost elements come from several sources: its own class, style and
state, the accessibility entries, whether it is disabled, its handlers and its answer to keys. For the
entries and events that archetypes bring along, the names of these sources are known, distinct within
each source and between any two of them. Of all of them only the accessibility entries refer to other
elements.
-/
import Maquette.Proofs.Component.Names
import Maquette.Proofs.Component.Parameters
import Maquette.Proofs.Markup.Elements
import Maquette.Proofs.Text
import Maquette.Component.Template

namespace Maquette.Component

open Markup (Attribute Named referencesOf)

/-! ## What archetypes bring along -/

/-- The keys of accessibility entries with the names of their attributes. -/
def ariaEntries : List (String × String) :=
  [("role", "role"), ("ariaLabel", "aria-label"), ("ariaExpanded", "aria-expanded"),
   ("ariaControls", "aria-controls"), ("ariaAutocomplete", "aria-autocomplete"),
   ("ariaModal", "aria-modal"), ("ariaLabelledBy", "aria-labelledby"),
   ("ariaDescribedBy", "aria-describedby"), ("ariaChecked", "aria-checked"),
   ("ariaValueMin", "aria-valuemin"), ("ariaValueMax", "aria-valuemax"),
   ("ariaValueNow", "aria-valuenow")]

def ariaKeys : List String := ariaEntries.map Prod.fst

def ariaNames : List String := ariaEntries.map Prod.snd

/-- The keys of the entries that refer to other elements. -/
def referenceKeys : List String := ["ariaLabelledBy", "ariaDescribedBy"]

def eventNames : List String :=
  ["onClick", "onFocus", "onBlur", "onOpenChange", "onMouseEnter", "onMouseLeave", "onMouseDown",
   "onMouseUp"]

/-- The accessibility entries and the events of a blueprint are such as archetypes bring along. -/
structure Blueprint.IsUsual (b : Blueprint) : Prop where
  distinct : (b.aria.map Prod.fst).Nodup
  known : ∀ row ∈ b.aria, row.1 ∈ ariaKeys
  texts : ∀ row ∈ b.aria, row.1 ∈ referenceKeys → ∃ s, row.2 = .text s
  events : ∀ rule ∈ b.rules, ∃ event ∈ eventNames, rule.trigger = .text event

/-! ## Accessibility -/

/-- The name of the attribute of an accessibility entry. -/
def ariaName (key : String) : String :=
  if key == "role" then "role"
  else match Text.dropPrefix? "aria".toList key.toList with
    | some (c :: rest) => "aria-" ++ Text.lower (String.ofList (c :: rest))
    | _ => ""

theorem ariaName_entries : ∀ entry ∈ ariaEntries, ariaName entry.1 = entry.2 := by decide +kernel

/-- The ids that the text of an entry refers to. -/
def idsIn (value : String) : List String := (Text.words (· == ' ') value.toList).map String.ofList

section Aria

variable {ps : List Parameter} {opens withRole : Bool} {key : String} {value : Datum}

theorem ariaKeys_lettered (hk : key ∈ ariaKeys) (hr : key ≠ "role") :
    ∃ c rest, Text.dropPrefix? "aria".toList key.toList = some (c :: rest) := by
  have hletters : ∀ key ∈ ariaKeys, key ≠ "role" →
      (Text.dropPrefix? "aria".toList key.toList).any (!·.isEmpty) = true := by decide
  have hany := hletters key hk hr
  cases hdrop : Text.dropPrefix? "aria".toList key.toList with
  | none => rw [hdrop] at hany; cases hany
  | some letters =>
    cases letters with
    | nil => rw [hdrop] at hany; cases hany
    | cons c rest => exact ⟨c, rest, rfl⟩

/-- All entries but the role have an attribute of their own, with the value of the parameter that can
replace the entry, if there is one. -/
theorem ariaAttribute_cases {o : Option Attribute} (hv : value.isNull = false) (hk : key ∈ ariaKeys)
    (hr : key ≠ "role") (h : ariaAttribute? ps opens withRole key value = .ok o) :
    (∃ q piece, parameter? ps .aria key = some q ∧ Markup.Piece.ofDatum value = .ok piece ∧
      o = some (.code (ariaName key) [.ref q.name, .raw " ?? ", piece])) ∨
    (key = "ariaExpanded" ∧ parameter? ps .aria key = none ∧
      o = some (.code (ariaName key) [.ref "isOpen"])) ∨
    ∃ a, parameter? ps .aria key = none ∧ Attribute.ofDatum (ariaName key) value = .ok a ∧
      o = some a := by
  obtain ⟨c, rest, hdrop⟩ := ariaKeys_lettered hk hr
  have hname : ariaName key = "aria-" ++ Text.lower (String.ofList (c :: rest)) := by
    unfold ariaName
    rw [if_neg (by simpa using hr), hdrop]
  unfold ariaAttribute? at h
  rw [if_neg (by simp [hv]), if_neg (by simpa using hr)] at h
  simp only [hdrop] at h
  rw [← hname] at h
  cases hq : parameter? ps .aria key with
  | some q =>
    simp only [hq] at h
    obtain ⟨piece, hpiece, h⟩ := Outcome.bind_ok h
    cases h
    exact .inl ⟨q, piece, rfl, hpiece, rfl⟩
  | none =>
    simp only [hq] at h
    split at h
    · rename_i hopens
      cases h
      exact .inr (.inl ⟨by simp_all, rfl, rfl⟩)
    · obtain ⟨a, ha, h⟩ := Outcome.bind_ok h
      cases h
      exact .inr (.inr ⟨a, rfl, ha, rfl⟩)

theorem ariaAttribute_name {a : Attribute} (hk : key ∈ ariaKeys)
    (h : ariaAttribute? ps opens withRole key value = .ok (some a)) : a.name = ariaName key := by
  have hnull : value.isNull = false := by
    cases value with
    | null => cases h
    | _ => rfl
  by_cases hr : key = "role"
  · subst hr
    unfold ariaAttribute? at h
    rw [if_neg (by simp [hnull]), if_pos (beq_self_eq_true _)] at h
    obtain ⟨o, ho, h⟩ := Outcome.ite_bind_ok h
    cases h
    split at ho
    · obtain ⟨c, hc, he⟩ := Outcome.map_ok_inv ho
      cases he
      exact Attribute.name_ofDatum hc
    · cases ho
  · obtain ⟨q, piece, -, -, he⟩ | ⟨-, -, he⟩ | ⟨c, -, hc, he⟩ := ariaAttribute_cases hnull hk hr h
    · cases he; rfl
    · cases he; rfl
    · cases he
      exact Attribute.name_ofDatum hc

theorem referenceKeys_spec : ∀ key ∈ referenceKeys,
    key ∈ ariaKeys ∧ key ≠ "role" ∧ key ≠ "ariaExpanded" ∧
    (ariaName key == "aria-labelledby" || ariaName key == "aria-describedby") = true := by
  decide +kernel

/-- An entry that refers to other elements does so whether or not a parameter can replace it. -/
theorem ariaAttribute_reference {s : String} {o : Option Attribute} (hk : key ∈ referenceKeys)
    (h : ariaAttribute? ps opens withRole key (.text s) = .ok o) :
    referencesOf o.toList = idsIn s := by
  obtain ⟨hknown, hrole, hexpanded, hname⟩ := referenceKeys_spec key hk
  have hdefault : ∃ a, o = some a ∧ a.default? = some s := by
    obtain ⟨q, piece, -, hpiece, rfl⟩ | ⟨he, -⟩ | ⟨a, -, ha, rfl⟩ :=
      ariaAttribute_cases rfl hknown hrole h
    · cases hpiece
      exact ⟨_, rfl, rfl⟩
    · exact absurd he hexpanded
    · cases ha
      exact ⟨_, rfl, rfl⟩
  obtain ⟨a, rfl, hd⟩ := hdefault
  rw [← ariaAttribute_name hknown h] at hname
  simp [referencesOf, Attribute.references, Attribute.isReference, hname, hd, idsIn]

end Aria

theorem ariaName_other : ∀ key ∈ ariaKeys, key ∉ referenceKeys →
    ariaName key ≠ "aria-labelledby" ∧ ariaName key ≠ "aria-describedby" := by decide +kernel

section Entries

variable {ps : List Parameter} {opens withRole : Bool} {rows : List (String × Datum)}
  {found : List (Option Attribute)}

/-- Accessibility entries with the attributes that they have, if any. -/
def Rendered (ps : List Parameter) (opens withRole : Bool) (rows : List (String × Datum))
    (found : List (Option Attribute)) : Prop :=
  List.Forall₂ (fun row o => ariaAttribute? ps opens withRole row.1 row.2 = .ok o) rows found

theorem Rendered.names (h : Rendered ps opens withRole rows found)
    (hknown : ∀ row ∈ rows, row.1 ∈ ariaKeys) :
    ((found.flatMap Option.toList).map Attribute.name).Sublist
      ((rows.map Prod.fst).map ariaName) := by
  induction h with
  | nil => exact .slnil
  | @cons row o rows found ho _ ih =>
    obtain ⟨hrow, hrows⟩ := List.forall_mem_cons.1 hknown
    cases o with
    | none => exact (ih hrows).cons _
    | some a => simpa [ariaAttribute_name hrow ho] using ih hrows

theorem Rendered.references (h : Rendered ps opens withRole rows found)
    (hknown : ∀ row ∈ rows, row.1 ∈ ariaKeys)
    (htexts : ∀ row ∈ rows, row.1 ∈ referenceKeys → ∃ s, row.2 = .text s) (id : String) :
    id ∈ referencesOf (found.flatMap Option.toList) ↔
      ∃ row ∈ rows, row.1 ∈ referenceKeys ∧ ∃ s, row.2 = .text s ∧ id ∈ idsIn s := by
  induction h with
  | nil => simp [referencesOf]
  | @cons row o rows found ho _ ih =>
    obtain ⟨hrow, hrows⟩ := List.forall_mem_cons.1 hknown
    obtain ⟨htext, htexts⟩ := List.forall_mem_cons.1 htexts
    rw [List.flatMap_cons, Markup.referencesOf_append, List.mem_append, ih hrows htexts,
      List.exists_mem_cons_iff]
    refine or_congr_left ?_
    by_cases hk : row.1 ∈ referenceKeys
    · obtain ⟨s, hs⟩ := htext hk
      rw [hs] at ho
      simp [ariaAttribute_reference hk ho, hk, hs]
    · -- the other entries have attributes that refer to nothing
      have hnone : referencesOf o.toList = [] := by
        refine List.flatMap_eq_nil_iff.2 fun a ha => ?_
        obtain rfl := Option.mem_toList.1 ha
        obtain ⟨hl, hd⟩ := ariaName_other row.1 hrow hk
        rw [← ariaAttribute_name hrow ho] at hl hd
        exact Attribute.references_ne hl hd
      simp [hnone, hk]

/-- Two entries have one attribute only if they have one key. -/
theorem ariaName_inj : ∀ key ∈ ariaKeys, ∀ key' ∈ ariaKeys,
    ariaName key = ariaName key' → key = key' := by decide +kernel

end Entries

/-- Whether the entries of a blueprint refer to an element. -/
def Blueprint.RefersTo (b : Blueprint) (id : String) : Prop :=
  ∃ row ∈ b.aria, row.1 ∈ referenceKeys ∧ ∃ s, row.2 = .text s ∧ id ∈ idsIn s

/-- The attributes of accessibility entries have distinct names, and refer to what the entries refer
to. -/
theorem ariaAttributes_spec {b : Blueprint} (hb : b.IsUsual) {ps : List Parameter}
    {opens withRole : Bool} {as : List Attribute}
    (h : ariaAttributesOf b ps opens withRole = .ok as) :
    Named ariaNames as ∧ ∀ id, id ∈ referencesOf as ↔ b.RefersTo id := by
  unfold ariaAttributesOf at h
  obtain ⟨found, hfound, h⟩ := Outcome.bind_ok h
  cases h
  have hrendered : Rendered ps opens withRole b.aria found := Outcome.forall₂_mapM hfound
  have hkeys : ∀ key ∈ b.aria.map Prod.fst, key ∈ ariaKeys := by
    intro key hkey
    obtain ⟨row, hrow, rfl⟩ := List.mem_map.1 hkey
    exact hb.known row hrow
  have hnodup : ((b.aria.map Prod.fst).map ariaName).Nodup :=
    hb.distinct.map_on fun key hk key' hk' => ariaName_inj key (hkeys key hk) key' (hkeys key' hk')
  have hsub := hrendered.names hb.known
  refine ⟨⟨hsub.nodup hnodup, fun a ha => ?_⟩, hrendered.references hb.known hb.texts⟩
  obtain ⟨key, hkey, he⟩ := List.mem_map.1 (hsub.subset (List.mem_map_of_mem ha))
  obtain ⟨entry, hentry, rfl⟩ := List.mem_map.1 (hkeys key hkey)
  rw [← he, ariaName_entries entry hentry]
  exact List.mem_map_of_mem hentry

/-! ## Handlers -/

theorem distinct_nodup {l : List Datum} (h : ∀ d ∈ l, ∃ s, d = .text s) : (distinct l).Nodup := by
  induction l with
  | nil => exact List.nodup_nil
  | cons d l ih =>
    obtain ⟨⟨s, rfl⟩, hl⟩ := List.forall_mem_cons.1 h
    rw [distinct]
    refine List.nodup_cons.2 ⟨fun hm => ?_, (ih hl).filter _⟩
    have := (List.mem_filter.1 hm).2
    rw [Datum.same_text.2 rfl] at this
    cases this

theorem Handler.attribute_name {hd : Handler} {a : Attribute} (h : hd.attribute? = some a) :
    a.name = hd.trigger := by
  unfold Handler.attribute? at h
  split at h
  · split at h <;> cases h
    rfl
  · cases h; rfl

/-- The handlers of a plan have the names of events, each at most once. -/
theorem Plan.handlers_named {p : Plan} (hp : p.blueprint.IsUsual) {exclude : List String}
    {hs : List Handler} (h : p.handlersBut exclude = .ok hs) :
    Named eventNames (handlerAttributes hs) := by
  have hevents : ∀ d ∈ (p.blueprint.rules.map (·.trigger)).filter
      (fun t => t.isTruthy && !t.isOneOf exclude), ∃ event ∈ eventNames, d = .text event := by
    intro d hd
    obtain ⟨rule, hrule, rfl⟩ := List.mem_map.1 (List.mem_of_mem_filter hd)
    exact hp.events rule hrule
  have hnodup : (triggers p.blueprint.rules exclude).Nodup := distinct_nodup fun d hd => by
    obtain ⟨event, -, he⟩ := hevents d hd
    exact ⟨event, he⟩
  have hnames : (triggers p.blueprint.rules exclude).map Datum.shown = hs.map Handler.trigger := by
    refine List.forall₂_eq_eq_eq ▸ List.forall₂_map_left_iff.2 (List.forall₂_map_right_iff.2 ?_)
    refine (Outcome.forall₂_mapM h).imp fun d hd hmade => ?_
    obtain ⟨statements, -, hmade⟩ := Outcome.bind_ok hmade
    cases hmade
    rfl
  have hsub : ((handlerAttributes hs).map Attribute.name).Sublist (hs.map Handler.trigger) := by
    clear hnames h
    induction hs with
    | nil => exact .slnil
    | cons hd hs ih =>
      rw [handlerAttributes, List.filterMap_cons]
      cases ha : hd.attribute? with
      | none => exact ih.cons _
      | some a =>
        rw [List.map_cons, List.map_cons, Handler.attribute_name ha]
        exact ih.cons_cons _
  have hmem : ∀ name ∈ hs.map Handler.trigger, name ∈ eventNames := by
    intro name hname
    rw [← hnames] at hname
    obtain ⟨d, hd, rfl⟩ := List.mem_map.1 hname
    obtain ⟨event, hevent, rfl⟩ := hevents d (mem_distinct hd)
    exact hevent
  refine ⟨hsub.nodup ?_, fun a ha => hmem _ (hsub.subset (List.mem_map_of_mem ha))⟩
  rw [← hnames]
  refine hnodup.map_on fun d hd d' hd' he => ?_
  obtain ⟨event, -, rfl⟩ := hevents d (mem_distinct hd)
  obtain ⟨event', -, rfl⟩ := hevents d' (mem_distinct hd')
  exact congrArg Datum.text he

/-! ## The other attributes -/

def ownNames : List String := ["className", "style", "data-state"]

section Attributes

variable (p : Plan)

theorem Plan.own_named : Named ownNames p.ownAttributes := by
  unfold Plan.ownAttributes
  split
  · exact .of_eq rfl (by decide)
  · exact (Named.of_eq rfl (by decide) : Named ["className", "style"] _).mono (by decide)

theorem Plan.disabled_named : Named ["disabled"] p.disabledAttribute := .ite (.of_eq rfl (by decide))

theorem Plan.disabledAria_named : Named ["aria-disabled"] p.disabledAria :=
  .ite (.of_eq rfl (by decide))

theorem Plan.key_named : Named ["tabIndex", "onKeyDown"] p.keyAttributes :=
  .ite (.of_eq rfl (by decide))

end Attributes

end Maquette.Component
