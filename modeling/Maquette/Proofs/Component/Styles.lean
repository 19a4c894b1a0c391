/-
The style sheet of a component as a reader sees it. Texts of the design stand in its comments, and there
they end nothing; selectors are made of names without marks, and the values of the outermost node are
numbers, colors, fixed words and references to tokens. So without its comments the sheet is exactly its
rules: the one of the outermost node, an empty one for each selector of variants and for each state, and
the one of the disabled state.
-/
import Maquette.Proofs.Component.Classes
import Maquette.Proofs.Css.Unmarked

namespace Maquette.Stylesheet

open Component (Blueprint TokenTable VariantSpec distinct)
open Css (ArePlain Declaration.IsPlain IsClassed Unmarked arePlain_nil arePlain_single unmarked_append)
open Naming (Hyphenated)

/-! ## Declarations of the outermost node -/

/-- The declarations as they are printed. -/
def printed (ps : List Property) : List Css.Declaration := ps.map fun (k, v) => (k, v.shown)

theorem printed_append (ps qs : List Property) : printed (ps ++ qs) = printed ps ++ printed qs :=
  List.map_append

theorem printed_written (ds : List Css.Declaration) : printed (written ds) = ds := by
  rw [printed, written, List.map_map]
  exact List.map_id' ds

section Layout

/-- A text that is looked up by a key is one of those that there are. -/
theorem named_mem {pairs : List (String × String)} {key : Datum} {found : Option String}
    (h : Outline.named pairs key = .ok found) : ∀ s ∈ found, ∃ row ∈ pairs, row.2 = s := by
  obtain ⟨k, -, h⟩ := Outcome.bind_ok h
  split at h
  · cases h
    intro s hs
    obtain ⟨key', -, hrow⟩ := Table.mem_of_lookup hs
    exact ⟨_, hrow, rfl⟩
  · cases h
    nofun

/-- The texts that a layout is made of are words of style sheets. -/
theorem layout_words {layer d v : Datum} {key : String} (h : Outline.layout layer = .ok (some d))
    (hkey : key ≠ "gap" ∧ key ≠ "padding") (hv : d.at? key = some v) : Unmarked v.shown := by
  have hword : ∀ {pairs : List (String × String)} {key : Datum} {found : Option String},
      Outline.named pairs key = .ok found → (∀ row ∈ pairs, Unmarked row.2) →
      Unmarked (found.getD "flex-start") := by
    intro pairs key found hfound hpairs
    cases found with
    | none => decide
    | some s =>
      obtain ⟨row, hrow, rfl⟩ := named_mem hfound s rfl
      exact hpairs row hrow
  unfold Outline.layout at h
  obtain ⟨mode, -, h⟩ := Outcome.bind_ok h
  split at h
  · cases h
  obtain ⟨main, -, h⟩ := Outcome.bind_ok h
  obtain ⟨justify, hjustify, h⟩ := Outcome.bind_ok h
  obtain ⟨cross, -, h⟩ := Outcome.bind_ok h
  obtain ⟨align, halign, h⟩ := Outcome.bind_ok h
  obtain ⟨top, -, h⟩ := Outcome.bind_ok h
  obtain ⟨right, -, h⟩ := Outcome.bind_ok h
  obtain ⟨bottom, -, h⟩ := Outcome.bind_ok h
  obtain ⟨left, -, h⟩ := Outcome.bind_ok h
  obtain ⟨gap, -, h⟩ := Outcome.bind_ok h
  obtain ⟨wrap, -, h⟩ := Outcome.bind_ok h
  cases h
  have hjustify := hword hjustify (by simp [Outline.justifications]; decide)
  have halign := hword halign (by simp [Outline.alignments]; decide)
  obtain ⟨key', hsame, hmem⟩ := Table.mem_of_lookup hv
  obtain rfl := LawfulBEq.eq_of_beq hsame
  rcases List.mem_append.1 hmem with hmem | hmem
  · simp only [List.mem_cons, Prod.mk.injEq, List.not_mem_nil, or_false] at hmem
    rcases hmem with ⟨-, rfl⟩ | ⟨-, rfl⟩ | ⟨-, rfl⟩ | ⟨-, rfl⟩ | ⟨hgap, -⟩ | ⟨hpadding, -⟩
    · show Unmarked "flex"
      decide
    · show Unmarked (if _ then "row" else "column")
      split <;> decide
    · exact hjustify
    · exact halign
    · exact absurd hgap hkey.1
    · exact absurd hpadding hkey.2
  · split at hmem
    · obtain ⟨-, rfl⟩ := Prod.mk.inj (List.mem_singleton.1 hmem)
      show Unmarked "wrap"
      decide
    · cases hmem

theorem layout_plain {d : Datum} {ps : List Property}
    (hwords : ∀ key v, key ≠ "gap" ∧ key ≠ "padding" → d.at? key = some v → Unmarked v.shown)
    (h : layout d = .ok ps) : ArePlain (printed ps) := by
  unfold layout at h
  split at h
  · cases h
    exact arePlain_nil
  have hdirect : ∀ {property key default : String} {row : Property}, Css.IsProperty property →
      key ≠ "gap" ∧ key ≠ "padding" → Unmarked default →
      (do return (property, ← d.fieldOr key (.text default)) : Outcome Property) = .ok row →
      Declaration.IsPlain (row.1, row.2.shown) := by
    intro property key default row hproperty hkey hdefault hrow
    obtain ⟨v, hv, hrow⟩ := Outcome.bind_ok hrow
    cases hrow
    refine ⟨hproperty, ?_⟩
    rw [Datum.fieldOr_ok hv]
    cases hat : d.at? key with
    | none => exact hdefault
    | some v => exact hwords key v hkey hat
  obtain ⟨display, hdisplay, h⟩ := Outcome.bind_ok h
  obtain ⟨direction, hdirection, h⟩ := Outcome.bind_ok h
  obtain ⟨justify, hjustify, h⟩ := Outcome.bind_ok h
  obtain ⟨align, halign, h⟩ := Outcome.bind_ok h
  obtain ⟨gap, -, h⟩ := Outcome.bind_ok h
  obtain ⟨spaced, hspaced, h⟩ := Outcome.ite_pure_bind_ok h
  obtain ⟨padding, -, h⟩ := Outcome.bind_ok h
  obtain ⟨sides, -, h⟩ := Outcome.bind_ok h
  obtain ⟨padded, hpadded, h⟩ := Outcome.ite_pure_bind_ok h
  obtain ⟨wrap, hwrap, h⟩ := Outcome.bind_ok h
  cases h
  have harranged : ArePlain (printed [display, direction, justify, align]) := by
    simp only [printed, ArePlain, List.map_cons, List.map_nil, List.forall_mem_cons]
    exact ⟨hdirect (by decide) (by decide) (by decide) hdisplay,
      hdirect (by decide) (by decide) (by decide) hdirection,
      hdirect (by decide) (by decide) (by decide) hjustify,
      hdirect (by decide) (by decide) (by decide) halign, by simp⟩
  have hspaced : ArePlain (printed spaced) := by
    rcases hspaced with ⟨value, hvalue, rfl⟩ | rfl
    · exact arePlain_single (by decide) (Css.unmarked_pixels hvalue)
    · exact arePlain_nil
  have hpadded : ArePlain (printed padded) := by
    rcases hpadded with ⟨values, hvalues, rfl⟩ | rfl
    · refine arePlain_single (by decide) (Css.unmarked_intercalate (by decide) fun value hvalue => ?_)
      obtain ⟨side, -, hside⟩ := Outcome.mem_mapM hvalues value hvalue
      exact Css.unmarked_pixels hside
    · exact arePlain_nil
  have hwrapped : ArePlain (printed (if wrap.isTruthy then [("flex-wrap", wrap)] else [])) := by
    obtain ⟨-, hvalue⟩ := Datum.get_ok hwrap
    split
    · refine arePlain_single (by decide) ?_
      cases hat : d.at? "flexWrap" with
      | none => rw [hvalue, hat]; decide
      | some v =>
        rw [hvalue, hat]
        exact hwords "flexWrap" v (by decide) hat
    · exact arePlain_nil
  rw [printed_append, printed_append, printed_append]
  exact ((harranged.append hspaced).append hpadded).append hwrapped

end Layout

/-! ## References to tokens -/

/-- A table that has references to tokens only. -/
def AreReferences (table : Table Datum Datum) : Prop :=
  ∀ row ∈ table, ∃ name, row.2 = .text (Token.cssVar name)

/-- A match of some variable among the tokens of a project. -/
def IsMatch (m : Datum) : Prop := ∃ var tokens, Token.matchVariable var tokens = .ok m

section Tokens

variable {tokens matched m : Datum} {table : Table Datum Datum}

theorem IsMatch.reference (h : IsMatch m) {token v : Datum} (htoken : m.at? "matchedToken" = some token)
    (hv : token.at? "cssVar" = some v) : ∃ name, v = .text (Token.cssVar name) := by
  obtain ⟨var, tokens, h⟩ := h
  obtain ⟨name, -, h⟩ := Outcome.bind_ok h
  obtain ⟨nameText, -, h⟩ := Outcome.bind_ok h
  obtain ⟨tokens, -, h⟩ := Outcome.bind_ok h
  obtain ⟨sorted, -, h⟩ := Outcome.bind_ok h
  obtain ⟨⟨best, confidence⟩, -, h⟩ := Outcome.bind_ok h
  obtain ⟨found, hfound, h⟩ := Outcome.bind_ok h
  obtain ⟨id, -, h⟩ := Outcome.bind_ok h
  cases h
  cases htoken
  cases best with
  | none =>
    cases hfound
    cases hv
  | some best =>
    obtain ⟨described, hdescribed, hfound⟩ := Outcome.map_ok_inv (x := Token.matchedToken best) hfound
    cases hfound
    obtain ⟨name, -, hdescribed⟩ := Outcome.bind_ok hdescribed
    obtain ⟨value, -, hdescribed⟩ := Outcome.bind_ok hdescribed
    obtain ⟨type, -, hdescribed⟩ := Outcome.bind_ok hdescribed
    obtain ⟨nameText, -, hdescribed⟩ := Outcome.bind_ok hdescribed
    cases hdescribed
    cases hv
    exact ⟨nameText, rfl⟩

theorem AreReferences.set (h : AreReferences table) (key : Datum) {v : Datum}
    (hv : ∃ name, v = .text (Token.cssVar name)) : AreReferences (table.set key v) := by
  intro row hrow
  rcases Table.mem_set hrow with hrow | hrow
  · exact h row hrow
  · rwa [hrow]

/-- The tokens of a set, and those of a project that variables are matched with, are told by references. -/
theorem tokenTable_references (hmatched : ∀ items, (matched.orElse (.list [])).items = .ok items →
      ∀ m ∈ items, IsMatch m)
    (h : Component.tokenTable tokens matched = .ok table) : AreReferences table := by
  obtain ⟨own, hown, h⟩ := Outcome.bind_ok h
  obtain ⟨items, hitems, h⟩ := Outcome.bind_ok h
  have hown : AreReferences own := by
    obtain ⟨given, -, hown⟩ := Outcome.bind_ok hown
    obtain ⟨given, -, hown⟩ := Outcome.bind_ok hown
    refine Outcome.foldlM_keeps (fun table token _ table' hstep htable => ?_) hown (by simp [AreReferences])
    obtain ⟨source, -, hstep⟩ := Outcome.bind_ok hstep
    split at hstep
    · cases hstep
      exact htable
    · obtain ⟨name, -, hstep⟩ := Outcome.bind_ok hstep
      obtain ⟨nameText, -, hstep⟩ := Outcome.bind_ok hstep
      obtain ⟨key, -, hstep⟩ := Outcome.bind_ok hstep
      cases hstep
      exact htable.set key ⟨nameText, rfl⟩
  refine Outcome.foldlM_keeps (fun table m hm table' hstep htable => ?_) h hown
  obtain ⟨token, htoken, hstep⟩ := Outcome.bind_ok hstep
  split at hstep
  · cases hstep
    exact htable
  obtain ⟨source, -, hstep⟩ := Outcome.bind_ok hstep
  split at hstep
  · cases hstep
    exact htable
  · obtain ⟨v, hv, hstep⟩ := Outcome.bind_ok hstep
    obtain ⟨key, -, hstep⟩ := Outcome.bind_ok hstep
    cases hstep
    have hv := Datum.need_ok hv
    obtain ⟨-, htoken⟩ := Datum.get_ok htoken
    refine htable.set key ?_
    cases hat : m.at? "matchedToken" with
    | none => rw [hat] at htoken; subst htoken; cases hv
    | some found =>
      rw [hat] at htoken
      obtain rfl : token = found := htoken
      exact (hmatched items hitems m hm).reference hat hv

/-- A property that is bound to a token has the reference to it. -/
theorem unmarked_token {node : Datum} {property : String} {found : Option Datum}
    (htable : AreReferences table) (h : Component.tokenOf (.ok table) node property = .ok found) :
    ∀ token ∈ found, Unmarked token.shown := by
  unfold Component.tokenOf at h
  split at h
  · cases h
    nofun
  obtain ⟨bound, -, h⟩ := Outcome.bind_ok h
  obtain ⟨var, -, h⟩ := Outcome.bind_ok h
  split at h
  · cases h
    nofun
  rw [Outcome.ok_bind] at h
  obtain ⟨key, -, h⟩ := Outcome.bind_ok h
  cases h
  intro token htoken
  obtain ⟨key', -, hrow⟩ := Table.mem_of_lookup (Option.eq_some_of_filter_eq_some htoken)
  obtain ⟨name, hname⟩ := htable _ hrow
  simp only at hname
  rw [hname]
  exact Css.unmarked_reference name

end Tokens

/-! ## All declarations -/

section Root

variable {table : Table Datum Datum} {root : Datum} {ps : List Property}

/-- The fills of a node are no images. -/
def IsDrawn (root : Datum) : Prop :=
  ∀ fills, root.at? "fills" = some (.list fills) → ∀ p ∈ fills, Paint.IsDrawn p

theorem background_plain (htable : AreReferences table) (hdrawn : IsDrawn root)
    (h : background (.ok table) root = .ok ps) : ArePlain (printed ps) := by
  obtain ⟨token, htoken, h⟩ := Outcome.bind_ok h
  split at h
  · cases h
    exact arePlain_single (by decide) (unmarked_token htable htoken _ rfl)
  · obtain ⟨fills, hfills, h⟩ := Outcome.bind_ok h
    obtain ⟨box, -, h⟩ := Outcome.bind_ok h
    obtain ⟨ds, hds, h⟩ := Outcome.bind_ok h
    cases h
    rw [printed_written]
    refine Paint.fills_plain (fun items hitems p hp => hdrawn items ?_ p hp) hds
    obtain ⟨-, hvalue⟩ := Datum.get_ok hfills
    cases hat : root.at? "fills" with
    | none => rw [hat] at hvalue; rw [hitems] at hvalue; cases hvalue
    | some v => rw [← hitems, hvalue, hat]; rfl

theorem corners_plain (htable : AreReferences table) (h : corners (.ok table) root = .ok ps) :
    ArePlain (printed ps) := by
  obtain ⟨all, hall, h⟩ := Outcome.bind_ok h
  cases all with
  | some token =>
    cases h
    exact arePlain_single (by decide) (unmarked_token htable hall token rfl)
  | none =>
    obtain ⟨token, htoken, h⟩ := Outcome.bind_ok h
    cases token with
    | some token =>
      cases h
      exact arePlain_single (by decide) (unmarked_token htable htoken token rfl)
    | none =>
      obtain ⟨ds, hds, h⟩ := Outcome.bind_ok h
      cases h
      rw [printed_written]
      exact Paint.corners_plain hds

/-- Shadows are put together with commas. -/
theorem mergeShadows_plain (h : ArePlain (printed ps)) : ArePlain (printed (mergeShadows ps)) := by
  have hp : ∀ p ∈ ps, Declaration.IsPlain (p.1, p.2.shown) := fun p hp => h _ (List.mem_map_of_mem hp)
  have hshadows : ∀ s ∈ (ps.filter (·.1 == "box-shadow")).map (·.2.shown), Unmarked s := by
    intro s hs
    obtain ⟨p, hmem, rfl⟩ := List.mem_map.1 hs
    exact (hp p (List.mem_filter.1 hmem).1).2
  have hall : ∀ p ∈ mergeShadows ps, Declaration.IsPlain (p.1, p.2.shown) := by
    unfold mergeShadows
    dsimp only
    rw [List.span_eq_takeWhile_dropWhile]
    have hbefore : ∀ p ∈ ps.takeWhile (·.1 != "box-shadow"), Declaration.IsPlain (p.1, p.2.shown) :=
      fun p hmem => hp p (List.takeWhile_subset _ hmem)
    have hafter : ∀ p ∈ ps.dropWhile (·.1 != "box-shadow"), Declaration.IsPlain (p.1, p.2.shown) :=
      fun p hmem => hp p (List.dropWhile_subset _ hmem)
    generalize ps.takeWhile (·.1 != "box-shadow") = before at hbefore
    generalize ps.dropWhile (·.1 != "box-shadow") = after at hafter
    cases after with
    | nil => exact hbefore
    | cons first after =>
      refine List.forall_mem_append.2 ⟨List.forall_mem_append.2 ⟨hbefore, ?_⟩, fun p hmem => ?_⟩
      · have hproperty : Css.IsProperty "box-shadow" := by decide
        exact List.forall_mem_singleton.2 ⟨hproperty, Css.unmarked_intercalate (by decide) hshadows⟩
      · exact hafter p (List.mem_cons_of_mem _ (List.mem_filter.1 hmem).1)
  exact List.forall_mem_map.2 hall

/-- The declarations of the outermost node are plain, if its layout is one that some layer has, its
fills are no images and its tokens are told by references. -/
theorem rootProperties_plain {style : Paint.StrokeStyle} (htable : AreReferences table)
    (hdrawn : IsDrawn root)
    (hlayout : ∀ d, root.at? "layout" = some d → ∃ layer, Outline.layout layer = .ok (some d))
    (h : rootProperties root (.ok table) style = .ok ps) : ArePlain (printed ps) := by
  obtain ⟨mode, -, h⟩ := Outcome.bind_ok h
  obtain ⟨isolated, -, h⟩ := Outcome.bind_ok h
  obtain ⟨back, hback, h⟩ := Outcome.bind_ok h
  obtain ⟨blend, hblend, h⟩ := Outcome.bind_ok h
  obtain ⟨rounded, hrounded, h⟩ := Outcome.bind_ok h
  obtain ⟨given, hgiven, h⟩ := Outcome.bind_ok h
  obtain ⟨arranged, harranged, h⟩ := Outcome.bind_ok h
  obtain ⟨paints, -, h⟩ := Outcome.bind_ok h
  obtain ⟨stroked, hstroked, h⟩ := Outcome.bind_ok h
  obtain ⟨items, -, h⟩ := Outcome.bind_ok h
  obtain ⟨effected, heffected, h⟩ := Outcome.bind_ok h
  cases h
  have hisolation : ArePlain (printed (if isolated then written [("isolation", "isolate")] else [])) := by
    split
    · exact arePlain_single (by decide) (by decide)
    · exact arePlain_nil
  have harranged : ArePlain (printed arranged) := by
    refine layout_plain (fun key v hkey hv => ?_) harranged
    obtain ⟨-, hvalue⟩ := Datum.get_ok hgiven
    cases hat : root.at? "layout" with
    | none => rw [hvalue, hat] at hv; cases hv
    | some d =>
      rw [hvalue, hat] at hv
      obtain ⟨layer, hlayer⟩ := hlayout d hat
      exact layout_words hlayer hkey hv
  apply mergeShadows_plain
  simp only [printed_append, printed_written]
  exact ((((hisolation.append (background_plain htable hdrawn hback)).append
    (Paint.blend_plain hblend)).append (corners_plain htable hrounded)).append harranged).append
      ((Paint.strokes_plain hstroked).append (Paint.effects_plain heffected))

end Root

/-! ## Selectors -/

/-- The selector of a state. -/
def stateSelector (base state : String) : String :=
  let own := s!".{base}--{Css.segment state}"
  match stateSelectors.lookup state with
  | some pseudo => s!".{base}{pseudo}, {own}"
  | none => own

/-- The selector of the disabled state. -/
def disabledSelector (base : String) : String :=
  s!".{base}:disabled,\n.{base}[aria-disabled='true'],\n.{base}--disabled"

/-- The selectors of variants that have properties. -/
def variantSelectors (base : String) (variants : List VariantSpec) : List String :=
  (variants.filter (!·.properties.isEmpty)).map fun v => variantSelector base v.properties

/-- A text of characters that mean nothing in code and are no spaces. -/
def IsSolid (s : String) : Prop := ∀ c ∈ s.toList, Css.isMark c = false ∧ Css.isSpace c = false

instance (s : String) : Decidable (IsSolid s) :=
  decidable_of_iff (s.toList.all (fun c => !Css.isMark c && !Css.isSpace c) = true) (by simp [IsSolid])

section Selectors

variable {base : String}

theorem isSolid_append {a b : String} : IsSolid (a ++ b) ↔ IsSolid a ∧ IsSolid b := by
  simp only [IsSolid, String.toList_append, List.forall_mem_append]

theorem isSolid_of_hyphenated {s : String} (h : Hyphenated s.toList) : IsSolid s := by
  intro c hc
  constructor
  · rw [Bool.eq_false_iff]
    intro hmark
    simp only [Css.isMark, List.contains_eq_mem, decide_eq_true_eq, List.mem_cons, List.not_mem_nil,
      or_false] at hmark
    rcases hmark with rfl | rfl | rfl | rfl | rfl | rfl | rfl <;> exact absurd (h _ hc) (by decide)
  · rw [Bool.eq_false_iff]
    intro hspace
    simp only [Css.isSpace, Css.isLineBreak, Bool.or_eq_true, beq_iff_eq] at hspace
    rcases hspace with (rfl | rfl) | (rfl | rfl) | rfl <;> exact absurd (h _ hc) (by decide)

theorem isClassed_append {front back : String} (hfront : Css.IsNeutral front.toList)
    (hstart : front.toList.head? = some '.') (hne : back ≠ "") (hback : IsSolid back) :
    IsClassed (front ++ back) where
  toIsNeutral := by
    rw [String.toList_append]
    exact hfront.append (.of_unmarked fun c hc => (hback c hc).1)
  starts := by
    rw [String.toList_append, List.head?_append, hstart]
    rfl
  ends := by
    have hsome : back.toList ≠ [] := by simpa using hne
    rw [String.toList_append, List.getLast?_append_of_ne_nil _ hsome]
    exact fun c hc => (hback c (List.mem_of_getLast? hc)).2

theorem isNeutral_unmarked {s : String} (h : Unmarked s) : Css.IsNeutral s.toList := .of_unmarked h

theorem isClassed_base (hbase : Hyphenated base.toList) (hne : base ≠ "") : IsClassed ("." ++ base) :=
  isClassed_append (isNeutral_unmarked (by decide)) rfl hne (isSolid_of_hyphenated hbase)

theorem isClassed_variant (hbase : Hyphenated base.toList) (hne : base ≠ "")
    (properties : List (String × Datum)) : IsClassed (variantSelector base properties) := by
  have hclass : ∀ row : String × Datum,
      IsSolid (s!".{base}--{Css.segment row.1}-{Css.segment row.2.shown}") := by
    intro row
    have hsolid : IsSolid ("." ++ base ++ "--" ++ Css.segment row.1 ++ "-" ++ Css.segment row.2.shown) := by
      simp only [isSolid_append, isSolid_of_hyphenated hbase,
        isSolid_of_hyphenated (Css.segment_hyphenated _), and_true]
      exact ⟨⟨by decide, by decide⟩, by decide⟩
    exact hsolid
  rw [variantSelector, String.append_assoc]
  refine isClassed_append (isNeutral_unmarked (by decide)) rfl ?_
    (isSolid_append.2 ⟨isSolid_of_hyphenated hbase, fun c hc => ?_⟩)
  · simp [String.append_eq_empty_iff, hne]
  · rw [String.toList_join, List.flatMap_map] at hc
    obtain ⟨row, -, hc⟩ := List.mem_flatMap.1 hc
    exact hclass row c hc

theorem isSolid_state (hbase : Hyphenated base.toList) (state : String) :
    IsSolid (base ++ "--" ++ Css.segment state) := by
  simp only [isSolid_append, isSolid_of_hyphenated hbase, isSolid_of_hyphenated (Css.segment_hyphenated _),
    true_and, and_true]
  decide

theorem isClassed_state (hbase : Hyphenated base.toList) (state : String) :
    IsClassed (stateSelector base state) := by
  have hne : base ++ "--" ++ Css.segment state ≠ "" := by simp [String.append_eq_empty_iff]
  have hown : s!".{base}--{Css.segment state}" = "." ++ (base ++ "--" ++ Css.segment state) := by
    apply String.toList_inj.1
    simp [toString]
  unfold stateSelector
  dsimp only
  rw [hown]
  split
  · rename_i pseudo hpseudo
    obtain ⟨key, -, hrow⟩ := Table.mem_of_lookup hpseudo
    have hall : ∀ row ∈ stateSelectors, Unmarked row.2 := by simp [stateSelectors]; decide
    have hbase' : Unmarked base := fun c hc => (isSolid_of_hyphenated hbase c hc).1
    have hfront : Unmarked ("." ++ base ++ pseudo ++ ", " ++ ".") := by
      simp only [unmarked_append, hbase', hall _ hrow, and_true]
      decide
    have hsplit : ∀ own : String, s!".{base}{pseudo}, {own}" = "." ++ base ++ pseudo ++ ", " ++ own := by
      intro own
      apply String.toList_inj.1
      simp [toString]
    rw [hsplit, ← String.append_assoc]
    exact isClassed_append (isNeutral_unmarked hfront) (by simp) hne (isSolid_state hbase state)
  · exact isClassed_append (isNeutral_unmarked (by decide)) rfl hne (isSolid_state hbase state)

theorem isClassed_disabled (hbase : Hyphenated base.toList) : IsClassed (disabledSelector base) := by
  have hbase' : Unmarked base := fun c hc => (isSolid_of_hyphenated hbase c hc).1
  have hquoted : Css.IsNeutral "'true'".toList := {
    read := by decide
    left := fun rest => rfl
    braces := by decide }
  have hfront : Css.IsNeutral
      (("." ++ base ++ ":disabled,\n." ++ base ++ "[aria-disabled=") ++ "'true'" ++ "],\n.").toList := by
    rw [String.toList_append, String.toList_append]
    refine ((isNeutral_unmarked ?_).append hquoted).append (isNeutral_unmarked (by decide))
    simp only [unmarked_append, hbase', and_true]
    decide
  have hsplit : disabledSelector base = ("." ++ base ++ ":disabled,\n." ++ base ++ "[aria-disabled=") ++
      "'true'" ++ "],\n." ++ (base ++ "--disabled") := by
    apply String.toList_inj.1
    simp [disabledSelector, toString]
  rw [hsplit]
  refine isClassed_append hfront (by simp) (by simp [String.append_eq_empty_iff]) ?_
  exact isSolid_append.2 ⟨isSolid_of_hyphenated hbase, by decide⟩

end Selectors

/-! ## Rules -/

/-- A rule of a style sheet: its selector, what it declares, and whether a comment stands in it. -/
structure Styling where
  selector : String
  declarations : List Css.Declaration
  noted : Bool

namespace Styling

/-- What is left of the rule without comments. -/
def text (r : Styling) : String := Css.bareBlock r.selector r.declarations r.noted

/-- What the rule is read as. -/
def rule (r : Styling) : Css.Rule := ⟨.other r.selector, r.declarations⟩

/-- The selector is read as it is printed, and so is what is declared. -/
structure IsSound (r : Styling) : Prop where
  selector : IsClassed r.selector
  declarations : ArePlain r.declarations

theorem IsSound.reads {r : Styling} (h : r.IsSound) (note : Option String) (hnote : note.isSome = r.noted) :
    Css.Reads (Css.block r.selector r.declarations note 0) r.text [r.rule] := by
  rw [text, ← hnote]
  exact Css.reads_block h.selector h.declarations note

/-- A rule that only has a comment in it. -/
theorem empty_reads {selector : String} (h : IsClassed selector) (note : String) :
    Css.Reads (Css.block selector [] (some note) 0) (text ⟨selector, [], true⟩)
      [rule ⟨selector, [], true⟩] :=
  IsSound.reads (r := ⟨selector, [], true⟩) ⟨h, arePlain_nil⟩ (some note) rfl

end Styling

/-- The names of the states that have an empty rule. -/
def emptyStates (b : Blueprint) : List String :=
  ((b.states.map (·.name)).filter (!·.isOneOf ["default", "disabled"])).map Datum.shown

/-- The rules of a component's style sheet: that of the outermost node, an empty one for each selector of
variants with properties where it is first seen, an empty one for each state other than the default and
the disabled one, and the rule of the disabled state. -/
def stylings (base : String) (root : List Property) (b : Blueprint) : List Styling :=
  [⟨"." ++ base, printed root, false⟩] ++
    (distinct (variantSelectors base b.variants)).map (fun selector => ⟨selector, [], true⟩) ++
    (emptyStates b).map (fun state => ⟨stateSelector base state, [], true⟩) ++
    [⟨disabledSelector base, [("opacity", "0.5"), ("cursor", "not-allowed")], false⟩]

section Rules

variable {base : String}

theorem isClassed_of_variants (hbase : Hyphenated base.toList) (hne : base ≠ "")
    {variants : List VariantSpec} {selector : String}
    (h : selector ∈ distinct (variantSelectors base variants)) : IsClassed selector := by
  obtain ⟨v, -, rfl⟩ := List.mem_map.1 (Component.mem_distinct h)
  exact isClassed_variant hbase hne v.properties

theorem stylings_sound (hbase : Hyphenated base.toList) (hne : base ≠ "") {root : List Property}
    (hroot : ArePlain (printed root)) (b : Blueprint) : ∀ r ∈ stylings base root b, r.IsSound := by
  have hdisabled : ArePlain [("opacity", "0.5"), ("cursor", "not-allowed")] :=
    (arePlain_single (by decide) (by decide)).append (arePlain_single (by decide) (by decide))
  simp only [stylings, List.forall_mem_append, List.forall_mem_singleton, List.forall_mem_map]
  exact ⟨⟨⟨⟨isClassed_base hbase hne, hroot⟩,
    fun selector hselector => ⟨isClassed_of_variants hbase hne hselector, arePlain_nil⟩⟩,
    fun state _ => ⟨isClassed_state hbase state, arePlain_nil⟩⟩, ⟨isClassed_disabled hbase, hdisabled⟩⟩

/-- The rules of variants, with a comment in each, one for each selector that was not seen. -/
theorem variantBlocks_eq (base : String) (seen : List String) (variants : List VariantSpec) :
    ∃ rows : List (String × String), variantBlocks base seen variants =
        rows.map (fun row => Css.block row.1 [] (some row.2) 0) ∧
      rows.map Prod.fst = (distinct (variantSelectors base variants)).filter (!seen.contains ·) := by
  induction variants generalizing seen with
  | nil => exact ⟨[], rfl, rfl⟩
  | cons v rest ih =>
    rw [variantBlocks]
    by_cases hempty : v.properties.isEmpty = true
    · have hselectors : variantSelectors base (v :: rest) = variantSelectors base rest := by
        simp [variantSelectors, hempty]
      rw [hselectors, hempty, Bool.true_or, if_pos rfl]
      exact ih seen
    · have hselectors : variantSelectors base (v :: rest) =
          variantSelector base v.properties :: variantSelectors base rest := by
        simp [variantSelectors, hempty]
      have hfull : v.properties.isEmpty = false := by simpa using hempty
      rw [hselectors, hfull, Bool.false_or]
      by_cases hseen : variantSelector base v.properties ∈ seen
      · rw [if_pos (by simpa using hseen), Component.new_of_seen hseen]
        exact ih seen
      · obtain ⟨rows, hrows, hnew⟩ := ih (variantSelector base v.properties :: seen)
        rw [if_neg (by simpa using hseen), Component.new_of_unseen (fun _ => List.mem_cons) hseen, hrows]
        exact ⟨(variantSelector base v.properties, _) :: rows, rfl, by rw [List.map_cons, hnew]⟩

theorem variantBlocks_read (hbase : Hyphenated base.toList) (hne : base ≠ "")
    (variants : List VariantSpec) :
    Css.ReadEach (variantBlocks base [] variants)
      ((distinct (variantSelectors base variants)).map fun s => Styling.text ⟨s, [], true⟩)
      ((distinct (variantSelectors base variants)).map fun s => Styling.rule ⟨s, [], true⟩) := by
  obtain ⟨rows, hrows, hselectors⟩ := variantBlocks_eq base [] variants
  have hnothing : ∀ s : String, (!([] : List String).contains s) = true := by simp
  simp only [hnothing, List.filter_true] at hselectors
  rw [hrows, ← hselectors, List.map_map, List.map_map]
  refine .map fun row hrow => ?_
  have hselector : row.1 ∈ distinct (variantSelectors base variants) :=
    hselectors ▸ List.mem_map_of_mem hrow
  exact Styling.empty_reads (isClassed_of_variants hbase hne hselector) row.2

/-- The rules of states that are neither the default nor the disabled one. -/
theorem stateBlocks_eq {items : List Datum} {states : List Component.StateSpec} {blocks : List String}
    (hread : items.mapM Component.StateSpec.read = .ok states) (h : stateBlocks base items = .ok blocks) :
    blocks = (((states.map (·.name)).filter (!·.isOneOf ["default", "disabled"])).map Datum.shown).map
      (stateBlock base) := by
  obtain ⟨own, hown, h⟩ := Outcome.bind_ok h
  cases h
  clear h
  induction items generalizing states own with
  | nil =>
    cases hread
    cases hown
    rfl
  | cons item items ih =>
    rw [List.mapM_cons] at hread hown
    obtain ⟨state, hstate, hread⟩ := Outcome.bind_ok hread
    obtain ⟨states', hstates, hread⟩ := Outcome.bind_ok hread
    obtain ⟨block, hblock, hown⟩ := Outcome.bind_ok hown
    obtain ⟨own', hown', hown⟩ := Outcome.bind_ok hown
    cases hread
    cases hown
    obtain ⟨name, hname, hstate⟩ := Outcome.bind_ok hstate
    obtain ⟨trigger, -, hstate⟩ := Outcome.bind_ok hstate
    cases hstate
    rw [ownStateBlock, hname, Outcome.ok_bind] at hblock
    rw [List.flatten_cons, ih hstates _ hown', List.map_cons]
    split at hblock
    · rename_i hskip
      cases hblock
      rw [List.filter_cons_of_neg (by simpa using hskip)]
      rfl
    · rename_i hkeep
      obtain ⟨key, hkey, hblock⟩ := Outcome.bind_ok hblock
      cases hblock
      rw [List.filter_cons_of_pos (by simpa using hkeep), Datum.asKey_ok hkey]
      rfl

theorem stateBlocks_read (hbase : Hyphenated base.toList) (states : List String) :
    Css.ReadEach (states.map (stateBlock base))
      (states.map fun s => Styling.text ⟨stateSelector base s, [], true⟩)
      (states.map fun s => Styling.rule ⟨stateSelector base s, [], true⟩) :=
  .map fun state _ => Styling.empty_reads (isClassed_state hbase state) ("State: " ++ state)

/-- The lines of matches are one comment, whatever the names in them are. -/
theorem matchComment_read (ms : List Matched) :
    ∃ n, Css.ReadEach (matchComment ms) (List.replicate n "") [] := by
  unfold matchComment
  split
  · exact ⟨0, .nil⟩
  · have hfirst : Css.IsCommentary " Design tokens matched to project tokens:".toList := ⟨false, by decide⟩
    have hlines : ms.map Matched.line =
        (ms.map fun m => s!" *   {m.var} → {m.cssVar} ({m.confidence})").map Script.harmless := by
      rw [List.map_map]
      rfl
    obtain ⟨star, hbody⟩ := Css.isCommentary_onNewLines hfirst
      (ms.map fun m => s!" *   {m.var} → {m.cssVar} ({m.confidence})")
    have hend : Css.commentary.walk star ['\n', ' '] = some false := by
      simp [Css.Scan.walk, Css.commentary]
    refine ⟨1, .single (Css.Reads.enclosed ⟨false, Css.Scan.walk_append hbody hend⟩ ?_)⟩
    have htext := Css.toList_lines "/* Design tokens matched to project tokens:" (ms.map Matched.line ++ [" */"])
    rw [Css.onNewLines_cons, List.cons_append] at htext
    rw [List.append_assoc, List.singleton_append, (List.cons.inj htext).2, Css.onNewLines_append, hlines]
    simp [Css.onNewLines]

/-- A style sheet without its comments is its rules, and a reader takes it for them. -/
theorem text_rules {name css : String} {outline interaction matched tree : Datum}
    {table : Table Datum Datum} {b : Blueprint} (hbase : Hyphenated base.toList) (hne : base ≠ "")
    (htable : AreReferences table) (htree : Component.treeOf outline = .ok tree) (hdrawn : IsDrawn tree)
    (hlayout : ∀ d, tree.at? "layout" = some d → ∃ layer, Outline.layout layer = .ok (some d))
    (hread : Blueprint.read outline interaction = .ok b)
    (h : text name base outline interaction (.ok table) matched = .ok css) :
    ∃ style root n, strokeStyle outline = .ok style ∧ rootProperties tree (.ok table) style = .ok root ∧
      Css.uncommented css = "\n\n".intercalate
        (List.replicate n "" ++ (stylings base root b).map Styling.text) ++ "\n" ∧
      Css.read css = (stylings base root b).map Styling.rule ∧
      ∀ r ∈ stylings base root b, r.text.toList.count '\x7b' = 1 ∧ r.text.toList.count '\x7d' = 1 := by
  unfold text at h
  rw [htree, Outcome.ok_bind] at h
  obtain ⟨style, hstyle, h⟩ := Outcome.bind_ok h
  obtain ⟨ms, -, h⟩ := Outcome.bind_ok h
  obtain ⟨root, hroot, h⟩ := Outcome.bind_ok h
  obtain ⟨items, hitems, h⟩ := Outcome.bind_ok h
  obtain ⟨variants, hvariants, h⟩ := Outcome.bind_ok h
  obtain ⟨stateItems, hstateItems, h⟩ := Outcome.bind_ok h
  obtain ⟨states, hstates, h⟩ := Outcome.bind_ok h
  cases h
  -- the variants and the states are those of the blueprint
  obtain ⟨items', hitems', hvariants'⟩ := Component.Blueprint.read_variants hread
  obtain rfl := Except.ok.inj (hitems.symm.trans hitems')
  obtain rfl := Except.ok.inj (hvariants.symm.trans hvariants')
  obtain ⟨-, -, -, ⟨stateItems', hstateItems', hspecs⟩, -⟩ := Component.Blueprint.read_ok hread
  obtain rfl := Except.ok.inj (hstateItems.symm.trans hstateItems')
  obtain rfl := stateBlocks_eq hspecs hstates
  have hsound := stylings_sound hbase hne (rootProperties_plain htable hdrawn hlayout hroot) b
  obtain ⟨n, hmatches⟩ := matchComment_read ms
  have hfirst : (⟨"." ++ base, printed root, false⟩ : Styling).IsSound := hsound _ (by simp [stylings])
  have hlast : (⟨disabledSelector base, [("opacity", "0.5"), ("cursor", "not-allowed")], false⟩ :
      Styling).IsSound := hsound _ (by simp [stylings])
  -- the blocks of the sheet in order, each with what is left of it and what it is read as
  have hblocks := (((((Css.ReadEach.single (Css.Reads.comment (name ++ " styles, generated from Figma"))).append
    hmatches).append (.single (hfirst.reads none rfl))).append
    (variantBlocks_read hbase hne b.variants)).append (stateBlocks_read hbase (emptyStates b))).append
    (.single (hlast.reads none rfl))
  have hsep : Css.Reads "\n\n" "\n\n" [] := Css.Reads.lineBreak.append Css.Reads.lineBreak
  obtain ⟨hleft, hrules⟩ := ((hblocks.intercalate hsep (by simp)).append Css.Reads.lineBreak).read_eq
  refine ⟨style, root, n + 1, hstyle, hroot, ?_, ?_, fun r hr => ?_⟩
  · refine Eq.trans hleft ?_
    rw [List.replicate_succ]
    simp [stylings, Function.comp_def]
  · refine Eq.trans hrules ?_
    simp [stylings, Function.comp_def]
  · exact Css.braces_bareBlock (hsound r hr).selector (hsound r hr).declarations r.noted

/-- Whatever the names, the variants, the states and the matched variables of a component are, its style
sheet without its comments is exactly its rules, with one brace that opens each and one that closes it,
and a reader takes the sheet for these rules. -/
theorem generate_styles {scene : Scene} {origin : Outline.Origin}
    {title outline tokens interaction matched : Datum} {files : Component.Artifacts} {notices : List Notice}
    (ho : Outline.ofScene scene origin = .ok outline)
    (hdrawn : ∀ tree, outline.at? "tree" = some tree → IsDrawn tree)
    (hmatched : ∀ items, (matched.orElse (.list [])).items = .ok items → ∀ m ∈ items, IsMatch m)
    (h : (Component.generate title outline tokens interaction matched).exec = (.ok files, notices)) :
    ∃ name b tree table style root n, Component.componentName title = .ok name ∧
      Blueprint.read outline interaction = .ok b ∧ Component.treeOf outline = .ok tree ∧
      Component.tokenTable tokens matched = .ok table ∧ strokeStyle outline = .ok style ∧
      rootProperties tree (.ok table) style = .ok root ∧
      let rules := stylings (Naming.kebab (.ofString name)) root b
      Css.uncommented files.styles =
          "\n\n".intercalate (List.replicate n "" ++ rules.map Styling.text) ++ "\n" ∧
        Css.read files.styles = rules.map Styling.rule ∧
        ∀ r ∈ rules, r.text.toList.count '\x7b' = 1 ∧ r.text.toList.count '\x7d' = 1 := by
  rw [Run.exec_eq] at h
  unfold Component.generate at h
  obtain ⟨s, ms, hs, h⟩ := Run.after_bind_ok h
  obtain ⟨styles, hstyles, h⟩ := Run.after_lift_bind_ok h
  obtain ⟨story, -, h⟩ := Run.after_lift_bind_ok h
  cases h
  obtain ⟨name, ns, hname, hplan, -⟩ := Component.compose_ok hs
  obtain ⟨-, hread, -⟩ := Component.plan_steps hplan
  obtain ⟨hbase, table, htable, htokens⟩ := Component.plan_styled hplan
  rw [hbase, htokens] at hstyles
  -- the outermost node is a node of the outline, or there is none
  obtain ⟨t, slots, htree, -, -, hnode⟩ := Outline.slots_of_scene ho
  have hrecord : outline.isRecord = true := by
    cases outline with
    | record => rfl
    | _ => cases htree
  have hget : outline.get "tree" = .ok t := by rw [Datum.get_eq hrecord, htree]; rfl
  obtain ⟨tree, hroot, hdrawn', hlayout⟩ : ∃ tree, Component.treeOf outline = .ok tree ∧ IsDrawn tree ∧
      ∀ d, tree.at? "layout" = some d → ∃ layer, Outline.layout layer = .ok (some d) := by
    rw [Component.treeOf, hget, Outcome.ok_bind]
    rcases hnode with rfl | hnode
    · exact ⟨.empty, rfl, nofun, nofun⟩
    · rw [Datum.orElse, if_pos hnode.record.2]
      exact ⟨t, rfl, hdrawn t htree, fun d hd => hnode.layout hd⟩
  obtain ⟨style, root, n, hstyle, hroot', hrest⟩ := text_rules (Naming.kebab_hyphenated _) (Component.kebab_ne _)
    (tokenTable_references hmatched htable) hroot hdrawn' hlayout hread hstyles
  exact ⟨name, _, tree, table, style, root, n, hname, hread, hroot, htable, hstyle, hroot', hrest⟩

end Rules

/-- A tag whose size would end a comment and a block has its rules all the same. -/
theorem generate_styles_tag : ∃ interaction files notices name b tree table style root n,
    Interaction.build (Component.tagOutline "*/ \x7d") Component.tagIntelligence = .ok interaction ∧
    (Component.generate (.text "Tag") (Component.tagOutline "*/ \x7d") .null interaction .null).exec =
      (.ok files, notices) ∧
    Component.componentName (.text "Tag") = .ok name ∧
    Blueprint.read (Component.tagOutline "*/ \x7d") interaction = .ok b ∧
    Component.treeOf (Component.tagOutline "*/ \x7d") = .ok tree ∧
    Component.tokenTable .null .null = .ok table ∧
    strokeStyle (Component.tagOutline "*/ \x7d") = .ok style ∧
    rootProperties tree (.ok table) style = .ok root ∧
    let rules := stylings (Naming.kebab (.ofString name)) root b
    Css.uncommented files.styles =
        "\n\n".intercalate (List.replicate n "" ++ rules.map Styling.text) ++ "\n" ∧
      Css.read files.styles = rules.map Styling.rule ∧
      ∀ r ∈ rules, r.text.toList.count '\x7b' = 1 ∧ r.text.toList.count '\x7d' = 1 := by
  have hrun : (Component.tagFiles "*/ \x7d").toOption.map
      (fun r => (r.2.base, r.2.rendered? (Component.tagVariant "*/ \x7d"))) =
      some ("tag", some "tag tag--size-x") := by decide +kernel
  obtain ⟨interaction, files, notices, _, _, hbuild, hgenerate, -⟩ := Component.tagFiles_ok hrun
  have hdrawn : ∀ tree, (Component.tagOutline "*/ \x7d").at? "tree" = some tree → IsDrawn tree := by
    rintro _ ⟨⟩
    nofun
  have hmatched : ∀ items, (Datum.null.orElse (.list [])).items = .ok items → ∀ m ∈ items, IsMatch m := by
    rintro _ ⟨⟩
    nofun
  obtain ⟨name, b, tree, table, style, root, n, hname, hread, htree, htable, hroot, hrules⟩ :=
    generate_styles (Component.tagOutline_made "*/ \x7d") hdrawn hmatched hgenerate
  exact ⟨interaction, files, notices, name, b, tree, table, style, root, n, hbuild, hgenerate, hname, hread,
    htree, htable, hroot, hrules⟩

end Maquette.Stylesheet
