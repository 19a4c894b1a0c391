/-
What the style sheet of a set of tokens means. Where the names of the tokens differ once they are
normalized, no alias is left and no text has a mark in it, the sheet tells each token's value in each
mode: the root has the default values, and a theme has the values that differ from them. A value that
is equal to the default value is left out; since values are held as they are, it is the same value,
unless one is a truth value and the other one a number.
-/
import Maquette.Proofs.Token.Property

namespace Maquette

namespace Token

/-! ## Equal values -/

/-- Held values that are equal are the same, if none is an alias and they are not a truth value and a
number. -/
theorem IsHeld.eq_of_equals {v w : Datum} (hv : IsHeld v) (hw : IsHeld w)
    (hav : isAlias v = false) (haw : isAlias w = false)
    (hvw : ∀ b, v = .bool b → w.isNumber = false) (hwv : ∀ b, w = .bool b → v.isNumber = false)
    (h : v.equals w = true) : v = w := by
  cases hv with
  | reference d id ha ht => rw [ha] at hav; cases hav
  | bool a =>
    cases hw with
    | bool b => exact congrArg Datum.bool (eq_of_beq h)
    | int n hn => exact absurd (hvw a rfl) (by simp [Datum.isNumber])
    | float x hx => exact absurd (hvw a rfl) (by simp [Datum.isNumber])
    | text t => cases h
    | reference d id ha ht => rw [ha] at haw; cases haw
  | int m hm =>
    cases hw with
    | bool b => exact absurd (hwv b rfl) (by simp [Datum.isNumber])
    | int n hn => exact congrArg Datum.int (eq_of_beq h)
    | float x hx =>
      rw [Decimal.isIntegral_of_intEqFloat (n := m) h] at hx
      cases hx
    | text t => cases h
    | reference d id ha ht => rw [ha] at haw; cases haw
  | float x hx =>
    obtain ⟨hnan, hsame⟩ := (Bool.and_eq_true _ _).mp h
    cases hw with
    | bool b => exact absurd (hwv b rfl) (by simp [Datum.isNumber])
    | int n hn =>
      rw [Decimal.isIntegral_of_intEqFloat (n := n) hsame] at hx
      cases hx
    | float y hy =>
      refine congrArg Datum.float (Decimal.eq_of_beq_of_not_integral ?_ hx)
      rcases (Bool.or_eq_true _ _).mp hsame with hsame | hboth
      · exact hsame
      · -- a NaN is not equal to anything
        rw [((Bool.and_eq_true _ _).mp hboth).1] at hnan
        cases hnan
    | text t => cases hsame
    | reference d id ha ht => rw [ha] at haw; cases haw
  | text t =>
    cases hw with
    | text u => exact congrArg Datum.text (eq_of_beq h)
    | reference d id ha ht => rw [ha] at haw; cases haw
    | _ => cases h

end Token

namespace TokenSet

open Token (IsHeld AreVariables)

/-- A set of tokens that a sheet can tell: their names differ once they are normalized, all aliases are
resolved, no token has truth values and numbers, and its texts and the names of modes are plain. -/
structure IsPlain (s : TokenSet) : Prop where
  distinct : (s.tokens.map fun t => Token.normalized t.name).Nodup
  resolved : ∀ t ∈ s.tokens, ∀ row ∈ t.modes, Token.isAlias row.2 = false
  unmixed : ∀ t ∈ s.tokens, ∀ row ∈ t.modes, ∀ row' ∈ t.modes, ∀ b, row.2 = .bool b →
    row'.2.isNumber = false
  texts : ∀ t ∈ s.tokens, ∀ row ∈ t.modes, ∀ text ∈ row.2.text?, Css.IsPlain text
  labels : ∀ mode ∈ s.modes, Css.IsPlain mode

section Plain

variable {vars : Token.Variables} {s : TokenSet} (hs : s.Holds vars) (hp : s.IsPlain)

include hp in
theorem IsPlain.properties : (s.tokens.map (·.property)).Nodup := by
  have hmap : s.tokens.map (·.property) =
      (s.tokens.map fun t => Token.normalized t.name).map ("--" ++ ·) := by
    rw [List.map_map]
    rfl
  rw [hmap]
  refine hp.distinct.map fun a b h => ?_
  exact String.append_right_inj _ |>.1 h

/-! ## Values of tokens -/

theorem mem_overrides {mode : String} {c : Cell} : c ∈ s.overrides mode ↔
    c.1 ∈ s.tokens ∧ c.1.modes.lookup (.text mode) = some c.2 ∧ c.2.equals c.1.value = false := by
  obtain ⟨t, value⟩ := c
  rw [overrides, List.mem_filterMap]
  constructor
  · rintro ⟨u, hu, h⟩
    obtain ⟨w, hw, heq⟩ := Option.map_eq_some_iff.1 h
    cases heq
    obtain ⟨hlook, hdiffers⟩ := Option.filter_eq_some_iff.1 hw
    exact ⟨hu, hlook, by simpa using hdiffers⟩
  · rintro ⟨ht, hlook, hdiffers⟩
    exact ⟨t, ht, by simp only [hlook, Option.filter_some, hdiffers]; rfl⟩

include hs in
/-- A default value has what all values of the token have, if an empty text has it. -/
theorem value_of_modes {t : Token} (ht : t ∈ s.tokens) {P : Datum → Prop}
    (h : ∀ row ∈ t.modes, P row.2) (hempty : P (.text "")) : P t.value := by
  rcases hs.gathered.defaults t ht with hvalue | ⟨row, hrow, hvalue⟩
  · rw [hvalue]
    exact hempty
  · rw [hvalue]
    exact h row hrow

theorem of_lookup {t : Token} {P : Datum → Prop} (h : ∀ row ∈ t.modes, P row.2) {mode : String}
    {value : Datum} (hlook : t.modes.lookup (.text mode) = some value) : P value := by
  obtain ⟨k, -, hmem⟩ := Table.mem_of_lookup hlook
  exact h _ hmem

include hs hp in
/-- What is left out is the default value again. -/
theorem eq_default {t : Token} (ht : t ∈ s.tokens) {mode : String} {value : Datum}
    (hlook : t.modes.lookup (.text mode) = some value) (h : value.equals t.value = true) :
    value = t.value := by
  have hheld : IsHeld value := of_lookup (fun row hrow => (hs.gathered.modes t ht row hrow).2) hlook
  have hvalue : Token.isAlias value = false :=
    of_lookup (P := (Token.isAlias · = false)) (hp.resolved t ht) hlook
  have hdefault : Token.isAlias t.value = false :=
    value_of_modes hs ht (P := (Token.isAlias · = false)) (hp.resolved t ht) rfl
  refine hheld.eq_of_equals (hs.gathered.value_held ht) hvalue hdefault ?_ ?_ h
  -- a truth value equals a number, whichever of the two is the default value
  · rintro b rfl
    refine value_of_modes hs ht (P := (·.isNumber = false)) (fun row hrow => ?_) rfl
    exact of_lookup (P := fun d => d = .bool b → row.2.isNumber = false)
      (fun row' hrow' => hp.unmixed t ht row' hrow' row hrow b) hlook rfl
  · intro b hb
    refine of_lookup (P := (·.isNumber = false)) (fun row hrow => ?_) hlook
    exact value_of_modes hs ht (P := fun d => d = .bool b → row.2.isNumber = false)
      (fun row' hrow' => hp.unmixed t ht row' hrow' row hrow b) (fun h => by cases h) hb

include hs hp in
theorem sheet_plain : (∀ mode ∈ s.themes, Css.IsQuotable mode) ∧
    ∀ c ∈ s.cells, ∀ text ∈ c.2.text?, Css.IsContained text := by
  have hempty : ∀ text ∈ (Datum.text "").text?, Css.IsPlain text := by
    rintro text ⟨⟩
    exact ⟨rfl, by decide, by decide⟩
  constructor
  · intro mode hmode
    exact (hp.labels mode (List.mem_filter.1 hmode).1).isQuotable
  · intro c hc text htext
    refine Css.IsPlain.isContained ?_
    rcases List.mem_append.1 hc with hc | hc
    · obtain ⟨ht, hvalue⟩ := hs.mem_defaults.1 hc
      rw [hvalue] at htext
      exact value_of_modes hs ht (P := fun d => ∀ text ∈ d.text?, Css.IsPlain text)
        (hp.texts _ ht) hempty text htext
    · obtain ⟨mode, -, hc⟩ := List.mem_flatMap.1 hc
      obtain ⟨ht, hlook, -⟩ := mem_overrides.1 hc
      exact of_lookup (P := fun d => ∀ text ∈ d.text?, Css.IsPlain text) (hp.texts _ ht) hlook text
        htext

/-! ## Declarations -/

theorem properties_sublist (s : TokenSet) (cells : List Cell) :
    ((cells.filterMap s.declaration?).map (·.1)).Sublist (cells.map (·.1.property)) := by
  induction cells with
  | nil => exact .slnil
  | cons c cells ih =>
    rw [List.filterMap_cons, declaration?]
    cases s.css? c with
    | none => exact .cons _ ih
    | some css => exact .cons_cons _ ih

/-- Cells of tokens with distinct properties declare each property at most once. -/
theorem valuesOf_cell {cells : List Cell} (hnd : (cells.map (·.1.property)).Nodup) {c : Cell}
    (hc : c ∈ cells) {css : String} (hcss : s.css? c = some css) :
    Css.valuesOf c.1.property (cells.filterMap s.declaration?) = [css] := by
  have hmem : (c.1.property, css) ∈ cells.filterMap s.declaration? :=
    List.mem_filterMap.2 ⟨c, hc, by rw [declaration?, hcss]; rfl⟩
  exact Css.valuesOf_once (hnd.sublist (s.properties_sublist cells)) hmem

theorem valuesOf_none {cells : List Cell} {property : String}
    (h : ∀ c ∈ cells, c.1.property ≠ property) :
    Css.valuesOf property (cells.filterMap s.declaration?) = [] := by
  rw [valuesOf_cells, List.filter_eq_nil_iff.2]
  · rfl
  · intro c hc
    simpa using h c hc

include hs hp in
theorem defaults_properties : (s.defaults.map (·.1.property)).Nodup := by
  have hperm := hs.defaults_perm.map Token.property
  rw [List.map_map] at hperm
  exact hperm.nodup_iff.2 hp.properties

include hp in
theorem overrides_properties (mode : String) : ((s.overrides mode).map (·.1.property)).Nodup := by
  have hsub : ((s.overrides mode).map (·.1)).Sublist s.tokens := by
    unfold overrides
    induction s.tokens with
    | nil => exact .slnil
    | cons t tokens ih =>
      rw [List.filterMap_cons]
      cases (t.modes.lookup (.text mode)).filter (!·.equals t.value) with
      | none => exact .cons _ ih
      | some value => exact .cons_cons _ ih
  have hmap : (s.overrides mode).map (·.1.property) =
      ((s.overrides mode).map (·.1)).map Token.property := by
    rw [List.map_map]
    rfl
  rw [hmap]
  exact hp.properties.sublist (hsub.map _)

include hs hp in
/-- The root declares the property of a token once, with the default value. -/
theorem valuesOf_default {t : Token} (ht : t ∈ s.tokens) {css : String}
    (hcss : s.css? (t, t.value) = some css) :
    Css.valuesOf t.property (s.defaults.filterMap s.declaration?) = [css] :=
  valuesOf_cell (defaults_properties hs hp) (c := (t, t.value)) (hs.mem_defaults.2 ⟨ht, rfl⟩) hcss

include hs in
/-- A mode in which a token has another value is listed. -/
theorem mode_mem {mode : String} {c : Cell} (hc : c ∈ s.overrides mode) : mode ∈ s.modes := by
  obtain ⟨ht, hlook, -⟩ := mem_overrides.1 hc
  obtain ⟨k, hk, hrow⟩ := Table.mem_of_lookup hlook
  have hlabel := (hs.gathered.modes c.1 ht _ hrow).1
  rw [Datum.text_same.1 hk] at hlabel
  obtain ⟨row, hrow, hlabel⟩ := List.mem_map.1 hlabel
  exact List.mem_map.2 ⟨row, hrow, by rw [hlabel]; rfl⟩

include hs hp in
/-- A token without another value in a mode has its default value in it. -/
theorem value_eq_default {t : Token} (ht : t ∈ s.tokens) {mode : String}
    (h : ∀ value, (t, value) ∉ s.overrides mode) :
    (t.modes.lookup (.text mode)).getD t.value = t.value := by
  cases hlook : t.modes.lookup (.text mode) with
  | none => rfl
  | some value =>
    cases hequals : value.equals t.value with
    | true => exact eq_default hs hp ht hlook hequals
    | false => exact absurd (mem_overrides.2 ⟨ht, hlook, hequals⟩) (h value)

include hs hp in
/-- The value of a token in a mode is in force under it. -/
theorem inForce_value {t : Token} (ht : t ∈ s.tokens) (mode : String) {css : String}
    (hcss : s.css? (t, (t.modes.lookup (.text mode)).getD t.value) = some css) :
    Css.inForce s.rules mode t.property = some css := by
  have hforce : Css.inForce s.rules mode t.property =
      (if mode ∈ s.themes then
        Css.valuesOf t.property ((s.overrides mode).filterMap s.declaration?) else []).getLast?.or
      (Css.valuesOf t.property (s.defaults.filterMap s.declaration?)).getLast? :=
    Css.inForce_themed (hs.modes_nodup.filter _) mode t.property
  rw [hforce]
  by_cases hover : ∃ value, (t, value) ∈ s.overrides mode
  · -- the theme has a value of its own
    obtain ⟨value, hmem⟩ := hover
    obtain ⟨-, hlook, -⟩ := mem_overrides.1 hmem
    rw [hlook] at hcss
    rw [if_pos (mem_themes (mode_mem hs hmem) hmem),
      valuesOf_cell (overrides_properties hp mode) hmem hcss]
    rfl
  · -- the property is that of no other token, so the root has the value
    have habsent : ∀ c ∈ s.overrides mode, c.1.property ≠ t.property := by
      rintro ⟨u, value⟩ hc heq
      obtain rfl : u = t :=
        List.inj_on_of_nodup_map hp.properties (mem_overrides.1 hc).1 ht heq
      exact hover ⟨value, hc⟩
    rw [value_eq_default hs hp ht fun value hmem => hover ⟨value, hmem⟩] at hcss
    rw [valuesOf_none habsent, ite_self, valuesOf_default hs hp ht hcss]
    rfl

end Plain

/-! ## The cascade -/

/-- The sheet of a plain set that is built from a table of variables means what the set says: the root
declares the property of each token once, with its default value, and under each mode the value in
force is the token's value in it, or the default value if it has none. -/
theorem sheet_cascade {vars : Token.Variables} {table : Table Datum Datum} {walks : List Walked}
    {maxDepth : Datum} {s : TokenSet} {ns : List Notice} (hv : AreVariables vars)
    (hl : AreLabelled vars table)
    (h : (build vars (.ok table) (.ok walks) maxDepth).exec = (.ok s, ns)) (hp : s.IsPlain) :
    ∃ text notices, (Token.sheet s.toDatum).exec = (.ok text, notices) ∧ ∀ t ∈ s.tokens,
      (∃ css, Token.cssValue (.text t.kind) t.value (.ok s.names) s.known = .ok (some css) ∧
        Css.declared (Css.read text) .root t.property = [css]) ∧
      ∀ mode, ∃ css, Token.cssValue (.text t.kind) ((t.modes.lookup (.text mode)).getD t.value)
          (.ok s.names) s.known = .ok (some css) ∧
        Css.inForce (Css.read text) mode t.property = some css := by
  have hs := build_holds hv hl h
  refine ⟨_, _, sheet_after hs hl.ids [], fun t ht => ?_⟩
  have hread : Css.read (Css.printed s.remarks s.blocks) = s.rules := by
    rw [← map_rule_blocks, Css.read_printed_iff s.remarks s.blocks_haveProperties,
      blocks_contained_iff hs]
    exact sheet_plain hs hp
  rw [hread]
  have hdefault : IsHeld t.value ∧ Token.isAlias t.value = false :=
    ⟨hs.gathered.value_held ht,
      value_of_modes hs ht (P := (Token.isAlias · = false)) (hp.resolved t ht) rfl⟩
  constructor
  · obtain ⟨css, hcss⟩ := s.css?_some (c := (t, t.value)) hdefault.1 hdefault.2
    refine ⟨css, ?_, ?_⟩
    · rw [← hcss]
      exact s.cssValue_eq (c := (t, t.value)) hdefault.1
    · rw [← valuesOf_default hs hp ht hcss]
      exact Css.declared_root t.property
  · intro mode
    have hvalue : IsHeld ((t.modes.lookup (.text mode)).getD t.value) ∧
        Token.isAlias ((t.modes.lookup (.text mode)).getD t.value) = false :=
      Table.lookup_getD (P := fun d => IsHeld d ∧ Token.isAlias d = false)
        (fun row hrow => ⟨(hs.gathered.modes t ht row hrow).2, hp.resolved t ht row hrow⟩) hdefault
    obtain ⟨css, hcss⟩ := s.css?_some (c := (t, _)) hvalue.1 hvalue.2
    refine ⟨css, ?_, inForce_value hs hp ht mode hcss⟩
    rw [← hcss]
    exact s.cssValue_eq (c := (t, _)) hvalue.1

theorem isPlain_palette : paletteSet.IsPlain where
  distinct := by decide +kernel
  resolved := by decide +kernel
  unmixed := by
    have hnumbers : ∀ t ∈ paletteSet.tokens, ∀ row ∈ t.modes, row.2.isNumber = false := by
      decide +kernel
    exact fun t ht _ _ row hrow _ _ => hnumbers t ht row hrow
  texts := by decide +kernel
  labels := by decide +kernel

/-- The link of the palette has no value of its own in the dark, where the base color has one. -/
theorem sheet_cascade_palette :
    (build paletteVariables (.ok []) (.ok []) Token.defaultMaxDepth).exec = (.ok paletteSet, []) ∧
      paletteSet.IsPlain ∧
      ∃ text notices, (Token.sheet paletteSet.toDatum).exec = (.ok text, notices) ∧
        Css.declared (Css.read text) .root "--base" = ["white"] ∧
        Css.inForce (Css.read text) "dark" "--base" = some "black" ∧
        Css.inForce (Css.read text) "dark" "--link" = some "white" := by
  obtain ⟨text, notices, hsheet, hmeans⟩ :=
    sheet_cascade areVariables_palette areLabelled_palette build_palette isPlain_palette
  refine ⟨build_palette, isPlain_palette, text, notices, hsheet, ?_⟩
  obtain ⟨hbase, hlink⟩ := List.forall_mem_cons.1 hmeans
  have hlink := List.forall_mem_singleton.1 hlink
  obtain ⟨⟨css, hcss, hdeclared⟩, hbase⟩ := hbase
  obtain ⟨dark, hdark, hforce⟩ := hbase "dark"
  obtain ⟨same, hsame, hleft⟩ := hlink.2 "dark"
  cases hcss
  cases hdark
  cases hsame
  exact ⟨hdeclared, hforce, hleft⟩

end TokenSet

end Maquette
