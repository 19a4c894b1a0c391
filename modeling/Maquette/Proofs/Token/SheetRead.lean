/-
The style sheet of a set of tokens as it is read. It is read as what it is meant to be, a rule for the
root with every token once and a rule for each mode with other values, exactly if the names of these
modes can stand between quotation marks and the texts that are written are contained. Numbers, truth
values and references always are; a name or a text with a mark in it is not escaped.
-/
import Maquette.Proofs.Css.Unmarked
import Maquette.Proofs.Token.SheetText

namespace Maquette

open Outline (IsText)

/-! ## Grouping -/

/-- What is picked out key by key is everything, if the keys are distinct and all that there are. -/
theorem flatMap_filter_perm {α κ : Type} [DecidableEq κ] {key : α → κ} {keys : List κ}
    (hkeys : keys.Nodup) {xs : List α} (h : ∀ x ∈ xs, key x ∈ keys) :
    (keys.flatMap fun k => xs.filter (key · == k)).Perm xs := by
  induction keys generalizing xs with
  | nil =>
    cases xs with
    | nil => rfl
    | cons x xs => exact absurd (h x List.mem_cons_self) List.not_mem_nil
  | cons k keys ih =>
    obtain ⟨hk, hkeys⟩ := List.nodup_cons.1 hkeys
    have hrest : ∀ x ∈ xs.filter (!key · == k), key x ∈ keys := by
      intro x hx
      obtain ⟨hmem, hne⟩ := List.mem_filter.1 hx
      exact (List.mem_cons.1 (h x hmem)).resolve_left (by simpa using hne)
    -- what has another key is not picked out for the first one
    have hsame : (keys.flatMap fun k' => xs.filter (key · == k')) =
        keys.flatMap fun k' => (xs.filter (!key · == k)).filter (key · == k') := by
      refine List.flatMap_congr fun k' hk' => ?_
      rw [List.filter_filter]
      refine List.filter_congr fun x _ => ?_
      by_cases hx : key x = k'
      · have hne : k' ≠ k := by
          rintro rfl
          exact hk hk'
        simp [hx, hne]
      · simp [hx]
    rw [List.flatMap_cons, hsame]
    exact ((ih hkeys hrest).append_left _).trans (List.filter_append_perm _ _)

namespace TokenSet

open Token (IsHeld AreVariables)
open Css (isMark unmarked_plain unmarked_pixels unmarked_reference)

/-! ## What is contained -/

theorem css?_text (s : TokenSet) (t : Token) (text : String) : s.css? (t, .text text) = some text := rfl

theorem css?_reference (s : TokenSet) (t : Token) {value : Datum} {id : String}
    (ha : Token.isAlias value = true) (ht : Token.aliasTarget value = .text id) :
    s.css? (t, value) =
      (((s.names.lookup (.text id)).bind Datum.text?).filter (· ≠ "")).map Token.cssVar := by
  unfold css? Token.cssValue
  rw [if_pos ha, ht, aliasValue_eq]
  rfl

theorem css?_number (s : TokenSet) {c : Cell} (h : IsHeld c.2) (hn : c.2.isNumber = true)
    {css : String} (hcss : s.css? c = some css) : c.2.plain = .ok css ∨ c.2.pixels = .ok css := by
  have hvalue := s.cssValue_eq h
  rw [hcss, s.cssValue_number _ hn] at hvalue
  obtain ⟨text, htext, hsome⟩ := Outcome.map_ok_inv hvalue
  cases hsome
  split at htext
  · exact .inr htext
  · exact .inl htext

/-- What a held value is written as has no marks, unless it is a text. -/
theorem unmarked_css {s : TokenSet} {c : Cell} (h : IsHeld c.2) (hne : c.2.text? = none)
    {css : String} (hcss : s.css? c = some css) : ∀ ch ∈ css.toList, isMark ch = false := by
  obtain ⟨t, value⟩ := c
  cases h with
  | bool b =>
    cases hcss
    cases b <;> exact Css.unmarked_of_all rfl
  | int n hn => exact (s.css?_number (.int n hn) rfl hcss).elim unmarked_plain unmarked_pixels
  | float x hx => exact (s.css?_number (.float x hx) rfl hcss).elim unmarked_plain unmarked_pixels
  | text text => cases hne
  | reference d id ha ht =>
    rw [s.css?_reference t ha ht] at hcss
    obtain ⟨name, -, rfl⟩ := Option.map_eq_some_iff.1 hcss
    exact unmarked_reference name

/-- A line is contained unless it declares a text that is not. -/
theorem line_contained_iff {s : TokenSet} {c : Cell} (h : IsHeld c.2) :
    (s.line c).IsContained ↔ ∀ text ∈ c.2.text?, Css.IsContained text := by
  have hline : (s.line c).IsContained ↔ ∀ css, s.css? c = some css → Css.IsContained css := by
    unfold line
    cases s.css? c <;> simp [Css.Line.IsContained]
  obtain ⟨t, value⟩ := c
  rw [hline]
  cases htext : value.text? with
  | some text =>
    obtain rfl : value = .text text := by
      cases value <;> cases htext
      rfl
    simp [css?_text]
  | none =>
    simp only [Option.not_mem_none, false_implies, implies_true, iff_true]
    exact fun css hcss => Css.isContained_of_unmarked (unmarked_css h htext hcss) rfl

section Read

variable {vars : Token.Variables} {s : TokenSet}

/-- The root has every token with its default value. -/
theorem Holds.mem_defaults (hs : s.Holds vars) {c : Cell} :
    c ∈ s.defaults ↔ c.1 ∈ s.tokens ∧ c.2 = c.1.value := by
  obtain ⟨t, value⟩ := c
  constructor
  · intro hc
    obtain ⟨kind, -, hc⟩ := List.mem_flatMap.1 hc
    obtain ⟨u, hu, hc⟩ := List.mem_map.1 hc
    cases hc
    exact ⟨(List.mem_filter.1 hu).1, rfl⟩
  · rintro ⟨ht, hvalue⟩
    obtain rfl : value = t.value := hvalue
    refine List.mem_flatMap.2 ⟨t.kind, hs.gathered.kinds t ht, List.mem_map.2 ⟨t, ?_, rfl⟩⟩
    exact List.mem_filter.2 ⟨ht, beq_self_eq_true _⟩

/-- A mode in which a token has another value is a theme. -/
theorem mem_themes {mode : String} (hmode : mode ∈ s.modes) {c : Cell} (hc : c ∈ s.overrides mode) :
    mode ∈ s.themes := by
  refine List.mem_filter.2 ⟨hmode, ?_⟩
  cases hempty : s.overrides mode with
  | nil => rw [hempty] at hc; cases hc
  | cons first rest => rfl

theorem Holds.cells_held (hs : s.Holds vars) : ∀ c ∈ s.cells, IsHeld c.2 := by
  intro c hc
  rcases List.mem_append.1 hc with hc | hc
  · obtain ⟨ht, hvalue⟩ := hs.mem_defaults.1 hc
    rw [hvalue]
    exact hs.gathered.value_held ht
  · obtain ⟨mode, -, hc⟩ := List.mem_flatMap.1 hc
    exact hs.overrides_held c hc

/-- Lines are contained exactly if the texts in them are. -/
theorem lines_contained_iff {cells : List Cell} (h : ∀ c ∈ cells, IsHeld c.2) :
    (∀ line ∈ cells.map s.line, line.IsContained) ↔
      ∀ c ∈ cells, ∀ text ∈ c.2.text?, Css.IsContained text := by
  rw [List.forall_mem_map]
  exact forall₂_congr fun c hc => line_contained_iff (h c hc)

theorem rootBlock_contained_iff (hs : s.Holds vars) : s.rootBlock.IsContained ↔
    ∀ c ∈ s.defaults, ∀ text ∈ c.2.text?, Css.IsContained text := by
  have hkind : ∀ kind, (∀ line ∈ s.kindLines kind, line.IsContained) ↔
      ∀ c ∈ s.ofKind kind, ∀ text ∈ c.2.text?, Css.IsContained text := by
    intro kind
    rw [← lines_contained_iff hs.ofKind_held, kindLines]
    split
    · rename_i hempty
      simp [List.isEmpty_iff.1 hempty]
    · -- the heading of the kind is a remark
      rw [List.forall_mem_cons]
      exact and_iff_right trivial
  have hblock : s.rootBlock.IsContained ↔
      ∀ kind ∈ Token.kinds, ∀ line ∈ s.kindLines kind, line.IsContained := by
    rw [← List.forall_mem_flatMap]
    exact and_iff_right fun name hname => absurd hname (Option.not_mem_none name)
  rw [hblock, defaults, List.forall_mem_flatMap]
  exact forall₂_congr fun kind _ => hkind kind

theorem themeBlock_contained_iff (hs : s.Holds vars) (mode : String) :
    (s.themeBlock mode).IsContained ↔ Css.IsQuotable mode ∧
      ∀ c ∈ s.overrides mode, ∀ text ∈ c.2.text?, Css.IsContained text := by
  rw [← lines_contained_iff hs.overrides_held]
  exact and_congr_left fun _ => by simp [themeBlock]

/-- The blocks are contained exactly if the names of the modes and the texts in them are. -/
theorem blocks_contained_iff (hs : s.Holds vars) : (∀ b ∈ s.blocks, b.IsContained) ↔
    (∀ mode ∈ s.themes, Css.IsQuotable mode) ∧
      ∀ c ∈ s.cells, ∀ text ∈ c.2.text?, Css.IsContained text := by
  -- a mode that is no theme has nothing to be written
  have hmodes : (∀ c ∈ s.modes.flatMap s.overrides, ∀ text ∈ c.2.text?, Css.IsContained text) ↔
      ∀ mode ∈ s.themes, ∀ c ∈ s.overrides mode, ∀ text ∈ c.2.text?, Css.IsContained text := by
    rw [List.forall_mem_flatMap]
    constructor
    · intro h mode hmode
      exact h mode (List.mem_filter.1 hmode).1
    · intro h mode hmode c hc
      exact h mode (mem_themes hmode hc) c hc
  rw [blocks, List.forall_mem_cons, List.forall_mem_map, rootBlock_contained_iff hs, cells,
    List.forall_mem_append, hmodes]
  constructor
  · rintro ⟨hdefaults, hthemes⟩
    have hthemes := fun mode hmode => (themeBlock_contained_iff hs mode).1 (hthemes mode hmode)
    exact ⟨fun mode hmode => (hthemes mode hmode).1, hdefaults, fun mode hmode => (hthemes mode hmode).2⟩
  · rintro ⟨hquotable, hdefaults, hoverrides⟩
    refine ⟨hdefaults, fun mode hmode => (themeBlock_contained_iff hs mode).2 ?_⟩
    exact ⟨hquotable mode hmode, hoverrides mode hmode⟩

/-! ## Every token and every mode once -/

theorem Holds.defaults_perm (hs : s.Holds vars) : (s.defaults.map (·.1)).Perm s.tokens := by
  have hgroups : s.defaults.map (·.1) =
      Token.kinds.flatMap fun kind => s.tokens.filter (·.kind == kind) := by
    rw [defaults, List.map_flatMap]
    refine List.flatMap_congr fun kind _ => ?_
    simp [ofKind, Function.comp_def]
  rw [hgroups]
  exact flatMap_filter_perm (by decide) hs.gathered.kinds

theorem Holds.modes_nodup (hs : s.Holds vars) : s.modes.Nodup := by
  have hlabels : s.modes = (s.modeValues.map (·.1)).map Datum.shown := by
    rw [modes, List.map_map]
    rfl
  rw [hlabels]
  refine List.Nodup.map_on ?_ hs.gathered.distinct
  intro a ha b hb hshown
  obtain ⟨x, rfl⟩ := Outline.eq_text (hs.gathered.labels a ha)
  obtain ⟨y, rfl⟩ := Outline.eq_text (hs.gathered.labels b hb)
  exact congrArg Datum.text hshown

end Read

/-! ## Palettes -/

/-- A variable for colors, with its values by mode. -/
def colorVariable (name : String) (values : List (String × Datum)) : Datum :=
  .record [("name", .text name), ("scopes", .list [.text "ALL_FILLS"]), ("valuesByMode", .record values)]

def aliasTo (id : String) : Datum := .record [("type", .text "VARIABLE_ALIAS"), ("id", .text id)]

/-- The token that such a variable becomes. -/
def colorToken (id name : String) (value : Datum) (modes : List (String × Datum))
    (target : Option Datum) : Token :=
  { name := name, semanticName := "color." ++ name, value := value, kind := "color"
    modes := modes.map fun row => (.text row.1, row.2)
    variableId := .text id, collection := none, description := none, aliasOf := target }

theorem isVariable_color (name : String) {values : List (String × Datum)}
    (h : ∀ row ∈ values, Token.isAlias row.2 = true → ∃ id, Token.aliasTarget row.2 = .text id) :
    Token.IsVariable (colorVariable name values) := by
  have hvalues : (((colorVariable name values).at? "valuesByMode").getD .null).orElse .empty =
      .record values := by
    cases values <;> rfl
  refine ⟨rfl, by rw [hvalues]; rfl, rfl, ?_⟩
  rw [Token.modesOf, hvalues]
  exact h

/-- A link takes its color from the base color in one mode, and has the same color in the other one. -/
def paletteVariables : Token.Variables :=
  [(.text "V:1", colorVariable "base" [("light", .text "white"), ("dark", .text "black")]),
   (.text "V:2", colorVariable "link" [("light", aliasTo "V:1"), ("dark", .text "white")])]

def paletteSet : TokenSet :=
  { tokens := [
      colorToken "V:1" "base" (.text "white") [("light", .text "white"), ("dark", .text "black")] none,
      colorToken "V:2" "link" (.text "white") [("light", .text "white"), ("dark", .text "white")]
        (some (.text "base"))]
    modeValues := [
      (.text "light", [("base", .text "white"), ("link", .text "white")]),
      (.text "dark", [("base", .text "black"), ("link", .text "white")])]
    edges := [⟨.text "link", .text "base", "alias"⟩]
    usage := [] }

theorem areVariables_palette : AreVariables paletteVariables := by
  refine List.forall_mem_cons.2 ⟨.inr (isVariable_color _ ?_),
    List.forall_mem_singleton.2 (.inr (isVariable_color _ ?_))⟩
  · simp [Token.isAlias]
  · simp [Token.isAlias, aliasTo, Token.aliasTarget, Datum.at?, List.lookup]

theorem areLabelled_palette : AreLabelled paletteVariables [] :=
  ⟨List.forall_mem_cons.2 ⟨rfl, List.forall_mem_singleton.2 rfl⟩, List.forall_mem_nil _⟩

theorem build_palette : (build paletteVariables (.ok []) (.ok []) Token.defaultMaxDepth).exec =
    (.ok paletteSet, []) := by
  cbv

theorem rules_palette : paletteSet.rules =
    [⟨.root, [("--base", "white"), ("--link", "white")]⟩, ⟨.theme "dark", [("--base", "black")]⟩] := by
  decide +kernel

/-! ## Reading the sheet -/

/-- The style sheet of a set that is built from a table of variables is read as it is meant, with every
token once in the root and every mode with other values once, exactly if the names of these modes can
stand between quotation marks and the texts among the values are contained. -/
theorem sheet_read_iff {vars : Token.Variables} {table : Table Datum Datum} {walks : List Walked}
    {maxDepth : Datum} {s : TokenSet} {ns : List Notice} (hv : AreVariables vars) (hl : AreLabelled vars table)
    (h : (build vars (.ok table) (.ok walks) maxDepth).exec = (.ok s, ns)) :
    (s.defaults.map (·.1)).Perm s.tokens ∧ s.themes.Nodup ∧
      ∃ text notices, (Token.sheet s.toDatum).exec = (.ok text, notices) ∧
        (Css.read text = s.rules ↔ (∀ mode ∈ s.themes, Css.IsQuotable mode) ∧
          ∀ c ∈ s.cells, ∀ text ∈ c.2.text?, Css.IsContained text) := by
  have hs := build_holds hv hl h
  refine ⟨hs.defaults_perm, hs.modes_nodup.filter _, _, _, sheet_after hs hl.ids [], ?_⟩
  rw [← map_rule_blocks, Css.read_printed_iff s.remarks s.blocks_haveProperties,
    blocks_contained_iff hs]

/-- The palette is read as it is meant. -/
theorem sheet_read_palette :
    (build paletteVariables (.ok []) (.ok []) Token.defaultMaxDepth).exec = (.ok paletteSet, []) ∧
      ∃ text notices, (Token.sheet paletteSet.toDatum).exec = (.ok text, notices) ∧
        Css.read text = [⟨.root, [("--base", "white"), ("--link", "white")]⟩,
          ⟨.theme "dark", [("--base", "black")]⟩] := by
  obtain ⟨-, -, text, notices, hsheet, hread⟩ :=
    sheet_read_iff areVariables_palette areLabelled_palette build_palette
  refine ⟨build_palette, text, notices, hsheet, ?_⟩
  rw [← rules_palette, hread]
  decide +kernel

/-- A variable with a mode whose id, which it goes by where no collection tells its name, ends with a
quotation mark. -/
def quotedVariables : Token.Variables :=
  [(.text "V:1", colorVariable "base" [("m", .text "x"), ("n\"", .text "y")])]

def quotedSet : TokenSet :=
  { tokens := [colorToken "V:1" "base" (.text "x") [("m", .text "x"), ("n\"", .text "y")] none]
    modeValues := [(.text "m", [("base", .text "x")]), (.text "n\"", [("base", .text "y")])]
    edges := []
    usage := [] }

/-- The quotation mark closes the name of the theme, and nothing is declared under it. -/
theorem sheet_misread : AreVariables quotedVariables ∧ AreLabelled quotedVariables [] ∧
    (build quotedVariables (.ok []) (.ok []) Token.defaultMaxDepth).exec = (.ok quotedSet, []) ∧
    quotedSet.rules = [⟨.root, [("--base", "x")]⟩, ⟨.theme "n\"", [("--base", "y")]⟩] ∧
    ∃ text, (Token.sheet quotedSet.toDatum).exec = (.ok text, []) ∧
      text = "/* Design tokens generated from Figma */\n/* Token count: 1 */\n\n:root \x7b\n" ++
        "  /* Color tokens */\n  --base: x;\n\x7d\n\n[data-theme=\"n\"\"] \x7b\n  --base: y;\n\x7d\n" ∧
      Css.read text = [⟨.root, [("--base", "x")]⟩] := by
  have hv : AreVariables quotedVariables :=
    List.forall_mem_singleton.2 (.inr (isVariable_color _ (by simp [Token.isAlias])))
  have hl : AreLabelled quotedVariables [] := ⟨List.forall_mem_singleton.2 rfl, List.forall_mem_nil _⟩
  have hbuild : (build quotedVariables (.ok []) (.ok []) Token.defaultMaxDepth).exec =
      (.ok quotedSet, []) := by
    cbv
  have hsheet : (Token.sheet quotedSet.toDatum).exec =
      (.ok (Css.printed quotedSet.remarks quotedSet.blocks), []) := by
    cbv
  refine ⟨hv, hl, hbuild, by decide +kernel, _, hsheet, ?_, ?_⟩
  · decide +kernel
  · decide +kernel

end TokenSet

end Maquette
