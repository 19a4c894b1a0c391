/-
The style sheet of a set of tokens. It is printed from blocks: one for the root with the default value
of every token, kind by kind, and one for each mode in which a token has another value. A value is
written as a declaration, or as a remark where it is an alias that no token stands behind.
-/
import Maquette.Proofs.Token.Held
import Maquette.Proofs.Token.NormalName
import Maquette.Token.Sheet

namespace Maquette

open Outline (IsText)

namespace TokenSet

open Token (IsHeld)

/-! ## Blocks -/

/-- The names of the tokens by the variables they come from. -/
def names (s : TokenSet) : Table Datum Datum :=
  Table.ofRows <| s.tokens.filterMap fun t =>
    if t.variableId.isTruthy then some (t.variableId, .text t.name) else none

def known (s : TokenSet) : List Datum := s.tokens.map (.text ·.name)

/-- A token and one of its values. -/
abbrev Cell := Token × Datum

/-- What a cell is written as, unless it is an alias that no token stands behind. -/
def css? (s : TokenSet) (c : Cell) : Option String :=
  (Token.cssValue (.text c.1.kind) c.2 (.ok s.names) s.known).toOption.join

/-- What is declared for a cell. -/
def declaration? (s : TokenSet) (c : Cell) : Option Css.Declaration :=
  (s.css? c).map (c.1.property, ·)

def line (s : TokenSet) (c : Cell) : Css.Line :=
  match s.css? c with
  | some css => .declaration c.1.property css
  | none => .remark (c.1.property ++ ": unresolved alias")

/-- The tokens of a kind with their default values. -/
def ofKind (s : TokenSet) (kind : String) : List Cell :=
  (s.tokens.filter (·.kind == kind)).map fun t => (t, t.value)

/-- All tokens with their default values, as the root block has them. -/
def defaults (s : TokenSet) : List Cell := Token.kinds.flatMap s.ofKind

/-- The modes that the tokens have. -/
def modes (s : TokenSet) : List String := s.modeValues.map (·.1.shown)

/-- The tokens that have another value in a mode than their default values, with that value. -/
def overrides (s : TokenSet) (mode : String) : List Cell :=
  s.tokens.filterMap fun t =>
    ((t.modes.lookup (.text mode)).filter (!·.equals t.value)).map (t, ·)

/-- The modes in which some token has another value. -/
def themes (s : TokenSet) : List String := s.modes.filter fun mode => !(s.overrides mode).isEmpty

/-- All that is written. -/
def cells (s : TokenSet) : List Cell := s.defaults ++ s.modes.flatMap s.overrides

def kindLines (s : TokenSet) (kind : String) : List Css.Line :=
  if (s.ofKind kind).isEmpty then []
  else .remark (Token.title kind ++ " tokens") :: (s.ofKind kind).map s.line

def rootBlock (s : TokenSet) : Css.Block := ⟨none, Token.kinds.flatMap s.kindLines⟩

def themeBlock (s : TokenSet) (mode : String) : Css.Block :=
  ⟨some mode, (s.overrides mode).map s.line⟩

def blocks (s : TokenSet) : List Css.Block := s.rootBlock :: s.themes.map s.themeBlock

/-- What the sheet is meant to be read as. -/
def rules (s : TokenSet) : List Css.Rule :=
  ⟨.root, s.defaults.filterMap s.declaration?⟩ ::
    s.themes.map fun mode => ⟨.theme mode, (s.overrides mode).filterMap s.declaration?⟩

def remarks (s : TokenSet) : List String :=
  ["Design tokens generated from Figma", "Token count: " ++ toString s.tokens.length]

/-- What is noted when a cell is written. -/
def noticesOf (s : TokenSet) (c : Cell) : List Notice :=
  if s.css? c = none then [.unresolvedToken (.text c.1.name)] else []

theorem declarations_line (s : TokenSet) (c : Cell) :
    (s.line c).declarations = (s.declaration? c).toList := by
  unfold line declaration?
  cases s.css? c <;> rfl

theorem line_hasProperty (s : TokenSet) (c : Cell) : (s.line c).HasProperty := by
  unfold line
  cases s.css? c with
  | none => trivial
  | some css => exact c.1.isProperty

theorem flatMap_declarations (s : TokenSet) (cells : List Cell) :
    (cells.map s.line).flatMap Css.Line.declarations = cells.filterMap s.declaration? := by
  rw [List.flatMap_map, List.filterMap_eq_flatMap_toList]
  exact List.flatMap_congr fun c _ => s.declarations_line c

theorem map_rule_blocks (s : TokenSet) : s.blocks.map Css.Block.rule = s.rules := by
  have hroot : s.rootBlock.rule = ⟨.root, s.defaults.filterMap s.declaration?⟩ := by
    rw [Css.Block.rule, rootBlock, defaults, List.flatMap_assoc, List.filterMap_flatMap]
    refine congrArg (Css.Rule.mk .root) (List.flatMap_congr fun kind _ => ?_)
    unfold kindLines
    split
    · rename_i hempty
      rw [List.isEmpty_iff.1 hempty]
      rfl
    · exact s.flatMap_declarations _
  rw [blocks, List.map_cons, hroot, rules, List.map_map]
  refine congrArg (_ :: ·) (List.map_congr_left fun mode _ => ?_)
  exact congrArg (Css.Rule.mk (.theme mode)) (s.flatMap_declarations _)

theorem blocks_haveProperties (s : TokenSet) : ∀ b ∈ s.blocks, ∀ line ∈ b.lines, line.HasProperty := by
  refine List.forall_mem_cons.2 ⟨?_, ?_⟩
  · intro line hline
    obtain ⟨kind, -, hline⟩ := List.mem_flatMap.1 hline
    unfold kindLines at hline
    split at hline
    · cases hline
    · rcases List.mem_cons.1 hline with rfl | hline
      · trivial
      · obtain ⟨c, -, rfl⟩ := List.mem_map.1 hline
        exact s.line_hasProperty c
  · intro b hb line hline
    obtain ⟨mode, -, rfl⟩ := List.mem_map.1 hb
    obtain ⟨c, -, rfl⟩ := List.mem_map.1 hline
    exact s.line_hasProperty c

/-! ## Values -/

theorem mem_names {s : TokenSet} {row : Datum × Datum} (h : row ∈ s.names) :
    ∃ t ∈ s.tokens, row.2 = .text t.name := by
  obtain ⟨entry, hentry, hrow⟩ := List.mem_map.1 (Table.mem_ofRows h)
  obtain ⟨t, ht, hentry⟩ := List.mem_filterMap.1 hentry
  split at hentry <;> cases hentry
  exact ⟨t, ht, hrow.symm⟩

/-- An alias is written as a reference to the property of the token that it points at, if there is one
with a name. -/
theorem aliasValue_eq (s : TokenSet) (id : String) :
    Token.aliasValue (.text id) (.ok s.names) s.known =
      .ok ((((s.names.lookup (.text id)).bind Datum.text?).filter (· ≠ "")).map Token.cssVar) := by
  rw [Token.aliasValue, Outcome.ok_bind, Datum.asKey_eq rfl, Outcome.ok_bind]
  cases hlook : s.names.lookup (.text id) with
  | none => rfl
  | some name =>
    obtain ⟨k, -, hmem⟩ := Table.mem_of_lookup hlook
    obtain ⟨t, ht, rfl⟩ := mem_names hmem
    have hknown : s.known.contains (.text t.name) = true := by
      rw [List.contains_iff_exists_mem_beq]
      exact ⟨_, List.mem_map_of_mem ht, Datum.same_text.2 rfl⟩
    by_cases hname : t.name = ""
    · rw [hname]
      rfl
    · have htruthy : (Datum.text t.name).isTruthy = true := by simpa [Datum.isTruthy] using hname
      simp [htruthy, Datum.asKey_eq (d := .text t.name) rfl, hknown, Datum.textMember, Datum.text?, hname]

/-- A number is written in pixels if its kind is measured in them. -/
theorem cssValue_number (s : TokenSet) (kind : String) {d : Datum} (h : d.isNumber = true) :
    Token.cssValue (.text kind) d (.ok s.names) s.known =
      some <$> if (Datum.text kind).isOneOf Token.numericKinds then d.pixels else d.plain := by
  have hkind : (Datum.text kind).asKey = .ok (.text kind) := rfl
  cases d <;> cases h
  all_goals
    simp only [Token.cssValue, Token.isAlias, Bool.false_eq_true, if_false, Datum.isNumber, if_true, hkind,
      Outcome.ok_bind]
    split <;> rfl

/-- A held value is written as something, or not at all if it is an alias. -/
theorem cssValue_ok (s : TokenSet) (kind : String) {value : Datum} (h : IsHeld value) :
    ∃ css, Token.cssValue (.text kind) value (.ok s.names) s.known = .ok css ∧
      (Token.isAlias value = false → css.isSome = true) := by
  have hnumber : ∀ d : Datum, d.isNumber = true → (∃ text, d.plain = .ok text) →
      ∃ css, Token.cssValue (.text kind) d (.ok s.names) s.known = .ok css ∧
        (Token.isAlias d = false → css.isSome = true) := by
    rintro d hd ⟨text, htext⟩
    have hpixels : ∃ text, d.pixels = .ok text := by
      rw [Datum.pixels, htext]
      split
      · exact ⟨_, rfl⟩
      · exact ⟨_, rfl⟩
    rw [s.cssValue_number kind hd]
    split
    · obtain ⟨pixels, hpixels⟩ := hpixels
      rw [hpixels]
      exact ⟨_, rfl, fun _ => rfl⟩
    · rw [htext]
      exact ⟨_, rfl, fun _ => rfl⟩
  cases h with
  | bool b => exact ⟨_, rfl, fun _ => rfl⟩
  | int n hn =>
    refine hnumber _ rfl ?_
    obtain ⟨x, hx⟩ := Option.isSome_iff_exists.1 hn
    exact ⟨toString n, by simp [Datum.plain, Datum.number, Datum.number?, Number.plain, Number.toFloat, hx]⟩
  | float x hx => exact hnumber _ rfl ⟨_, rfl⟩
  | text t => exact ⟨_, rfl, fun _ => rfl⟩
  | reference d id ha ht =>
    unfold Token.cssValue
    rw [if_pos ha, ht, aliasValue_eq]
    exact ⟨_, rfl, fun hne => absurd (ha.symm.trans hne) (by decide)⟩

/-- A cell is written as the code's own value for it. -/
theorem cssValue_eq (s : TokenSet) {c : Cell} (h : IsHeld c.2) :
    Token.cssValue (.text c.1.kind) c.2 (.ok s.names) s.known = .ok (s.css? c) := by
  obtain ⟨css, hcss, -⟩ := s.cssValue_ok c.1.kind h
  rw [css?, hcss]
  rfl

theorem css?_some (s : TokenSet) {c : Cell} (h : IsHeld c.2) (ha : Token.isAlias c.2 = false) :
    ∃ css, s.css? c = some css := by
  obtain ⟨css, hcss, hsome⟩ := s.cssValue_ok c.1.kind h
  rw [css?, hcss]
  exact Option.isSome_iff_exists.1 (hsome ha)

/-! ## Lines -/

theorem declaration_after (s : TokenSet) {c : Cell} (h : IsHeld c.2) (ns : List Notice) :
    (Token.declaration c.1.toDatum c.2 (.ok s.names) s.known).after ns =
      (.ok (s.line c).text, ns ++ s.noticesOf c) := by
  have hname : c.1.toDatum.need "name" = .ok (.text c.1.name) := rfl
  have hkind : c.1.toDatum.need "type" = .ok (.text c.1.kind) := rfl
  unfold Token.declaration
  rw [hname, Run.lift_ok, pure_bind, Datum.textOrEmpty_text, Run.lift_ok, pure_bind, hkind, Run.lift_ok,
    pure_bind, s.cssValue_eq h, Run.lift_ok, pure_bind, line, noticesOf]
  cases s.css? c with
  | none => rfl
  | some css => simp [Css.Line.text, Token.property]

/-- Lines that are written one after the other. -/
theorem declarations_after (s : TokenSet) {cells : List Cell} (h : ∀ c ∈ cells, IsHeld c.2)
    (ns : List Notice) :
    (cells.mapM fun c => Token.declaration c.1.toDatum c.2 (.ok s.names) s.known).after ns =
      (.ok (cells.map fun c => (s.line c).text), ns ++ cells.flatMap s.noticesOf) :=
  Run.after_mapM (fun c hc ns => s.declaration_after (h c hc) ns) ns

/-! ## Fields of tokens -/

theorem lookup_shown {t : Table Datum Datum} (h : ∀ row ∈ t, IsText row.1) (mode : String) :
    (t.map fun row => (row.1.shown, row.2)).lookup mode = t.lookup (.text mode) := by
  induction t with
  | nil => rfl
  | cons row t ih =>
    obtain ⟨hrow, ht⟩ := List.forall_mem_cons.1 h
    obtain ⟨label, hlabel⟩ := Outline.eq_text hrow
    have hsame : (Datum.text mode == Datum.text label) = (mode == label) := rfl
    rw [List.map_cons, List.lookup_cons, List.lookup_cons, hlabel, ih ht, hsame]
    rfl

theorem hasKey_eq {α : Type} (t : Table String α) (key : String) :
    t.hasKey key = (t.lookup key).isSome := by
  induction t with
  | nil => rfl
  | cons row t ih =>
    rw [List.lookup_cons, Table.hasKey, List.any_cons]
    rw [Table.hasKey] at ih
    by_cases h : row.1 = key
    · simp [h]
    · have hne : (key == row.1) = false := by simpa using Ne.symm h
      rw [hne, ih]
      simp [h]

theorem override?_eq {t : Token} (h : ∀ row ∈ t.modes, IsText row.1) (mode : String) :
    Token.override? t.toDatum mode =
      .ok ((t.modes.lookup (.text mode)).filter (!·.equals t.value)) := by
  have hmodes : (Datum.ofTable t.modes).orElse .empty = .ofTable t.modes := by
    unfold Datum.orElse
    split
    · rfl
    · rename_i hempty
      cases hm : t.modes with
      | nil => rfl
      | cons row rows => rw [hm] at hempty; exact absurd rfl hempty
  -- the document has the values under the labels of the modes as texts
  have hholds : (Datum.ofTable t.modes).holds (.text mode) =
      .ok (t.modes.lookup (.text mode)).isSome := by
    rw [← lookup_shown h, ← hasKey_eq]
    rfl
  have hget : t.toDatum.get "modes" = .ok (.ofTable t.modes) := rfl
  have hvalue : t.toDatum.get "value" = .ok t.value := rfl
  have hrecord : Datum.ofTable t.modes = .record (t.modes.map fun row => (row.1.shown, row.2)) := rfl
  have hneed : (Datum.ofTable t.modes).need mode =
      (t.modes.lookup (.text mode)).elim (.error (.noField mode)) .ok := by
    rw [← lookup_shown h, hrecord, Datum.need]
    cases List.lookup mode (t.modes.map fun row => (row.1.shown, row.2)) <;> rfl
  rw [Token.override?, hget, Outcome.ok_bind, hmodes]
  simp only [hholds, hneed, hvalue, Outcome.ok_bind]
  cases t.modes.lookup (.text mode) with
  | none => rfl
  | some value => cases hv : value.equals t.value <;> simp [hv, Option.filter_some]

/-- The tokens of a kind, as they are picked out of a document. -/
theorem ofKind_filterM (s : TokenSet) (kind : String) :
    (s.tokens.map Token.toDatum).filterM
        (fun t => liftM (do return (← t.get "type").isThe kind : Outcome Bool)) =
      (pure ((s.tokens.filter (·.kind == kind)).map Token.toDatum) : Run (List Datum)) := by
  rw [filterM_pure (g := fun t => ((t.at? "type").getD .null).isThe kind), List.filter_map]
  · rfl
  · intro d hd
    obtain ⟨t, -, rfl⟩ := List.mem_map.1 hd
    rfl

theorem overrides_filterMapM {s : TokenSet} (h : ∀ t ∈ s.tokens, ∀ row ∈ t.modes, IsText row.1)
    (mode : String) :
    (s.tokens.map Token.toDatum).filterMapM
        (fun t => liftM (do return (← Token.override? t mode).map (t, ·) :
          Outcome (Option (Datum × Datum)))) =
      (pure ((s.overrides mode).map fun c => (c.1.toDatum, c.2)) : Run (List (Datum × Datum))) := by
  rw [filterMapM_map (g := fun t =>
    ((t.modes.lookup (.text mode)).filter (!·.equals t.value)).map (t.toDatum, ·)), overrides,
    List.map_filterMap]
  · simp [Function.comp_def]
  · intro t ht
    rw [override?_eq (h t ht) mode]
    rfl

/-! ## The sheet -/

section Sheet

variable {vars : Token.Variables} {s : TokenSet}

theorem Holds.ofKind_held (hs : s.Holds vars) {kind : String} : ∀ c ∈ s.ofKind kind, IsHeld c.2 := by
  intro c hc
  obtain ⟨t, ht, rfl⟩ := List.mem_map.1 hc
  exact hs.gathered.value_held (List.mem_filter.1 ht).1

theorem Holds.overrides_held (hs : s.Holds vars) {mode : String} :
    ∀ c ∈ s.overrides mode, IsHeld c.2 := by
  intro c hc
  obtain ⟨t, ht, hvalue⟩ := List.mem_filterMap.1 hc
  obtain ⟨value, hlook, rfl⟩ := Option.map_eq_some_iff.1 hvalue
  obtain ⟨k, -, hmem⟩ := Table.mem_of_lookup (Option.filter_eq_some_iff.1 hlook).1
  exact (hs.gathered.modes t ht _ hmem).2

theorem kindLines_after (hs : s.Holds vars) (kind : String) (ns : List Notice) :
    (Token.kindLines (s.tokens.map Token.toDatum) (.ok s.names) s.known kind).after ns =
      (.ok ((s.kindLines kind).map Css.Line.text), ns ++ (s.ofKind kind).flatMap s.noticesOf) := by
  have hlines := s.declarations_after (fun c (hc : c ∈ s.ofKind kind) => hs.ofKind_held c hc) ns
  rw [ofKind, List.mapM_map] at hlines
  rw [Token.kindLines, s.ofKind_filterM, pure_bind, kindLines, ofKind, List.isEmpty_map,
    List.isEmpty_map]
  split
  · rename_i hempty
    rw [List.isEmpty_iff.1 hempty]
    simp
  · -- the default value of a token is what is read back from its document
    have hread : ((fun t => (do Token.declaration t (← t.get "value") (.ok s.names) s.known :
        Run String)) ∘ Token.toDatum) =
        (fun c : Cell => Token.declaration c.1.toDatum c.2 (.ok s.names) s.known) ∘
          fun t => (t, t.value) := rfl
    rw [List.mapM_map, hread, Run.after_bind, hlines]
    simp [Css.Line.text]

theorem modeLines_after (hs : s.Holds vars) (mode : String) (ns : List Notice) :
    (Token.modeLines (s.tokens.map Token.toDatum) (.ok s.names) s.known mode).after ns =
      (.ok (if (s.overrides mode).isEmpty then [] else (s.themeBlock mode).text),
        ns ++ (s.overrides mode).flatMap s.noticesOf) := by
  have hlabels : ∀ t ∈ s.tokens, ∀ row ∈ t.modes, IsText row.1 := fun t ht row hrow =>
    hs.gathered.labels _ (hs.gathered.modes t ht row hrow).1
  have hlines :=
    s.declarations_after (fun c (hc : c ∈ s.overrides mode) => hs.overrides_held c hc) ns
  rw [Token.modeLines, overrides_filterMapM hlabels, pure_bind, List.isEmpty_map]
  split
  · rename_i hempty
    rw [List.isEmpty_iff.1 hempty]
    simp
  · have hread : ((fun x : Datum × Datum => Token.declaration x.1 x.2 (.ok s.names) s.known) ∘
        fun c : Cell => (c.1.toDatum, c.2)) =
        fun c : Cell => Token.declaration c.1.toDatum c.2 (.ok s.names) s.known := rfl
    have hheading : ("[data-theme=\"" ++ mode ++ "\"]") ++ " \x7b" =
        "[data-theme=\"" ++ mode ++ "\"] \x7b" :=
      String.append_assoc
    rw [List.mapM_map, hread, Run.after_bind, hlines]
    simp [themeBlock, Css.Block.text, Css.Block.heading, hheading]

/-- The names by the ids, as they are picked out of a document. -/
theorem namesById_eq (hids : ∀ t ∈ s.tokens, IsText t.variableId) :
    Token.namesById (s.tokens.map Token.toDatum) = .ok s.names := by
  rw [Token.namesById, names, filterMapM_map (g := fun t =>
    if t.variableId.isTruthy then some (t.variableId, .text t.name) else none)]
  · rfl
  · intro t ht
    obtain ⟨id, hid⟩ := Outline.eq_text (hids t ht)
    have hget : t.toDatum.get "sourceVariableId" = .ok (.text id) := by rw [← hid]; rfl
    have hname : t.toDatum.need "name" = .ok (.text t.name) := rfl
    rw [hget, Outcome.ok_bind, hname, hid]
    cases (Datum.text id).isTruthy <;> simp [Datum.asKey_eq (d := .text id) rfl]

theorem tokensOf_eq (s : TokenSet) : Token.tokensOf s.toDatum = .ok (s.tokens.map Token.toDatum) := by
  have hget : (s.toDatum.orElse .empty).get "tokens" = .ok (.list (s.tokens.map Token.toDatum)) := rfl
  rw [Token.tokensOf, hget, Outcome.ok_bind]
  cases s.tokens <;> rfl

theorem modeValues_fields (s : TokenSet) :
    ((Datum.ofTable (s.modeValues.map fun (mode, row) => (mode, .record row))).orElse .empty).fields =
      .ok (s.modeValues.map fun row => (row.1.shown, .record row.2)) := by
  rw [Datum.ofTable, List.map_map]
  cases s.modeValues <;> rfl

/-- A line is left out where there is nothing to be written. -/
theorem flatMap_themes (s : TokenSet) :
    s.modes.flatMap (fun mode => if (s.overrides mode).isEmpty then [] else (s.themeBlock mode).text) =
      (s.themes.map s.themeBlock).flatMap Css.Block.text := by
  unfold themes
  induction s.modes with
  | nil => rfl
  | cons mode modes ih =>
    rw [List.flatMap_cons, ih, List.filter_cons]
    cases hempty : (s.overrides mode).isEmpty <;> simp

/-- The style sheet of what was built is printed from its blocks. -/
theorem sheet_after (hs : s.Holds vars) (hids : ∀ row ∈ vars, IsText row.1) (ns : List Notice) :
    (Token.sheet s.toDatum).after ns =
      (.ok (Css.printed s.remarks s.blocks), ns ++ s.cells.flatMap s.noticesOf) := by
  -- what the lines are written with: the tokens, their names and their modes
  have hknown : (s.tokens.map Token.toDatum).mapM
      (fun t => liftM (do (← t.need "name").asKey : Outcome Datum)) = (pure s.known : Run _) := by
    rw [List.mapM_map, known]
    exact List.mapM_pure
  have hget : (s.toDatum.orElse .empty).get "modeValues" =
      .ok (Datum.ofTable (s.modeValues.map fun (mode, row) => (mode, .record row))) := rfl
  have hkinds := Run.after_mapM (fun kind (_ : kind ∈ Token.kinds) ns => kindLines_after hs kind ns)
  have hmodes := Run.after_mapM (fun mode (_ : mode ∈ s.modes) ns => modeLines_after hs mode ns)
  have hread : ((fun x : String × Datum => Token.modeLines (s.tokens.map Token.toDatum)
      (.ok s.names) s.known x.1) ∘ fun row : Datum × Table String Datum =>
        (row.1.shown, Datum.record row.2)) =
      Token.modeLines (s.tokens.map Token.toDatum) (.ok s.names) s.known ∘ (·.1.shown) := rfl
  rw [Token.sheet, tokensOf_eq, Run.lift_ok, pure_bind, namesById_eq (hs.variableId_text hids), Run.lift_ok, pure_bind,
    hknown, pure_bind, Run.after_bind, hkinds]
  simp only [hget, Run.lift_ok, pure_bind, modeValues_fields]
  rw [List.mapM_map, hread, ← List.mapM_map, ← modes, Run.after_bind, hmodes]
  simp only [Run.after_pure]
  -- the notices come in the order of the lines
  have hnotices : ns ++ Token.kinds.flatMap (fun kind => (s.ofKind kind).flatMap s.noticesOf) ++
      s.modes.flatMap (fun mode => (s.overrides mode).flatMap s.noticesOf) =
      ns ++ s.cells.flatMap s.noticesOf := by
    rw [cells, defaults, List.flatMap_append, List.flatMap_assoc, List.flatMap_assoc,
      List.append_assoc]
  have hroot : (Token.kinds.map fun kind => (s.kindLines kind).map Css.Line.text).flatten =
      s.rootBlock.lines.map Css.Line.text := by
    rw [rootBlock, List.map_flatMap, List.flatMap_def]
  have hheading : s.rootBlock.heading ++ " \x7b" = ":root \x7b" :=
    (by decide : (":root" : String) ++ " \x7b" = ":root \x7b")
  rw [hnotices, hroot, ← List.flatMap_def, flatMap_themes, Css.printed, blocks, List.flatMap_cons,
    Css.Block.text, hheading, List.length_map]
  simp [remarks]

end Sheet

end TokenSet

end Maquette
