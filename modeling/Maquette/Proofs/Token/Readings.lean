/-
Two readings of a table of variables. A set of tokens has the values of each variable under the names
of its modes, and looks the default value up among them by the name of the default mode; what is
matched with the tokens of a project is the variable's value in its default mode itself. Where the
names of modes tell them apart, both are made of the same value.

Reading a mode adds one value to those of the variable, and one to those of all variables in this
mode. Two modes of a variable that go by the same name are the same mode, so a later one changes
nothing of an earlier one; what a variable adds to the values of all stays until a variable of the
same name replaces it.
-/
import Maquette.Proofs.Token.Readable

namespace Maquette

open Outline (IsText)

namespace TokenSet

open Token

/-! ## Values by mode and name -/

/-- The value that is listed for a name in a mode. -/
def cell (values : Table Datum (Table String Datum)) (label name : String) : Option Datum :=
  (values.lookup (.text label)).bind (·.lookup name)

theorem cell_set (values : Table Datum (Table String Datum)) (l n label name : String) (v : Datum) :
    cell (values.set (.text l) (((values.lookup (.text l)).getD []).set n v)) label name =
      if label = l ∧ name = n then some v else cell values label name := by
  unfold cell
  rw [Table.lookup_set]
  by_cases hl : label = l
  · subst hl
    by_cases hn : name = n
    · subst hn
      simp [Table.lookup_set_self]
    · simp only [if_true, Option.bind_some, Table.lookup_set_ne hn, hn, and_false, if_false]
      cases values.lookup (.text label) <;> rfl
  · simp [hl]

/-! ## Reading one mode -/

section Reading

variable {vars : Variables} {table : Table Datum Datum} {depth : Nat}

theorem valuesOf_eq {var : Datum} (h : IsVariable var) : valuesOf var = .ok (modesOf var) := by
  obtain ⟨hget, hrecord⟩ := values_eq h
  rw [valuesOf, hget, Outcome.ok_bind, hrecord]
  rfl

/-- The value in a mode points at a text if it is an alias; the null that stands for a missing mode is
none. -/
theorem value_target {var : Datum} (h : IsVariable var) (mode : Option String) :
    let raw := (mode.bind ((modesOf var).lookup ·)).getD .null
    isAlias raw = true → ∃ target, aliasTarget raw = .text target := by
  cases hl : mode.bind ((modesOf var).lookup ·) with
  | none => exact nofun
  | some raw =>
    obtain ⟨m, -, hraw⟩ := Option.bind_eq_some_iff.1 hl
    obtain ⟨key, -, hmem⟩ := Table.mem_of_lookup hraw
    exact h.targets _ hmem

theorem aliasName_ok (ctx : Context) {raw : Datum}
    (h : isAlias raw = true → ∃ target, aliasTarget raw = .text target) :
    ∃ target, aliasName ctx raw = .ok target := by
  unfold aliasName
  split
  · rename_i ha
    obtain ⟨target, ht⟩ := h ha
    exact ⟨_, by rw [ht]; rfl⟩
  · exact ⟨_, rfl⟩

/-- The tables that all variables are read with. -/
def contextOf (vars : Variables) (table : Table Datum Datum) (depth : Nat) : Context :=
  ⟨vars, .ok table, .int depth, namesOf vars⟩

/-- Reading a mode adds its value under what the mode goes by, and changes nothing else. -/
theorem readMode_gives {id x held raw : Datum} {name label mode : String} {names : Table Datum Datum}
    (default : Datum)
    (hx : (resolve vars (.ok table) (.int depth) id (.text mode)).Gives (fun r => r.value = x))
    (hheld : tokenValue x = .ok held) (hlabel : modeName names (.text mode) = .ok (.text label))
    (hraw : isAlias raw = true → ∃ target, aliasTarget raw = .text target)
    (g : Gathered) (modes : Modes) :
    (readMode (contextOf vars table depth) ⟨id, .text name, names, default⟩ (g, modes) mode raw).Gives
      fun state => state.1.tokens = g.tokens ∧
        state.1.modeValues = g.modeValues.set (.text label)
          (((g.modeValues.lookup (.text label)).getD []).set name held) ∧
        state.2.values = modes.values.set (.text label) held := by
  obtain ⟨target, htarget⟩ := aliasName_ok (contextOf vars table depth) hraw
  refine Run.Gives.bind hx fun r hr => ?_
  refine Run.gives_lift_bind (by rw [hr]; exact hheld) ?_
  refine Run.gives_lift_bind hlabel ?_
  refine Run.gives_lift_bind (a := .text name) rfl ?_
  refine Run.gives_lift_bind htarget ?_
  cases target with
  | none => exact Run.gives_pure ⟨rfl, rfl, rfl⟩
  | some target => exact Run.gives_pure ⟨rfl, rfl, rfl⟩

/-! ## Reading all modes of a variable -/

/-- What reading some modes of a variable leaves: each mode has its value among those of the variable
and among those of all variables, and nothing else has changed. -/
structure ModesRead (vars : Variables) (collection : Datum) (name : String) (held : String → Datum)
    (g : Gathered) (modes : List String) (state : Gathered × Modes) : Prop where
  tokens : state.1.tokens = g.tokens
  own : ∀ mode ∈ modes, state.2.values.lookup (.text (labelOf collection mode)) = some (held mode)
  listed : ∀ mode ∈ modes,
    cell state.1.modeValues (labelOf collection mode) name = some (held mode)
  others : ∀ label n, (n = name → ∀ mode ∈ modes, labelOf collection mode ≠ label) →
    cell state.1.modeValues label n = cell g.modeValues label n
  values : ∀ entry ∈ state.2.values, IsHeldIn vars entry.2

theorem ModesRead.step {collection : Datum} {name mode : String} {held : String → Datum}
    {g : Gathered} {modes : List String} {state state' : Gathered × Modes}
    (h : ModesRead vars collection name held g modes state)
    (hinj : ∀ m ∈ modes, labelOf collection m = labelOf collection mode → m = mode)
    (hheld : IsHeldIn vars (held mode)) (htokens : state'.1.tokens = state.1.tokens)
    (hlisted : state'.1.modeValues = state.1.modeValues.set (.text (labelOf collection mode))
      (((state.1.modeValues.lookup (.text (labelOf collection mode))).getD []).set name (held mode)))
    (hown : state'.2.values = state.2.values.set (.text (labelOf collection mode)) (held mode)) :
    ModesRead vars collection name held g (modes ++ [mode]) state' where
  tokens := htokens.trans h.tokens
  own := by
    intro m hm
    rw [hown, Table.lookup_set]
    split
    · rename_i hlabel
      rcases List.mem_append.1 hm with hm | hm
      · rw [hinj m hm hlabel]
      · rw [List.mem_singleton.1 hm]
    · rename_i hlabel
      rcases List.mem_append.1 hm with hm | hm
      · exact h.own m hm
      · exact absurd (congrArg _ (List.mem_singleton.1 hm)) hlabel
  listed := by
    intro m hm
    rw [hlisted, cell_set]
    split
    · rename_i hlabel
      rcases List.mem_append.1 hm with hm | hm
      · rw [hinj m hm hlabel.1]
      · rw [List.mem_singleton.1 hm]
    · rename_i hlabel
      rcases List.mem_append.1 hm with hm | hm
      · exact h.listed m hm
      · exact absurd ⟨congrArg _ (List.mem_singleton.1 hm), rfl⟩ hlabel
  others := by
    intro label n hn
    have hne : ¬ (label = labelOf collection mode ∧ n = name) := fun heq =>
      hn heq.2 mode (by simp) heq.1.symm
    rw [hlisted, cell_set, if_neg hne]
    exact h.others label n fun heq m hm => hn heq m (List.mem_append_left _ hm)
  values := by
    intro entry hentry
    rw [hown] at hentry
    rcases Table.mem_set hentry with hentry | hentry
    · exact h.values entry hentry
    · rw [hentry]
      exact hheld

theorem readModes_gives {id var : Datum} (hvar : IsVariable var) {name : String}
    {x held : String → Datum} {names : Table Datum Datum} (default : Datum)
    (hx : ∀ mode, (resolve vars (.ok table) (.int depth) id (.text mode)).Gives
      (fun r => r.value = x mode))
    (hheld : ∀ mode, tokenValue (x mode) = .ok (held mode)) (hin : ∀ mode, IsHeldIn vars (held mode))
    (hlabel : ∀ mode, modeName names (.text mode) =
      .ok (.text (labelOf (collectionIn table var) mode)))
    (hapart : TellsApart (collectionIn table var) (modeIds var)) (g : Gathered) :
    ((modesOf var).foldlM (fun state row =>
      readMode (contextOf vars table depth) ⟨id, .text name, names, default⟩ state row.1 row.2)
      (g, ⟨[], .null⟩)).Gives
      (ModesRead vars (collectionIn table var) name held g (modeIds var)) := by
  refine (Run.gives_foldlM (P := fun before state => before ⊆ modesOf var ∧
      ModesRead vars (collectionIn table var) name held g (before.map Prod.fst) state)
    (fun before row hrow state h => ?_) ⟨List.nil_subset _, ?_⟩).mono fun state h => h.2
  · obtain ⟨hbefore, h⟩ := h
    refine (readMode_gives default (hx row.1) (hheld row.1) (hlabel row.1) (hvar.targets row hrow)
      state.1 state.2).mono fun state' h' => ⟨?_, ?_⟩
    · exact List.append_subset.2 ⟨hbefore, by simpa using hrow⟩
    · rw [List.map_append, List.map_singleton]
      refine h.step (fun m hm heq => ?_) (hin row.1) h'.1 h'.2.1 h'.2.2
      exact hapart.label_inj (List.map_subset _ hbefore hm) (List.mem_map_of_mem hrow) heq
  · exact ⟨rfl, by simp, by simp, fun _ _ _ => rfl, by simp⟩

/-! ## Reading a variable -/

theorem byScopes_ok {scopes : List Datum} (h : ∀ scope ∈ scopes, scope.isKey = true) :
    ∃ kind, byScopes scopes = .ok kind := by
  induction scopes with
  | nil => exact ⟨none, rfl⟩
  | cons scope scopes ih =>
    obtain ⟨hscope, hrest⟩ := List.forall_mem_cons.1 h
    rw [byScopes, Datum.asKey_eq hscope, Outcome.ok_bind]
    split
    · split
      · exact ⟨_, rfl⟩
      · exact ih hrest
    · exact ih hrest

theorem kindOf_ok {scopes : Datum} {items : List Datum}
    (hitems : scopes.orElse (.list []) = .list items) (hkeys : ∀ scope ∈ items, scope.isKey = true)
    (name : String) (value type : Datum) : ∃ kind, kindOf (.text name) scopes value type = .ok kind := by
  obtain ⟨found, hfound⟩ := byScopes_ok hkeys
  rw [kindOf, hitems]
  simp only [Datum.items, Outcome.ok_bind, hfound, Datum.textOrEmpty_text]
  cases found with
  | some kind => exact ⟨_, rfl⟩
  | none =>
    simp only
    split
    · exact ⟨_, rfl⟩
    · split <;> exact ⟨_, rfl⟩

/-- What a token says of its variable. -/
structure IsReading (vars : Variables) (table : Table Datum Datum) (depth : Nat) (row : Datum × Datum)
    (token : Token) : Prop where
  variableId : token.variableId = row.1
  name : nameOf row.1 row.2 = .text token.name
  value : ∀ mode x, defaultMode? table row.2 = some mode →
    resolved? vars table depth row.1 mode = some x → tokenValue x = .ok token.value
  modes : ∀ mode ∈ modeIds row.2, ∀ x, resolved? vars table depth row.1 mode = some x →
    ∃ held, tokenValue x = .ok held ∧
      token.modes.lookup (.text (labelOf (collectionIn table row.2) mode)) = some held
  held : IsHeldIn vars token.value

/-- What reading a variable adds: a token, and its values to those of all variables. -/
structure VariableRead (vars : Variables) (table : Table Datum Datum) (depth : Nat)
    (row : Datum × Datum) (g g' : Gathered) (token : Token) : Prop where
  tokens : g'.tokens = g.tokens ++ [token]
  reading : IsReading vars table depth row token
  listed : ∀ mode ∈ modeIds row.2,
    cell g'.modeValues (labelOf (collectionIn table row.2) mode) token.name =
      token.modes.lookup (.text (labelOf (collectionIn table row.2) mode))
  others : ∀ label n,
    (n = token.name → ∀ mode ∈ modeIds row.2, labelOf (collectionIn table row.2) mode ≠ label) →
    cell g'.modeValues label n = cell g.modeValues label n

/-- The label of the default mode can be told. -/
theorem modeName_default {names : Table Datum Datum} {label : String → String}
    (htexts : ∀ row ∈ names, row.2 = .null ∨ IsText row.2)
    (hlabel : ∀ mode, modeName names (.text mode) = .ok (.text (label mode))) (mode : Option String) :
    ∃ d, modeName names (modeDatum mode) = .ok d ∧ ∀ m, mode = some m → d = .text (label m) := by
  cases mode with
  | some m => exact ⟨_, hlabel m, fun m' h => by rw [Option.some.inj h]⟩
  | none =>
    have hfound : (names.lookup .null).getD .null = .null ∨
        IsText ((names.lookup .null).getD .null) :=
      Table.lookup_getD (P := fun d => d = .null ∨ IsText d) htexts (.inl rfl)
    refine ⟨((names.lookup .null).getD .null).orElse .null, ?_, by simp⟩
    exact Datum.asKey_eq (Datum.orElse_of (P := fun d => d.isKey = true)
      (hfound.imp_right Outline.IsText.isKey) rfl)

theorem readVariable_gives (hr : AreReadable vars table) {row : Datum × Datum} (hrow : row ∈ vars)
    (hapart : TellsApart (collectionIn table row.2) (modeIds row.2)) (g : Gathered) :
    (readVariable (contextOf vars table depth) g row.1 row.2).Gives fun g' =>
      ∃ token, VariableRead vars table depth row g g' token := by
  obtain ⟨id, var⟩ := row
  have hvar := hr.entries _ hrow
  obtain ⟨name, hname⟩ := Outline.eq_text (hr.names _ hrow)
  obtain ⟨hcrecord, hctitled, -⟩ := hr.collectionIn_spec var
  obtain ⟨names, hnames, htexts⟩ := modeNames_ok hcrecord hctitled
  have hlabel := modeName_label hnames htexts
  obtain ⟨hdefault, hnone, hsome⟩ := hr.modeFor_default hrow
  obtain ⟨label, hdlabel, hlabelled⟩ := modeName_default htexts hlabel (defaultMode? table var)
  obtain ⟨scopes, hscopes, hkeys⟩ := hr.scopes _ hrow
  choose x held hx hheld hin hgives using fun mode => hr.resolves hrow mode depth
  have hfound : ((namesOf vars).lookup id).getD .null = .text name := by
    rw [(lookup_namesOf hr.toAreNamed).2 ⟨var, hrow, rfl⟩]
    exact hname
  obtain ⟨target, htarget⟩ := aliasName_ok (contextOf vars table depth)
    (value_target hvar (defaultMode? table var))
  refine Run.gives_lift_bind (Datum.fieldOr_eq hvar.isRecord _ _) ?_
  refine Run.gives_lift_bind (collectionOf_eq hvar) ?_
  refine Run.gives_lift_bind hnames ?_
  refine Run.gives_lift_bind (Datum.fieldOr_eq hcrecord _ _) ?_
  refine Run.gives_lift_bind hdefault ?_
  refine Run.gives_lift_bind (valuesOf_eq hvar) ?_
  rw [show ((contextOf vars table depth).names.lookup id).getD .null = .text name from hfound]
  refine Run.Gives.bind (readModes_gives hvar _ hgives hheld hin hlabel hapart g) fun state h => ?_
  obtain ⟨kind, hkind⟩ := kindOf_ok hscopes hkeys name state.2.rawDefault
    ((var.at? "resolvedType").getD (.text ""))
  refine Run.gives_lift_bind (Datum.get_eq hvar.isRecord _) ?_
  refine Run.gives_lift_bind hkind ?_
  refine Run.gives_lift_bind hdlabel ?_
  refine Run.gives_lift_bind (a := name) rfl ?_
  refine Run.gives_lift_bind (Datum.get_eq hcrecord _) ?_
  refine Run.gives_lift_bind (Datum.get_eq hvar.isRecord _) ?_
  refine Run.gives_lift_bind (valueIn_eq hvar _) ?_
  refine Run.gives_lift_bind htarget ?_
  have hvalue : ∀ mode x', resolved? vars table depth id mode = some x' →
      tokenValue x' = .ok (held mode) := by
    intro mode x' hx'
    obtain rfl := Option.some.inj (hx'.symm.trans (hx mode))
    exact hheld mode
  refine Run.gives_pure ⟨_, congrArg (· ++ [_]) h.tokens, ⟨rfl, hname, ?_, ?_, ?_⟩, ?_, h.others⟩
  case refine_1 =>
    intro mode x' hmode hx'
    obtain ⟨mode', hmem, hmode'⟩ := hsome (by
      rintro hnil
      rw [hnone hnil] at hmode
      cases hmode)
    obtain rfl : mode = mode' := Option.some.inj (hmode.symm.trans hmode')
    simp only [hlabelled mode hmode, h.own mode hmem, Option.getD_some]
    exact hvalue mode x' hx'
  case refine_2 =>
    exact fun mode hmode x' hx' => ⟨held mode, hvalue mode x' hx', h.own mode hmode⟩
  case refine_3 => exact Table.lookup_getD h.values (.inl rfl)
  case refine_4 => exact fun mode hmode => (h.listed mode hmode).trans (h.own mode hmode).symm

/-! ## Reading all variables -/

/-- The values of some variables by mode and name: under each, that of the last variable of this name
that has a mode of this name. -/
def AreListed (vars : Variables) (table : Table Datum Datum) (depth : Nat)
    (rows : List (Datum × Datum)) (values : Table Datum (Table String Datum)) : Prop :=
  ∀ earlier row later, rows = earlier ++ row :: later → ∀ mode ∈ modeIds row.2,
    (∀ other ∈ later, nameOf other.1 other.2 = nameOf row.1 row.2 → ∀ m ∈ modeIds other.2,
      labelOf (collectionIn table other.2) m ≠ labelOf (collectionIn table row.2) mode) →
    ∃ x held name, resolved? vars table depth row.1 mode = some x ∧ tokenValue x = .ok held ∧
      nameOf row.1 row.2 = .text name ∧
      cell values (labelOf (collectionIn table row.2) mode) name = some held

/-- The values of one more variable take the place of those of its name. -/
theorem AreListed.step (hr : AreReadable vars table) {rows : List (Datum × Datum)}
    {row : Datum × Datum} (hrow : row ∈ vars) {g g' : Gathered} {token : Token}
    (h : AreListed vars table depth rows g.modeValues)
    (hread : VariableRead vars table depth row g g' token) :
    AreListed vars table depth (rows ++ [row]) g'.modeValues := by
  intro earlier r later hsplit mode hmode hlast
  rcases split_snoc hsplit with ⟨rfl, rfl, rfl⟩ | ⟨later, rfl, rfl⟩
  · obtain ⟨x, -, hx, -⟩ := hr.resolves hrow mode depth
    obtain ⟨held, hheld, hown⟩ := hread.reading.modes mode hmode x hx
    exact ⟨x, held, token.name, hx, hheld, hread.reading.name, (hread.listed mode hmode).trans hown⟩
  · obtain ⟨x, held, name, hx, hheld, hname, hcell⟩ := h earlier r later rfl mode hmode
      fun other hother => hlast other (List.mem_append_left _ hother)
    refine ⟨x, held, name, hx, hheld, hname, (hread.others _ name fun heq => ?_).trans hcell⟩
    exact hlast row (by simp) (by rw [hread.reading.name, hname, heq])

theorem readVariables_gives (hr : AreReadable vars table)
    (hapart : ∀ row ∈ vars, TellsApart (collectionIn table row.2) (modeIds row.2)) (depth : Nat) :
    (vars.foldlM (fun g row => readVariable (contextOf vars table depth) g row.1 row.2)
      (⟨[], [], []⟩ : Gathered)).Gives fun g =>
        List.Forall₂ (IsReading vars table depth) vars g.tokens ∧
        AreListed vars table depth vars g.modeValues := by
  refine Run.gives_foldlM (P := fun before (g : Gathered) =>
    List.Forall₂ (IsReading vars table depth) before g.tokens ∧
      AreListed vars table depth before g.modeValues) (fun before row hrow g h => ?_) ⟨.nil, ?_⟩
  · refine (readVariable_gives hr hrow (hapart row hrow) g).mono fun g' hread => ?_
    obtain ⟨token, hread⟩ := hread
    refine ⟨?_, h.2.step hr hrow hread⟩
    rw [hread.tokens]
    exact List.rel_append h.1 (.cons hread.reading .nil)
  · intro earlier row later hsplit
    simp at hsplit

end Reading

end TokenSet

/-! ## Variables to be matched -/

namespace Token

section Matching

variable {vars : Variables} {table : Table Datum Datum} {depth : Nat}

/-- The type of a variable as it is matched. -/
def typeOf (var : Datum) : String := Text.lower ((var.at? "resolvedType").getD (.text "")).shown

/-- A variable as it is matched, of the given value. -/
def entryOf (row : Datum × Datum) (value : String) : Datum :=
  .record [("id", row.1), ("name", nameOf row.1 row.2), ("value", .text value),
    ("type", .text (typeOf row.2))]

/-- What an entry says of its variable; one without modes has none. -/
structure IsEntry (vars : Variables) (table : Table Datum Datum) (depth : Nat) (row : Datum × Datum)
    (found : Option Datum) : Prop where
  unread : modesOf row.2 = [] → found = none
  value : ∀ mode x, defaultMode? table row.2 = some mode →
    resolved? vars table depth row.1 mode = some x →
    ∃ s, comparable x (typeOf row.2) = .ok s ∧ found = some (entryOf row s)

theorem matchable?_gives (hr : AreReadable vars table) {row : Datum × Datum} (hrow : row ∈ vars) :
    (matchable? vars (.ok table) (.int depth) row.1 row.2).Gives (IsEntry vars table depth row) := by
  have hvar := hr.entries _ hrow
  obtain ⟨hcrecord, -, -⟩ := hr.collectionIn_spec row.2
  obtain ⟨hdefault, hnone, -⟩ := hr.modeFor_default hrow
  refine Run.gives_lift_bind (collectionOf_eq hvar) ?_
  refine Run.gives_lift_bind (Datum.fieldOr_eq hcrecord _ _) ?_
  refine Run.gives_lift_bind hdefault ?_
  cases hmode : defaultMode? table row.2 with
  | none =>
    refine Run.gives_pure ⟨fun _ => rfl, fun mode x h => ?_⟩
    rw [hmode] at h
    cases h
  | some mode =>
    obtain ⟨x, held, hx, hheld, -, hgives⟩ := hr.resolves hrow mode depth
    obtain ⟨s, hs⟩ := comparable_ok hheld (typeOf row.2)
    refine Run.Gives.bind hgives fun r hr => ?_
    refine Run.gives_lift_bind (Datum.fieldOr_eq hvar.isRecord _ _) ?_
    refine Run.gives_lift_bind (by rw [hr]; exact hs) ?_
    refine Run.gives_lift_bind (Datum.get_eq hvar.isRecord _) ?_
    refine Run.gives_pure ⟨fun hnil => ?_, fun mode' x' hmode' hx' => ⟨s, ?_, rfl⟩⟩
    · rw [hnone hnil] at hmode
      cases hmode
    · obtain rfl := Option.some.inj (hmode'.symm.trans hmode)
      obtain rfl := Option.some.inj (hx'.symm.trans hx)
      exact hs

theorem matchable_gives (hr : AreReadable vars table) (depth : Nat) :
    (matchable vars (.ok table) (.int depth)).Gives fun entries => ∃ found : List (Option Datum),
      entries = found.filterMap id ∧ List.Forall₂ (IsEntry vars table depth) vars found :=
  (Run.gives_mapM fun _ hrow => matchable?_gives hr hrow).bind fun found h =>
    Run.gives_pure ⟨found, rfl, h⟩

/-! ## Both readings -/

/-- The token and the entry of a variable agree: they are made of the same value, that of its default
mode, and each mode has its value in the token. A variable without modes has no entry. -/
structure Agree (vars : Variables) (table : Table Datum Datum) (depth : Nat) (row : Datum × Datum)
    (token : Token) (found : Option Datum) : Prop where
  variableId : token.variableId = row.1
  name : nameOf row.1 row.2 = .text token.name
  default : modesOf row.2 ≠ [] → ∃ mode ∈ modeIds row.2, ∃ x s,
    defaultMode? table row.2 = some mode ∧ resolved? vars table depth row.1 mode = some x ∧
    tokenValue x = .ok token.value ∧
    comparable x (typeOf row.2) = .ok s ∧ found = some (entryOf row s)
  unread : modesOf row.2 = [] → found = none
  modes : ∀ mode ∈ modeIds row.2, ∃ x held, resolved? vars table depth row.1 mode = some x ∧
    tokenValue x = .ok held ∧
    token.modes.lookup (.text (labelOf (collectionIn table row.2) mode)) = some held

theorem agree (hr : AreReadable vars table) {row : Datum × Datum} (hrow : row ∈ vars) {token : Token}
    {found : Option Datum} (ht : TokenSet.IsReading vars table depth row token)
    (he : IsEntry vars table depth row found) : Agree vars table depth row token found where
  variableId := ht.variableId
  name := ht.name
  default := by
    intro hne
    obtain ⟨mode, hmem, hmode⟩ := (hr.modeFor_default hrow).2.2 hne
    obtain ⟨x, -, hx, -⟩ := hr.resolves hrow mode depth
    obtain ⟨s, hs, hentry⟩ := he.value mode x hmode hx
    exact ⟨mode, hmem, x, s, hmode, hx, ht.value mode x hmode hx, hs, hentry⟩
  unread := he.unread
  modes := by
    intro mode hmode
    obtain ⟨x, -, hx, -⟩ := hr.resolves hrow mode depth
    obtain ⟨held, hheld, hfound⟩ := ht.modes mode hmode x hx
    exact ⟨x, held, hx, hheld, hfound⟩

/-- What two lists say of a third, item by item, their pairs say of it. -/
theorem forall₂_pairs {α β γ : Type} {R : α → β → Prop} {S : α → γ → Prop} {as : List α} {bs : List β}
    {cs : List γ} (hR : List.Forall₂ R as bs) (hS : List.Forall₂ S as cs) :
    ∃ pairs : List (β × γ), bs = pairs.map Prod.fst ∧ cs = pairs.map Prod.snd ∧
      List.Forall₂ (fun a pair => R a pair.1 ∧ S a pair.2) as pairs := by
  induction hR generalizing cs with
  | nil =>
    cases hS
    exact ⟨[], rfl, rfl, .nil⟩
  | cons hab _ ih =>
    cases hS with
    | cons hac hS =>
      obtain ⟨pairs, rfl, rfl, hpairs⟩ := ih hS
      exact ⟨(_, _) :: pairs, rfl, rfl, .cons ⟨hab, hac⟩ hpairs⟩

/-- Texts that tokens of a table may hold can be compared with each other: as colors, they are not too
far apart. -/
def AreComparable (vars : Variables) : Prop :=
  ∀ s t, IsHeldIn vars (.text s) → IsHeldIn vars (.text t) →
    ∃ near, isNear (.text s) (.text t) = .ok near

theorem IsHeldIn.isHeld (hr : AreReadable vars table) {held : Datum} (h : IsHeldIn vars held) :
    IsHeld held := by
  rcases h with rfl | ⟨row, hrow, value, hvalue, hheld⟩
  · exact .text ""
  · exact tokenValue_held hheld ((hr.entries row hrow).targets value hvalue)

theorem derivedEdges_comparable (hr : AreReadable vars table) (hc : AreComparable vars)
    {tokens : List Token} (ht : ∀ token ∈ tokens, IsHeldIn vars token.value) :
    ∃ derived, derivedEdges tokens = .ok derived := by
  refine derivedEdges_ok fun a ha b hb howns howns' => ?_
  have hplain : ∀ {t : Token}, t.ownsValue = true → isAlias t.value = false := by
    intro t h
    simpa using (Bool.and_eq_true_iff.1 h).1
  refine isNear_held ((ht a ha).isHeld hr) ((ht b hb).isHeld hr) (hplain howns) (hplain howns')
    fun hta htb => ?_
  obtain ⟨s, hs⟩ := Outline.eq_text hta
  obtain ⟨t, ht'⟩ := Outline.eq_text htb
  rw [hs, ht']
  exact hc s t (hs ▸ ht a ha) (ht' ▸ ht b hb)

theorem variableNames_ok (h : ∀ row ∈ vars, row.2.isRecord = true) :
    TokenSet.variableNames vars = .ok (namesOf vars) := by
  refine Outcome.mapM_ok fun row hrow => ?_
  show (do return (row.1, (← row.2.get "name").orElse row.1) : Outcome (Datum × Datum)) = _
  rw [Datum.get_eq (h row hrow)]
  rfl

/-- Once the variables are read, it remains to tell the edges between close values and the uses. -/
theorem build_exec (h : ∀ row ∈ vars, row.2.isRecord = true) {g : TokenSet.Gathered}
    {ns : List Notice} (hg : (vars.foldlM (fun g row =>
      TokenSet.readVariable (TokenSet.contextOf vars table depth) g row.1 row.2)
      (⟨[], [], []⟩ : TokenSet.Gathered)).after [] = (.ok g, ns)) (walks : List Walked) :
    (TokenSet.build vars (.ok table) (.ok walks) (.int depth)).exec =
      ((do
        let derived ← derivedEdges g.tokens
        let usage ← usageOf (namesOf vars) walks
        return ⟨g.tokens, g.modeValues, g.edges ++ derived, usage⟩ : Outcome TokenSet), ns) := by
  rw [TokenSet.build, variableNames_ok h, Run.lift_ok, pure_bind]
  refine (Run.after_ok_bind hg).trans ?_
  rw [Run.after_bind, Run.after_lift]
  cases derivedEdges g.tokens with
  | error f => rfl
  | ok derived =>
    simp only [Run.lift_ok, pure_bind, Outcome.ok_bind]
    rw [Run.after_bind, Run.after_lift]
    cases usageOf (namesOf vars) walks <;> rfl

/-- The two readings of a table of variables agree. Both return, the set of tokens as soon as the
edges between close values and the uses can be told, and these edges can whenever the texts of the
table can be compared; each variable has a token and an entry made of its value in its default mode;
and under each name in each mode stands the value of the last variable that has them. -/
theorem readings_agree (hr : AreReadable vars table)
    (hapart : ∀ row ∈ vars, TellsApart (collectionIn table row.2) (modeIds row.2)) (depth : Nat)
    (walks : List Walked) :
    ∃ (readings : List (Token × Option Datum)) (modeValues : Table Datum (Table String Datum))
        (edges : List TokenEdge) (ns ms : List Notice),
      (matchable vars (.ok table) (.int depth)).exec = (.ok (readings.filterMap Prod.snd), ms) ∧
      (TokenSet.build vars (.ok table) (.ok walks) (.int depth)).exec =
        ((do
          let derived ← derivedEdges (readings.map Prod.fst)
          let usage ← usageOf (namesOf vars) walks
          return ⟨readings.map Prod.fst, modeValues, edges ++ derived, usage⟩ : Outcome TokenSet), ns) ∧
      (AreComparable vars → ∃ derived, derivedEdges (readings.map Prod.fst) = .ok derived) ∧
      List.Forall₂ (fun row reading => Agree vars table depth row reading.1 reading.2) vars readings ∧
      TokenSet.AreListed vars table depth vars modeValues := by
  obtain ⟨entries, ms, hentries, found, rfl, hfound⟩ := matchable_gives hr depth []
  obtain ⟨g, ns, hg, htokens, hlisted⟩ := TokenSet.readVariables_gives hr hapart depth []
  have hheld : ∀ token ∈ g.tokens, IsHeldIn vars token.value := by
    intro token htoken
    obtain ⟨i, hi, rfl⟩ := List.getElem_of_mem htoken
    exact ((List.forall₂_iff_get.1 htokens).2 i (by rw [htokens.length_eq]; exact hi) hi).held
  obtain ⟨readings, hmap, rfl, hpairs⟩ := forall₂_pairs htokens hfound
  refine ⟨readings, g.modeValues, g.edges, ns, ms, ?_, ?_, fun hc => ?_, ?_, hlisted⟩
  · rw [Run.exec_eq, hentries, List.filterMap_map]
    rfl
  · rw [build_exec hr.records hg, hmap]
  · rw [← hmap]
    exact derivedEdges_comparable hr hc hheld
  · refine List.forall₂_iff_get.2 ⟨hpairs.length_eq, fun i hi hi' => ?_⟩
    obtain ⟨ht, he⟩ := (List.forall₂_iff_get.1 hpairs).2 i hi hi'
    exact agree hr (List.get_mem _ _) ht he

end Matching

/-! ## Two inks -/

/-- A collection with two modes, of which the dark one is the default. -/
def shades : Datum :=
  .record [("defaultModeId", .text "d"), ("modes", .list
    [.record [("modeId", .text "l"), ("name", .text "light")],
      .record [("modeId", .text "d"), ("name", .text "dark")]])]

def shadeTable : Table Datum Datum := [(.text "shades", shades)]

/-- A variable that is dark like another one, which has the same name. -/
def shadedInks : Variables :=
  [(.text "V:1", .record [("name", .text "ink"), ("variableCollectionId", .text "shades"),
      ("valuesByMode", .record [("l", .text "white"),
        ("d", .record [("type", .text "VARIABLE_ALIAS"), ("id", .text "V:2")])])]),
    (.text "V:2", .record [("name", .text "ink"), ("variableCollectionId", .text "shades"),
      ("valuesByMode", .record [("d", .text "black")])])]

theorem areReadable_inks : AreReadable shadedInks shadeTable where
  ids := by simp [shadedInks, IsText, Datum.isText]
  distinct := by simp [shadedInks]
  records := by simp [shadedInks, Datum.isRecord]
  names := by
    intro row hrow
    simp only [shadedInks, List.mem_cons, List.not_mem_nil, or_false] at hrow
    rcases hrow with rfl | rfl <;> rfl
  entries := by
    intro row hrow
    simp only [shadedInks, List.mem_cons, List.not_mem_nil, or_false] at hrow
    rcases hrow with rfl | rfl
    · refine ⟨rfl, rfl, rfl, fun value hvalue ha => ?_⟩
      rcases List.mem_cons.1 hvalue with rfl | hvalue
      · cases ha
      · obtain rfl := List.mem_singleton.1 hvalue
        exact ⟨_, rfl⟩
    · refine ⟨rfl, rfl, rfl, fun value hvalue ha => ?_⟩
      obtain rfl := List.mem_singleton.1 hvalue
      cases ha
  scopes := by
    intro row hrow
    simp only [shadedInks, List.mem_cons, List.not_mem_nil, or_false] at hrow
    rcases hrow with rfl | rfl <;> exact ⟨[], rfl, by simp⟩
  values := by
    intro row hrow value hvalue
    simp only [shadedInks, List.mem_cons, List.not_mem_nil, or_false] at hrow
    rcases hrow with rfl | rfl
    · rcases List.mem_cons.1 hvalue with rfl | hvalue
      · exact ⟨_, rfl⟩
      · obtain rfl := List.mem_singleton.1 hvalue
        exact ⟨_, rfl⟩
    · obtain rfl := List.mem_singleton.1 hvalue
      exact ⟨_, rfl⟩
  collections := by
    intro row hrow
    obtain rfl := List.mem_singleton.1 hrow
    exact ⟨rfl, rfl⟩
  titled := by
    intro row hrow
    obtain rfl := List.mem_singleton.1 hrow
    refine ⟨_, rfl, fun m hm => ?_⟩
    simp only [List.mem_cons, List.not_mem_nil, or_false] at hm
    rcases hm with rfl | rfl <;> exact ⟨rfl, rfl, .inr rfl⟩

theorem titleOf_shades {mode title : String} (h : titleOf shades mode = some title) :
    mode = "l" ∧ title = "light" ∨ mode = "d" ∧ title = "dark" := by
  have hnames : TokenSet.modeNames shades =
      .ok [(.text "l", .text "light"), (.text "d", .text "dark")] := rfl
  rw [titleOf, hnames] at h
  obtain ⟨names, hfound, h⟩ := Option.bind_eq_some_iff.1 (Option.filter_eq_some_iff.1 h).1
  obtain rfl := Option.some.inj hfound
  obtain ⟨d, hd, ht⟩ := Option.bind_eq_some_iff.1 h
  obtain ⟨key, hkey, hmem⟩ := Table.mem_of_lookup hd
  obtain rfl := Datum.text_same.1 hkey
  simp only [List.mem_cons, Prod.mk.injEq, Datum.text.injEq, List.not_mem_nil, or_false] at hmem
  rcases hmem with ⟨rfl, rfl⟩ | ⟨rfl, rfl⟩ <;> cases ht
  · exact .inl ⟨rfl, rfl⟩
  · exact .inr ⟨rfl, rfl⟩

theorem tellsApart_inks :
    ∀ row ∈ shadedInks, TellsApart (collectionIn shadeTable row.2) (modeIds row.2) := by
  have hshades (modes : List String) (hmodes : ∀ m ∈ modes, m = "l" ∨ m = "d") :
      TellsApart shades modes := by
    refine ⟨fun m m' title h h' => ?_, fun m hm _ m' h => ?_⟩
    · rcases titleOf_shades h with ⟨rfl, rfl⟩ | ⟨rfl, rfl⟩ <;>
        rcases titleOf_shades h' with ⟨rfl, ht⟩ | ⟨rfl, ht⟩ <;>
        first | rfl | exact absurd ht (by decide)
    · rcases hmodes m hm with rfl | rfl <;> rcases titleOf_shades h with ⟨-, ht⟩ | ⟨-, ht⟩ <;>
        exact absurd ht (by decide)
  intro row hrow
  simp only [shadedInks, List.mem_cons, List.not_mem_nil, or_false] at hrow
  rcases hrow with rfl | rfl <;> exact hshades _ (by decide)

theorem areComparable_inks : AreComparable shadedInks := by
  have hheld : ∀ s, IsHeldIn shadedInks (.text s) → s ∈ ["", "white", "black"] := by
    rintro s (h | ⟨row, hrow, value, hvalue, h⟩)
    · obtain rfl := Datum.text.inj h
      decide
    · simp only [shadedInks, List.mem_cons, List.not_mem_nil, or_false] at hrow
      rcases hrow with rfl | rfl
      · rcases List.mem_cons.1 hvalue with rfl | hvalue
        · obtain rfl := Datum.text.inj (Except.ok.inj h)
          decide
        · obtain rfl := List.mem_singleton.1 hvalue
          cases h
      · obtain rfl := List.mem_singleton.1 hvalue
        obtain rfl := Datum.text.inj (Except.ok.inj h)
        decide
  have hnear : ∀ s ∈ ["", "white", "black"], ∀ t ∈ ["", "white", "black"],
      (isNear (.text s) (.text t)).toBool = true := by decide +kernel
  intro s t hs ht
  have := hnear s (hheld s hs) t (hheld t ht)
  cases h : isNear (.text s) (.text t) with
  | ok near => exact ⟨near, rfl⟩
  | error f =>
    rw [h] at this
    cases this

/-- Both inks are read, each with a token and an entry that agree. -/
theorem readings_agree_inks : AreReadable shadedInks shadeTable ∧
    (∀ row ∈ shadedInks, TellsApart (collectionIn shadeTable row.2) (modeIds row.2)) ∧
    ∃ readings set ns entries ms,
      (TokenSet.build shadedInks (.ok shadeTable) (.ok []) (.int 10)).exec = (.ok set, ns) ∧
      (matchable shadedInks (.ok shadeTable) (.int 10)).exec = (.ok entries, ms) ∧
      set.tokens = readings.map Prod.fst ∧ entries = readings.filterMap Prod.snd ∧
      List.Forall₂ (fun row reading => Agree shadedInks shadeTable 10 row reading.1 reading.2)
        shadedInks readings := by
  refine ⟨areReadable_inks, tellsApart_inks, ?_⟩
  obtain ⟨readings, modeValues, edges, ns, ms, hmatchable, hbuild, hderived, hagree, -⟩ :=
    readings_agree areReadable_inks tellsApart_inks 10 []
  obtain ⟨derived, hderived⟩ := hderived areComparable_inks
  rw [hderived] at hbuild
  exact ⟨readings, _, ns, _, ms, hbuild, hmatchable, rfl, rfl, hagree⟩

end Token

end Maquette
