/-
What each variable adds to the tokens of a design. Notices are left behind but never looked at, so a
variable is read the same whatever was noted before; and it is read the same whatever was gathered before,
which it only adds to: a token, its values by what its modes go by, and the aliases among them.
-/
import Maquette.Proofs.Token.SetShape

namespace Maquette

namespace Token

/-! ## Resolved values -/

section Resolved

variable {vars vars' : Variables} {keys keys' : List Datum}

/-- The same keys, in another order if none of them is met twice. -/
def AreSame (keys keys' : List Datum) : Prop :=
  keys = keys' ∨ keys.Perm keys' ∧ ∀ key : Datum, keys.Pairwise fun a b => (a == key) = true → (b == key) = true → False

theorem AreSame.any_eq (h : AreSame keys keys') (key : Datum) :
    keys.any (· == key) = keys'.any (· == key) := by
  rcases h with rfl | ⟨hperm, -⟩
  · rfl
  · rw [Bool.eq_iff_iff, List.any_eq_true, List.any_eq_true]
    exact exists_congr fun _ => and_congr_left fun _ => hperm.mem_iff

theorem AreSame.eraseP (h : AreSame keys keys') (key : Datum) :
    AreSame (keys.eraseP (· == key)) (keys'.eraseP (· == key)) := by
  rcases h with rfl | ⟨hperm, hapart⟩
  · exact .inl rfl
  · exact .inr ⟨hperm.eraseP _ (hapart key), fun other => (hapart other).sublist List.eraseP_sublist⟩

/-- Two tables in which the same is found. -/
structure AreAlike (vars vars' : Variables) : Prop where
  found : ∀ id, lookup vars id = lookup vars' id
  keys : AreSame (vars.map Prod.fst) (vars'.map Prod.fst)

theorem AreAlike.self (vars : Variables) : AreAlike vars vars := ⟨fun _ => rfl, .inl rfl⟩

/-- A chain is followed to the same end through tables in which the same is found. -/
theorem follow_alike {q : Quest} (h : AreAlike q.vars vars') {fresh fresh' : List Datum}
    (hfresh : AreSame fresh fresh') (chain : List Datum) (mode value : Datum) :
    (q.follow fresh chain mode value).Alike ({ q with vars := vars' }.follow fresh' chain mode value) := by
  -- by induction on what is fresh: only a hop goes on, and takes the same key from both lists
  rw [Quest.follow, Quest.follow]
  dsimp only
  rw [← h.found, ← hfresh.any_eq]
  split
  · exact Run.alike_pure _
  refine Run.alike_lift_bind fun limit => ?_
  split
  · refine Run.alike_lift_bind fun ids => ?_
    refine Run.alike_lift_bind fun n => ?_
    exact Run.alike_note_bind _ _ (Run.alike_pure _)
  refine Run.alike_lift_bind fun found => ?_
  split
  · refine Run.alike_lift_bind fun ids => ?_
    exact Run.alike_note_bind _ _ (Run.alike_pure _)
  cases found with
  | none => exact Run.alike_note_bind _ _ (Run.alike_pure _)
  | some var =>
    dsimp only
    split
    · rename_i hany
      have hshorter : (fresh.eraseP (· == aliasTarget value)).length < fresh.length := by
        obtain ⟨id, hmem, -⟩ := List.any_eq_true.1 hany
        have := List.length_pos_of_mem hmem
        rw [List.length_eraseP, if_pos hany]
        omega
      refine Run.alike_lift_bind fun next => ?_
      refine Run.alike_lift_bind fun value' => ?_
      exact follow_alike h (hfresh.eraseP _) _ _ _
    · exact Run.alike_pure _
termination_by fresh.length

/-- A variable is resolved to the same value, whatever was noted before, in tables in which the same is
found. -/
theorem resolve_alike (h : AreAlike vars vars') (collections : Token.Collections) (maxDepth id mode : Datum) :
    (resolve vars collections maxDepth id mode).Alike (resolve vars' collections maxDepth id mode) := by
  unfold resolve
  rw [h.found]
  refine Run.alike_lift_bind fun found => ?_
  cases found with
  | none => exact Run.alike_note_bind _ _ (Run.alike_pure _)
  | some var =>
    refine Run.alike_lift_bind fun marker => ?_
    exact follow_alike (q := ⟨id, mode, marker, vars, collections, maxDepth⟩) h (h.keys.eraseP id) _ _ _

end Resolved

end Token

namespace TokenSet

/-! ## What a mode adds -/

/-- A mode of a variable, read: what it goes by, the value of the token and of the variable, and the name
that its value is an alias of. -/
structure ModeShare where
  mode : String
  label : Datum
  value : Datum
  resolved : Datum
  target : Option Datum

/-- Reads a mode by itself. -/
def modeShare (ctx : Context) (var : Reading) (mode : String) (raw : Datum) : Outcome ModeShare := do
  let result ← (Token.resolve ctx.vars ctx.collections ctx.maxDepth var.id (.text mode)).exec.1
  let value ← Token.tokenValue result.value
  let label ← modeName var.modeNames (.text mode)
  let _ ← var.name.asKey
  return ⟨mode, label, value, result.value, ← aliasName ctx raw⟩

/-- Enters a value for a name in a mode. -/
def entered (values : Table Datum (Table String Datum)) (label : Datum) (name : String) (value : Datum) :
    Table Datum (Table String Datum) :=
  values.set label (((values.lookup label).getD []).set name value)

/-- The alias that a mode of a variable is. -/
def ModeShare.alias? (s : ModeShare) (name : Datum) : Option TokenEdge :=
  s.target.map fun target => ⟨name, target, "alias"⟩

/-- What is gathered, with one more mode of a variable. -/
def Gathered.addMode (name : Datum) (g : Gathered) (s : ModeShare) : Gathered :=
  { g with
    modeValues := entered g.modeValues s.label name.shown s.value
    edges := (s.alias? name).elim g.edges (Token.addEdge g.edges) }

/-- The values of a variable, with one more mode. -/
def Modes.addMode (default : Datum) (m : Modes) (s : ModeShare) : Modes :=
  ⟨m.values.set s.label s.value, if default.isThe s.mode then s.resolved else m.rawDefault⟩

section Reading

variable {ctx : Context}

theorem readMode_yields (ctx : Context) (var : Reading) (state : Gathered × Modes) (mode : String) (raw : Datum) :
    (readMode ctx var state mode raw).Yields
      ((fun s => (state.1.addMode var.name s, state.2.addMode var.defaultMode s)) <$> modeShare ctx var mode raw) := by
  unfold readMode modeShare
  simp only [map_bind]
  refine (Token.resolve_alike (.self _) _ _ _ _).yields.bind fun result => ?_
  refine Run.yields_lift_bind fun value _ => ?_
  refine Run.yields_lift_bind fun label _ => ?_
  refine Run.yields_lift_bind fun key hkey => ?_
  obtain rfl := Datum.asKey_ok hkey
  refine Run.yields_lift_bind fun target _ => ?_
  cases target with
  | none => exact Run.yields_pure _
  | some target => exact Run.yields_pure _

/-! ## What a variable adds -/

/-- What a variable adds: its token, and its modes under its name. -/
structure Share where
  name : Datum
  token : Token
  modes : List ModeShare

/-- Reads a variable by itself. -/
def shareOf (ctx : Context) (row : Datum × Datum) : Outcome Share := do
  let name := (ctx.names.lookup row.1).getD .null
  let type ← row.2.fieldOr "resolvedType" (.text "")
  let collection ← Token.collectionOf ctx.collections row.2
  let names ← modeNames collection
  let preferred ← collection.fieldOr "defaultModeId" (.text "")
  let defaultMode ← Token.modeFor row.2 preferred ctx.collections
  let values ← Token.valuesOf row.2
  let shares ← values.mapM fun (mode, raw) => modeShare ctx ⟨row.1, name, names, defaultMode⟩ mode raw
  let modes := shares.foldl (Modes.addMode defaultMode) ⟨[], .null⟩
  let kind ← Token.kindOf name (← row.2.get "scopes") modes.rawDefault type
  let label ← modeName names defaultMode
  let text ← name.textMember
  let token : Token :=
    { name := text
      semanticName := Token.pathName text kind
      value := (modes.values.lookup label).getD (.text "")
      kind := kind
      modes := modes.values
      variableId := row.1
      collection := given (← collection.get "name")
      description := given (← row.2.get "description")
      aliasOf := ← aliasName ctx (← Token.valueIn row.2 defaultMode) }
  return ⟨name, token, shares⟩

/-- What is gathered, with one more variable. -/
def Gathered.add (g : Gathered) (s : Share) : Gathered :=
  let g := s.modes.foldl (Gathered.addMode s.name) g
  { g with tokens := g.tokens ++ [s.token] }

theorem foldl_pair {α β γ : Type} (f : β → α → β) (g : γ → α → γ) (xs : List α) (b : β) (c : γ) :
    xs.foldl (fun state x => (f state.1 x, g state.2 x)) (b, c) = (xs.foldl f b, xs.foldl g c) := by
  induction xs generalizing b c with
  | nil => rfl
  | cons x xs ih => exact ih _ _

theorem readModes_yields (ctx : Context) (var : Reading) (g : Gathered) (m : Modes)
    (values : List (String × Datum)) :
    (values.foldlM (fun state row => readMode ctx var state row.1 row.2) (g, m)).Yields
      ((fun shares => (shares.foldl (Gathered.addMode var.name) g, shares.foldl (Modes.addMode var.defaultMode) m)) <$>
        values.mapM fun row => modeShare ctx var row.1 row.2) := by
  have hfold := Run.yields_foldlM (fun state (row : String × Datum) => readMode_yields ctx var state row.1 row.2)
    values (g, m)
  rw [Outcome.foldlM_map (fun row : String × Datum => modeShare ctx var row.1 row.2)
    (fun (state : Gathered × Modes) s => (state.1.addMode var.name s, state.2.addMode var.defaultMode s))] at hfold
  simpa only [foldl_pair] using hfold

/-- A variable is read the same whatever was gathered before, and adds to it. -/
theorem readVariable_yields (ctx : Context) (g : Gathered) (row : Datum × Datum) :
    (readVariable ctx g row.1 row.2).Yields (g.add <$> shareOf ctx row) := by
  unfold readVariable shareOf
  simp only [map_bind]
  refine Run.yields_lift_bind fun type _ => ?_
  refine Run.yields_lift_bind fun collection _ => ?_
  refine Run.yields_lift_bind fun names _ => ?_
  refine Run.yields_lift_bind fun preferred _ => ?_
  refine Run.yields_lift_bind fun defaultMode _ => ?_
  refine Run.yields_lift_bind fun values _ => ?_
  have hmodes := readModes_yields ctx ⟨row.1, (List.lookup row.1 ctx.names).getD .null, names, defaultMode⟩ g
    ⟨[], .null⟩ values
  refine hmodes.map_bind fun shares => ?_
  refine Run.yields_lift_bind fun scopes _ => ?_
  refine Run.yields_lift_bind fun kind _ => ?_
  refine Run.yields_lift_bind fun label _ => ?_
  refine Run.yields_lift_bind fun text _ => ?_
  refine Run.yields_lift_bind fun title _ => ?_
  refine Run.yields_lift_bind fun description _ => ?_
  refine Run.yields_lift_bind fun raw _ => ?_
  refine Run.yields_lift_bind fun target _ => ?_
  exact Run.yields_pure _

/-- All variables are read one by one, and what each adds is added. -/
theorem readVariables_yields (ctx : Context) (vars : Token.Variables) (g : Gathered) :
    (vars.foldlM (fun g row => readVariable ctx g row.1 row.2) g).Yields
      ((fun shares => shares.foldl Gathered.add g) <$> vars.mapM (shareOf ctx)) := by
  rw [← Outcome.foldlM_map]
  exact Run.yields_foldlM (readVariable_yields ctx) vars g

/-- The tokens of a table of variables: each variable is read by itself, and what they add is gathered in
their order. -/
theorem build_yields (vars : Token.Variables) (collections : Token.Collections) (walks : Outcome (List Walked))
    (maxDepth : Datum) : (build vars collections walks maxDepth).Yields do
      let names ← variableNames vars
      let shares ← vars.mapM (shareOf ⟨vars, collections, maxDepth, names⟩)
      let gathered := shares.foldl Gathered.add ⟨[], [], []⟩
      let derived ← Token.derivedEdges gathered.tokens
      let usage ← Token.usageOf names (← walks)
      return ⟨gathered.tokens, gathered.modeValues, gathered.edges ++ derived, usage⟩ := by
  refine Run.yields_lift_bind fun names _ => ?_
  refine (readVariables_yields _ vars _).map_bind fun shares => ?_
  refine Run.yields_lift_bind fun derived _ => ?_
  refine Run.yields_lift_bind fun walks _ => ?_
  refine Run.yields_lift_bind fun usage _ => ?_
  exact Run.yields_pure _

/-! ## What is known of a share -/

/-- The values of a variable are those of its record. -/
theorem valuesOf_ok {var : Datum} {values : List (String × Datum)} (h : Token.valuesOf var = .ok values) :
    values = Token.modesOf var := by
  obtain ⟨d, hd, h⟩ := Outcome.bind_ok h
  obtain ⟨-, rfl⟩ := Datum.get_ok hd
  unfold Token.modesOf
  cases hv : ((var.at? "valuesByMode").getD .null).orElse .empty with
  | record fields =>
    rw [hv] at h
    exact (Except.ok.inj h).symm
  | _ =>
    rw [hv] at h
    cases h

/-- The value of a variable in a mode is one of its values, or null. -/
theorem valueIn_ok {var mode raw : Datum} (h : Token.valueIn var mode = .ok raw) :
    raw = .null ∨ ∃ m, (m, raw) ∈ Token.modesOf var := by
  obtain ⟨d, hd, h⟩ := Outcome.bind_ok h
  obtain ⟨rows, hrows, h⟩ := Outcome.bind_ok h
  obtain ⟨key, -, h⟩ := Outcome.bind_ok h
  cases h
  obtain ⟨fields, hfields, hrows⟩ := Outcome.bind_ok hrows
  cases hrows
  have hvalues : fields = Token.modesOf var := valuesOf_ok (by rw [Token.valuesOf, hd, Outcome.ok_bind, hfields])
  cases hl : List.lookup key (fields.map fun row => (Datum.text row.1, row.2)) with
  | none => exact .inl rfl
  | some raw =>
    obtain ⟨key', -, hmem⟩ := Table.mem_of_lookup hl
    obtain ⟨row, hrow, heq⟩ := List.mem_map.1 hmem
    exact .inr ⟨row.1, by rw [← hvalues, Option.getD_some, ← (Prod.mk.inj heq).2]; exact hrow⟩

theorem modeName_isKey {names : Table Datum Datum} {mode label : Datum} (h : modeName names mode = .ok label) :
    label.isKey = true := by
  unfold modeName Datum.asKey at h
  split at h
  · rename_i hkey
    cases h
    exact hkey
  · cases h

/-- A mode has the alias that its value is, and goes by a key. -/
theorem modeShare_ok {var : Reading} {mode : String} {raw : Datum} {s : ModeShare}
    (h : modeShare ctx var mode raw = .ok s) : aliasName ctx raw = .ok s.target ∧ s.label.isKey = true := by
  obtain ⟨result, -, h⟩ := Outcome.bind_ok h
  obtain ⟨value, -, h⟩ := Outcome.bind_ok h
  obtain ⟨label, hlabel, h⟩ := Outcome.bind_ok h
  obtain ⟨key, -, h⟩ := Outcome.bind_ok h
  obtain ⟨target, htarget, h⟩ := Outcome.bind_ok h
  cases h
  exact ⟨htarget, modeName_isKey hlabel⟩

/-- What a share says of its variable: the name that it was looked up by, the aliases among its values, and
that its modes go by keys. -/
structure IsShare (ctx : Context) (row : Datum × Datum) (s : Share) : Prop where
  name : s.name = (List.lookup row.1 ctx.names).getD .null
  text : s.name = .text s.token.name
  variableId : s.token.variableId = row.1
  modes : List.Forall₂ (fun value m => aliasName ctx value.2 = .ok m.target) (Token.modesOf row.2) s.modes
  labels : ∀ m ∈ s.modes, m.label.isKey = true
  aliasOf : ∃ raw, aliasName ctx raw = .ok s.token.aliasOf ∧
    (raw = .null ∨ ∃ mode, (mode, raw) ∈ Token.modesOf row.2)

theorem shareOf_ok {row : Datum × Datum} {s : Share} (h : shareOf ctx row = .ok s) : IsShare ctx row s := by
  obtain ⟨type, -, h⟩ := Outcome.bind_ok h
  obtain ⟨collection, -, h⟩ := Outcome.bind_ok h
  obtain ⟨names, -, h⟩ := Outcome.bind_ok h
  obtain ⟨preferred, -, h⟩ := Outcome.bind_ok h
  obtain ⟨defaultMode, -, h⟩ := Outcome.bind_ok h
  obtain ⟨values, hvalues, h⟩ := Outcome.bind_ok h
  obtain ⟨shares, hshares, h⟩ := Outcome.bind_ok h
  obtain ⟨scopes, -, h⟩ := Outcome.bind_ok h
  obtain ⟨kind, -, h⟩ := Outcome.bind_ok h
  obtain ⟨label, -, h⟩ := Outcome.bind_ok h
  obtain ⟨text, htext, h⟩ := Outcome.bind_ok h
  obtain ⟨title, -, h⟩ := Outcome.bind_ok h
  obtain ⟨description, -, h⟩ := Outcome.bind_ok h
  obtain ⟨raw, hraw, h⟩ := Outcome.bind_ok h
  obtain ⟨target, htarget, h⟩ := Outcome.bind_ok h
  cases h
  refine ⟨rfl, Datum.eq_text htext, rfl, ?_, fun m hm => ?_, raw, htarget, valueIn_ok hraw⟩
  · rw [← valuesOf_ok hvalues]
    exact (Outcome.forall₂_mapM hshares).imp fun _ _ hm => (modeShare_ok hm).1
  · obtain ⟨value, -, hread⟩ := Outcome.mem_mapM hshares m hm
    exact (modeShare_ok hread).2

/-! ## What is gathered of all -/

/-- The aliases among the values of a variable. -/
def Share.aliases (s : Share) : List TokenEdge := s.modes.filterMap (·.alias? s.name)

theorem foldl_addMode (name : Datum) (modes : List ModeShare) (g : Gathered) :
    modes.foldl (Gathered.addMode name) g =
      ⟨g.tokens, modes.foldl (fun values m => entered values m.label name.shown m.value) g.modeValues,
        (modes.filterMap (·.alias? name)).foldl Token.addEdge g.edges⟩ := by
  induction modes generalizing g with
  | nil => rfl
  | cons m modes ih =>
    rw [List.foldl_cons, ih, List.filterMap_cons]
    cases h : m.alias? name <;> simp [Gathered.addMode, h]

/-- The values of all variables by mode and name. -/
def Share.enter (values : Table Datum (Table String Datum)) (s : Share) : Table Datum (Table String Datum) :=
  s.modes.foldl (fun values m => entered values m.label s.name.shown m.value) values

/-- What is gathered of all variables: their tokens, their values, and each alias once. -/
theorem foldl_add (shares : List Share) (g : Gathered) :
    shares.foldl Gathered.add g =
      ⟨g.tokens ++ shares.map Share.token, shares.foldl Share.enter g.modeValues,
        (shares.flatMap Share.aliases).foldl Token.addEdge g.edges⟩ := by
  induction shares generalizing g with
  | nil => simp
  | cons s shares ih =>
    rw [List.foldl_cons, ih, Gathered.add, foldl_addMode]
    simp [Share.aliases, Share.enter]

end Reading

section Build

variable {vars : Token.Variables} {collections : Token.Collections} {walks : Outcome (List Walked)}
  {maxDepth : Datum} {s : TokenSet} {ns : List Notice}

/-- The tables that the variables of a table are read with. -/
def reader (vars : Token.Variables) (collections : Token.Collections) (maxDepth : Datum) : Context :=
  ⟨vars, collections, maxDepth, Token.namesOf vars⟩

/-- A set of tokens is made of what its variables add, the edges between close values and the uses. -/
structure IsBuilt (vars : Token.Variables) (collections : Token.Collections) (walks : List Walked)
    (maxDepth : Datum) (shares : List Share) (derived : List TokenEdge) (s : TokenSet) : Prop where
  records : ∀ row ∈ vars, row.2.isRecord = true
  read : vars.mapM (shareOf (reader vars collections maxDepth)) = .ok shares
  tokens : s.tokens = shares.map Share.token
  modeValues : s.modeValues = shares.foldl Share.enter []
  edges : s.edges = (shares.flatMap Share.aliases).foldl Token.addEdge [] ++ derived
  derived : Token.derivedEdges s.tokens = .ok derived
  usage : Token.usageOf (Token.namesOf vars) walks = .ok s.usage

theorem build_parts (h : (build vars collections walks maxDepth).exec = (.ok s, ns)) :
    ∃ ws shares derived, walks = .ok ws ∧ IsBuilt vars collections ws maxDepth shares derived s := by
  have hyield := build_yields vars collections walks maxDepth []
  rw [← Run.exec_eq, h] at hyield
  obtain ⟨names, hnames, hyield⟩ := Outcome.bind_ok hyield.symm
  obtain ⟨hrecords, rfl⟩ := Token.variableNames_eq hnames
  obtain ⟨shares, hshares, hyield⟩ := Outcome.bind_ok hyield
  obtain ⟨derived, hderived, hyield⟩ := Outcome.bind_ok hyield
  obtain ⟨ws, hws, hyield⟩ := Outcome.bind_ok hyield
  obtain ⟨usage, husage, hyield⟩ := Outcome.bind_ok hyield
  cases hyield
  rw [foldl_add] at hderived
  simp only [foldl_add, List.nil_append] at hderived ⊢
  exact ⟨ws, shares, derived, hws, hrecords, hshares, rfl, rfl, rfl, hderived, husage⟩

end Build

end TokenSet

end Maquette
