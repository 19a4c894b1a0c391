/-
What is gathered from a table of variables. Where its words are texts, so are the names of modes, the
ends of edges and everything else that tokens are told by; and every value that a token holds is a
plain one, or the alias that a chain began with. Both are kept by reading one mode, and so by reading
all modes of a variable and all variables.
-/
import Maquette.Proofs.Outline.Layer
import Maquette.Proofs.Token.Chain
import Maquette.Schema.Document

namespace Maquette

open Outline (IsText IsListOf)

namespace Token

/-! ## Values -/

/-- A value that a token may hold. -/
def IsValue (d : Datum) : Prop := Schema.tokenValue d = []

theorem isValue_bool (b : Bool) : IsValue (.bool b) :=
  Check.anyOf_passes (c := Check.truth) (by simp [Check.plainMembers]) rfl

theorem isValue_int (n : Int) : IsValue (.int n) :=
  Check.anyOf_passes (c := Check.integer) (by simp [Check.plainMembers]) rfl

theorem isValue_float (x : Float) : IsValue (.float x) :=
  Check.anyOf_passes (c := Check.number) (by simp [Check.plainMembers]) rfl

theorem isValue_text (s : String) : IsValue (.text s) :=
  Check.anyOf_passes (c := Check.text) (by simp [Check.plainMembers]) rfl

/-- An alias may be held if it points at a text. -/
theorem isValue_alias {d : Datum} (ha : isAlias d = true) {id : String}
    (ht : aliasTarget d = .text id) : IsValue d := by
  refine Check.anyOf_passes (c := Schema.aliasMarker) (by simp) ?_
  cases d with
  | record fields =>
    have htype : fields.lookup "type" = some (.text "VARIABLE_ALIAS") := by
      cases hl : fields.lookup "type" with
      | none => simp [isAlias, hl, Datum.isThe] at ha
      | some v => cases v <;> simp_all [isAlias, Datum.isThe]
    have hid : fields.lookup "id" = some (.text id) := by
      cases hl : fields.lookup "id" with
      | none => simp [aliasTarget, Datum.at?, hl] at ht
      | some v => simpa [aliasTarget, Datum.at?, hl] using ht
    simp [Schema.aliasMarker, Check.model, Check.Field.issues, Check.need, htype, hid, Check.under,
      Check.oneOf_text]
  | _ => cases ha

/-- A value as a token holds it. -/
theorem tokenValue_isValue {value held : Datum} (h : tokenValue value = .ok held)
    (ht : isAlias value = true → ∃ id, aliasTarget value = .text id) : IsValue held := by
  unfold tokenValue at h
  -- an alias and a color come first, then each kind of plain value
  split at h
  · rename_i ha
    cases h
    obtain ⟨id, hid⟩ := ht ha
    exact isValue_alias ha hid
  split at h
  · obtain ⟨s, -, h⟩ := Outcome.bind_ok h
    cases h
    exact isValue_text s
  cases value with
  | bool b => cases h; exact isValue_bool b
  | int n =>
    obtain ⟨x, -, h⟩ := Outcome.bind_ok h
    cases h
    exact isValue_int n
  | float x =>
    cases h
    split
    · cases Decimal.truncate? x with
      | none => exact isValue_float x
      | some n => exact isValue_int n
    · exact isValue_float x
  | null => cases h; exact isValue_text ""
  | _ => cases h; exact isValue_text _

/-! ## Ends of chains -/

/-- A chain ends at a value, or it leaves the alias that it began with. -/
theorem follow_value {q : Quest} {fresh chain : List Datum} {mode value : Datum} {r : Resolution}
    {ns ms : List Notice} (h : (q.follow fresh chain mode value).after ns = (.ok r, ms)) :
    isAlias r.value = false ∨ r.value = q.marker := by
  -- by induction on what is fresh: each exit ends the chain, and only a hop goes on
  rw [Quest.follow] at h
  split at h
  · rename_i ha
    cases h
    exact .inl (by simpa using ha)
  obtain ⟨limit, -, h⟩ := Run.after_lift_bind_ok h
  split at h
  · obtain ⟨ids, -, h⟩ := Run.after_lift_bind_ok h
    obtain ⟨n, -, h⟩ := Run.after_lift_bind_ok h
    cases h
    exact .inr rfl
  obtain ⟨found, -, h⟩ := Run.after_lift_bind_ok h
  split at h
  · obtain ⟨ids, -, h⟩ := Run.after_lift_bind_ok h
    cases h
    exact .inr rfl
  split at h
  · cases h
    exact .inr rfl
  split at h
  · rename_i hany
    have hshorter : (fresh.eraseP (· == aliasTarget value)).length < fresh.length := by
      obtain ⟨id, hmem, -⟩ := List.any_eq_true.1 hany
      have := List.length_pos_of_mem hmem
      rw [List.length_eraseP, if_pos hany]
      omega
    obtain ⟨next, -, h⟩ := Run.after_lift_bind_ok h
    obtain ⟨value', -, h⟩ := Run.after_lift_bind_ok h
    exact follow_value h
  · cases h
    exact .inr rfl
termination_by fresh.length

/-- An alias that a variable is resolved to points at a text. -/
theorem resolve_target {vars : Variables} (hv : AreVariables vars) {collections : Collections}
    {maxDepth id : Datum} {mode : String} {r : Resolution} {ns ms : List Notice}
    (h : (resolve vars collections maxDepth id (.text mode)).after ns = (.ok r, ms))
    (ha : isAlias r.value = true) : ∃ target, aliasTarget r.value = .text target := by
  unfold resolve at h
  obtain ⟨found, hfound, h⟩ := Run.after_lift_bind_ok h
  cases found with
  | none => cases h; cases ha
  | some var =>
    obtain ⟨marker, hmarker, h⟩ := Run.after_lift_bind_ok h
    rcases follow_value h with hvalue | hvalue
    · rw [hvalue] at ha; cases ha
    · -- the marker is one of the values of the variable
      have hvar := isVariable_of_lookup hv hfound
      have hmode : marker = ((modesOf var).lookup mode).getD .null :=
        (Except.ok.inj (hmarker.symm.trans (valueIn_eq hvar (some mode))))
      cases hlook : (modesOf var).lookup mode with
      | none =>
        rw [hvalue, hmode, hlook] at ha
        cases ha
      | some v =>
        obtain ⟨key, -, hmem⟩ := Table.mem_of_lookup hlook
        have hv' : r.value = v := by rw [hvalue, hmode, hlook]; rfl
        rw [hv'] at ha ⊢
        exact hvar.targets _ hmem ha

/-! ## Kinds -/

theorem byScopes_mem {scopes : List Datum} {kind : String} (h : byScopes scopes = .ok (some kind)) :
    kind ∈ kinds := by
  have htable : ∀ row ∈ scopeKinds, row.2 ∈ kinds := by decide
  induction scopes with
  | nil => cases h
  | cons scope scopes ih =>
    obtain ⟨key, -, h⟩ := Outcome.bind_ok h
    split at h
    · split at h
      · rename_i hlook
        cases h
        obtain ⟨k, -, hmem⟩ := Table.mem_of_lookup hlook
        exact htable _ hmem
      · exact ih h
    · exact ih h

theorem byName_mem {rules : List (List String × String)} (hrules : ∀ rule ∈ rules, rule.2 ∈ kinds)
    {lower default : String} (hd : default ∈ kinds) : (byName rules lower).getD default ∈ kinds := by
  unfold byName
  generalize hf : rules.find? _ = found
  cases found with
  | none => exact hd
  | some rule => exact hrules rule (List.mem_of_find?_eq_some hf)

theorem byValue_mem (value : Datum) : byValue value ∈ kinds := by
  unfold byValue
  split
  · decide
  · split
    · decide
    · decide
    · split <;> decide
    · decide

/-- The kind of a token is one of those that there are. -/
theorem kindOf_mem {name scopes value type : Datum} {kind : String}
    (h : kindOf name scopes value type = .ok kind) : kind ∈ kinds := by
  obtain ⟨items, -, h⟩ := Outcome.bind_ok h
  obtain ⟨found, hfound, h⟩ := Outcome.bind_ok h
  cases found with
  | some k => cases h; exact byScopes_mem hfound
  | none =>
    obtain ⟨lower, -, h⟩ := Outcome.bind_ok h
    split at h
    · cases h; decide
    split at h
    · cases h
      exact byName_mem (by decide) (by decide)
    · cases h
      exact byName_mem (by decide) (byValue_mem value)

/-! ## Words -/

/-- The words of a table of variables and of their collections are texts where they are present. -/
structure AreWorded (vars : Variables) (table : Table Datum Datum) : Prop where
  ids : ∀ row ∈ vars, IsText row.1
  entries : ∀ row ∈ vars, ∀ key ∈ ["name", "description"], row.2.Part key IsText
  collections : ∀ row ∈ table, row.2.Part "name" IsText
  modes : ∀ row ∈ table, row.2.Part "modes" (IsListOf fun mode => mode.Part "name" IsText)

/-- A token whose parts are of their kinds; its name may be empty. -/
structure IsTyped (t : Token) : Prop where
  value : IsValue t.value
  kind : t.kind ∈ kinds
  modes : ∀ row ∈ t.modes, IsText row.1 ∧ IsValue row.2
  variableId : IsText t.variableId
  collection : ∀ d ∈ t.collection, IsText d
  description : ∀ d ∈ t.description, IsText d
  aliasOf : ∀ d ∈ t.aliasOf, IsText d

end Token

/-- An edge between texts. -/
structure TokenEdge.IsTyped (e : TokenEdge) : Prop where
  source : IsText e.source
  target : IsText e.target
  relationship : e.relationship ∈ ["alias", "reference", "derived"]

namespace TokenSet

open Token (IsValue AreVariables AreWorded)

/-- What is gathered has parts of their kinds. -/
structure Gathered.IsTyped (g : Gathered) : Prop where
  tokens : ∀ t ∈ g.tokens, t.IsTyped
  modeValues : ∀ row ∈ g.modeValues, IsText row.1 ∧ ∀ cell ∈ row.2, IsValue cell.2
  edges : ∀ e ∈ g.edges, e.IsTyped

/-! ## Names -/

/-- A name in a table of modes is a text, or null for a mode without one. -/
theorem modeNames_text {collection : Datum}
    (hc : collection.Part "modes" (IsListOf fun mode => mode.Part "name" IsText))
    {names : Table Datum Datum} (h : modeNames collection = .ok names) :
    ∀ row ∈ names, row.2 = .null ∨ IsText row.2 := by
  obtain ⟨modes, hmodes, h⟩ := Outcome.bind_ok h
  have hlist : IsListOf (fun mode => mode.Part "name" IsText) modes := by
    rw [Datum.fieldOr_ok hmodes]
    cases hp : collection.at? "modes" with
    | none => exact Outline.IsListOf.nil
    | some v => exact hc v hp
  obtain ⟨items, rfl, hitems⟩ := hlist
  obtain ⟨rows, hrows, h⟩ := Outcome.bind_ok (x := items.mapM _) h
  cases h
  intro row hrow
  obtain ⟨r, hr, hrow⟩ := List.mem_map.1 (Table.mem_ofRows hrow)
  obtain ⟨mode, hmode, h⟩ := Outcome.mem_mapM hrows r hr
  obtain ⟨id, -, h⟩ := Outcome.bind_ok h
  obtain ⟨name, hname, h⟩ := Outcome.bind_ok h
  obtain ⟨key, -, h⟩ := Outcome.bind_ok h
  cases h
  rw [← hrow]
  exact (hitems mode hmode).get_ok hname

theorem modeName_text {names : Table Datum Datum}
    (hn : ∀ row ∈ names, row.2 = .null ∨ IsText row.2) {mode : String} {label : Datum}
    (h : modeName names (.text mode) = .ok label) : IsText label := by
  rw [Datum.asKey_ok h]
  exact Datum.orElse_of (Table.lookup_getD (P := fun d => d = .null ∨ IsText d) hn (.inl rfl)) rfl

theorem given_text {d v : Datum} (h : d = .null ∨ IsText d) (hv : v ∈ given d) : IsText v := by
  unfold given at hv
  split at hv
  · cases hv
    exact Datum.of_truthy h (by assumption)
  · cases hv

/-- What all collections of a table have, the one of a variable has, if an empty one has it. -/
theorem collectionOf_all {P : Datum → Prop} {table : Table Datum Datum} (hall : ∀ row ∈ table, P row.2)
    (hempty : P .empty) {var collection : Datum}
    (h : Token.collectionOf (.ok table) var = .ok collection) : P collection := by
  obtain ⟨table', htable, h⟩ := Outcome.bind_ok h
  cases htable
  obtain ⟨id, -, h⟩ := Outcome.bind_ok h
  obtain ⟨key, -, h⟩ := Outcome.bind_ok h
  cases h
  exact Table.lookup_getD hall hempty

/-! ## Reading -/

section Reading

variable {ctx : Context} {g g' : Gathered} {ns ms : List Notice}

theorem aliasName_text (hn : ∀ row ∈ ctx.names, IsText row.2) {value : Datum} {target : Option Datum}
    (h : aliasName ctx value = .ok target) : ∀ d ∈ target, IsText d := by
  unfold aliasName at h
  split at h
  · obtain ⟨key, -, h⟩ := Outcome.bind_ok h
    cases h
    intro d hd
    obtain ⟨k, -, hmem⟩ := Table.mem_of_lookup hd
    exact hn _ hmem
  · cases h
    simp

/-- Reading one mode of a variable with a text for its name. -/
theorem readMode_typed (hv : AreVariables ctx.vars) (hn : ∀ row ∈ ctx.names, IsText row.2)
    {var : Reading} (hname : IsText var.name)
    (hnames : ∀ row ∈ var.modeNames, row.2 = .null ∨ IsText row.2) {modes modes' : Modes}
    {mode : String} {raw : Datum} (hg : g.IsTyped)
    (hm : ∀ row ∈ modes.values, IsText row.1 ∧ IsValue row.2)
    (h : (readMode ctx var (g, modes) mode raw).after ns = (.ok (g', modes'), ms)) :
    g'.IsTyped ∧ g'.tokens = g.tokens ∧ ∀ row ∈ modes'.values, IsText row.1 ∧ IsValue row.2 := by
  obtain ⟨result, ns', hresult, h⟩ := Run.after_bind_ok h
  obtain ⟨value, hvalue, h⟩ := Run.after_lift_bind_ok h
  obtain ⟨label, hlabel, h⟩ := Run.after_lift_bind_ok h
  obtain ⟨key, -, h⟩ := Run.after_lift_bind_ok h
  obtain ⟨target, htarget, h⟩ := Run.after_lift_bind_ok h
  have hv' : IsValue value := Token.tokenValue_isValue hvalue (Token.resolve_target hv hresult)
  have hlabel' : IsText label := modeName_text hnames hlabel
  have hold : ∀ cell ∈ (g.modeValues.lookup label).getD [], IsValue cell.2 :=
    Table.lookup_getD (P := fun row : Table String Datum => ∀ cell ∈ row, IsValue cell.2)
      (fun row hrow => (hg.modeValues row hrow).2) (by simp)
  have hrow : ∀ cell ∈ ((g.modeValues.lookup label).getD []).set key.shown value, IsValue cell.2 := by
    intro cell hcell
    rcases Table.mem_set hcell with hcell | hcell
    · exact hold cell hcell
    · rw [hcell]; exact hv'
  have hvalues := Table.forall_set (P := IsText) (Q := IsValue) hlabel' hv' hm
  have hcells := Table.forall_set (P := IsText)
    (Q := fun row : Table String Datum => ∀ cell ∈ row, IsValue cell.2) hlabel' hrow hg.modeValues
  cases target with
  | none => cases h; exact ⟨⟨hg.tokens, hcells, hg.edges⟩, rfl, hvalues⟩
  | some target =>
    cases h
    refine ⟨⟨hg.tokens, hcells, ?_⟩, rfl, hvalues⟩
    intro e he
    unfold Token.addEdge at he
    split at he
    · exact hg.edges e he
    · rcases List.mem_append.1 he with he | he
      · exact hg.edges e he
      · obtain rfl := List.mem_singleton.1 he
        exact ⟨hname, aliasName_text hn htarget _ rfl, by simp⟩

/-- Reading a variable adds one token, of the variable's name. -/
theorem readVariable_typed {table : Table Datum Datum} (hv : AreVariables ctx.vars)
    (hw : AreWorded ctx.vars table) (hcol : ctx.collections = .ok table)
    (hn : ∀ row ∈ ctx.names, IsText row.2) {id var : Datum} (hrow : (id, var) ∈ ctx.vars)
    (hg : g.IsTyped) (h : (readVariable ctx g id var).after ns = (.ok g', ms)) :
    g'.IsTyped ∧ ∃ t, g'.tokens = g.tokens ++ [t] ∧
      .text t.name = (ctx.names.lookup id).getD .null := by
  obtain ⟨type, -, h⟩ := Run.after_lift_bind_ok h
  obtain ⟨collection, hcollection, h⟩ := Run.after_lift_bind_ok h
  obtain ⟨names, hnames, h⟩ := Run.after_lift_bind_ok h
  obtain ⟨preferred, -, h⟩ := Run.after_lift_bind_ok h
  obtain ⟨defaultMode, -, h⟩ := Run.after_lift_bind_ok h
  obtain ⟨values, -, h⟩ := Run.after_lift_bind_ok h
  obtain ⟨⟨gathered, modes⟩, ns', hread, h⟩ := Run.after_bind_ok h
  obtain ⟨scopes, -, h⟩ := Run.after_lift_bind_ok h
  obtain ⟨kind, hkind, h⟩ := Run.after_lift_bind_ok h
  obtain ⟨label, -, h⟩ := Run.after_lift_bind_ok h
  obtain ⟨text, htext, h⟩ := Run.after_lift_bind_ok h
  obtain ⟨title, htitle, h⟩ := Run.after_lift_bind_ok h
  obtain ⟨description, hdescription, h⟩ := Run.after_lift_bind_ok h
  obtain ⟨raw, -, h⟩ := Run.after_lift_bind_ok h
  obtain ⟨target, htarget, h⟩ := Run.after_lift_bind_ok h
  cases h
  have hname := Datum.eq_text htext
  rw [hcol] at hcollection
  have hcname := collectionOf_all (P := (Datum.Part · "name" IsText)) hw.collections
    (Outline.part_empty _ _) hcollection
  have hmodes := modeNames_text
    (collectionOf_all (P := (Datum.Part · "modes" _)) hw.modes (Outline.part_empty _ _) hcollection)
    hnames
  -- each mode keeps what is gathered as it should be, and adds no token
  have hall : gathered.IsTyped ∧ gathered.tokens = g.tokens ∧
      ∀ row ∈ modes.values, IsText row.1 ∧ IsValue row.2 := by
    refine Run.foldlM_ok (P := fun _ state => state.1.IsTyped ∧ state.1.tokens = g.tokens ∧
      ∀ row ∈ state.2.values, IsText row.1 ∧ IsValue row.2) ?_ ⟨hg, rfl, by simp⟩ hread
    rintro - ⟨mode, raw⟩ ⟨g₁, modes₁⟩ ⟨g₂, modes₂⟩ ns ms - ⟨hg₁, htokens, hm⟩ h
    obtain ⟨hg₂, htokens₂, hm₂⟩ :=
      readMode_typed hv hn (by rw [hname]; rfl) hmodes hg₁ hm h
    exact ⟨hg₂, htokens₂.trans htokens, hm₂⟩
  obtain ⟨hgathered, htokens, hm⟩ := hall
  have hvalue : IsValue ((modes.values.lookup label).getD (.text "")) :=
    Table.lookup_getD (fun row hrow => (hm row hrow).2) (Token.isValue_text "")
  refine ⟨⟨fun t ht => ?_, hgathered.modeValues, hgathered.edges⟩, _, by rw [htokens], hname.symm⟩
  rcases List.mem_append.1 ht with ht | ht
  · exact hgathered.tokens t ht
  · obtain rfl := List.mem_singleton.1 ht
    exact
      { value := hvalue
        kind := Token.kindOf_mem hkind
        modes := hm
        variableId := hw.ids _ hrow
        collection := fun d hd => given_text (hcname.get_ok htitle) hd
        description := fun d hd =>
          given_text ((hw.entries _ hrow _ (by simp)).get_ok hdescription) hd
        aliasOf := aliasName_text hn htarget }

/-- Reading all variables in order gives each a token of its name. -/
theorem readVariables_typed {table : Table Datum Datum} (hv : AreVariables ctx.vars)
    (hw : AreWorded ctx.vars table) (hcol : ctx.collections = .ok table)
    (hn : ∀ row ∈ ctx.names, IsText row.2)
    (h : (ctx.vars.foldlM (fun g (id, v) => readVariable ctx g id v)
      (⟨[], [], []⟩ : Gathered)).after ns = (.ok g, ms)) :
    g.IsTyped ∧ g.tokens.map (.text ·.name) =
      ctx.vars.map fun row => (ctx.names.lookup row.1).getD .null := by
  refine Run.foldlM_ok (P := fun before g => g.IsTyped ∧ g.tokens.map (.text ·.name) =
    before.map fun row => (ctx.names.lookup row.1).getD .null) ?_ ⟨⟨?_, ?_, ?_⟩, rfl⟩ h
  · rintro before ⟨id, v⟩ g g' ns ms hrow ⟨hg, hnames⟩ h
    obtain ⟨hg', t, htokens, ht⟩ := readVariable_typed hv hw hcol hn hrow hg h
    refine ⟨hg', ?_⟩
    rw [htokens, List.map_append, List.map_append, hnames, List.map_singleton, ht]
    rfl
  all_goals simp

/-- Edges between nearly equal values. -/
theorem derivedEdges_typed {tokens : List Token} {edges : List TokenEdge}
    (h : Token.derivedEdges tokens = .ok edges) : ∀ e ∈ edges, e.IsTyped := by
  induction tokens generalizing edges with
  | nil => cases h; simp
  | cons a later ih =>
    obtain ⟨near, hnear, h⟩ := Outcome.bind_ok h
    obtain ⟨rest, hrest, h⟩ := Outcome.bind_ok h
    cases h
    intro e he
    rcases List.mem_append.1 he with he | he
    · unfold Token.derivedFrom at hnear
      split at hnear
      · cases hnear; cases he
      · obtain ⟨like, -, hnear⟩ := Outcome.bind_ok hnear
        cases hnear
        obtain ⟨b, -, rfl⟩ := List.mem_map.1 he
        exact ⟨rfl, rfl, by simp⟩
    · exact ih hrest e he

end Reading

end TokenSet

end Maquette
