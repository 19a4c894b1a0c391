/-
The values that tokens hold. A number that is an integer is held as one, so an integer that is held
has a double and a double that is held is no integer; then numbers that are equal are the same. What
is built from a table of variables holds such values only, each under the name of a mode, and every
mode of a token is listed once among the modes of the whole.
-/
import Maquette.Proofs.Decimal.Integral
import Maquette.Proofs.Token.SetShape

namespace Maquette

open Outline (IsText IsListOf)

/-! ## Keys -/

section Keys

variable {α : Type} {key : Datum} {s : String} {v : α}

theorem Table.mem_keys_set : ∀ {t : Table Datum α},
    key ∈ (t.set (.text s) v).map (·.1) ↔ key ∈ t.map (·.1) ∨ key = .text s
  | [] => by simp [Table.set_nil]
  | (k, w) :: t => by
    rw [Table.set_cons]
    split
    · rename_i hk
      rw [Datum.same_text.1 hk, List.map_cons, List.map_cons, List.mem_cons]
      exact ⟨.inl, fun h => h.elim id .inl⟩
    · rw [List.map_cons, List.map_cons, List.mem_cons, List.mem_cons, mem_keys_set, or_assoc]

theorem Table.nodup_keys_set : ∀ {t : Table Datum α},
    (t.map (·.1)).Nodup → ((t.set (.text s) v).map (·.1)).Nodup
  | [], _ => by simp [Table.set_nil]
  | (k, w) :: t, h => by
    obtain ⟨hk, ht⟩ := List.nodup_cons.1 h
    rw [Table.set_cons]
    split
    · exact h
    · rename_i hne
      refine List.nodup_cons.2 ⟨fun hmem => ?_, nodup_keys_set ht⟩
      rcases mem_keys_set.1 hmem with hmem | rfl
      · exact hk hmem
      · exact hne (Datum.same_text.2 rfl)

theorem Datum.beq_text (k s : String) : (Datum.text k == Datum.text s) = decide (k = s) := rfl

theorem Table.lookup_set (k : String) {t : Table Datum α} :
    (t.set (.text s) v).lookup (.text k) = if k = s then some v else t.lookup (.text k) := by
  rw [lookup_set_of_same (fun _ => Datum.same_text) (fun _ => Datum.text_same), Datum.beq_text]
  by_cases hk : k = s <;> simp [hk]

/-- In a table of rows the last row of a key counts. -/
theorem Table.lookup_ofRows {rows : List (Datum × α)} (h : ∀ row ∈ rows, IsText row.1) (k : String) :
    (Table.ofRows rows).lookup (.text k) = rows.reverse.lookup (.text k) := by
  have hfold : ∀ t : Table Datum α, (rows.foldl (fun t row => t.set row.1 row.2) t).lookup (.text k) =
      (rows.reverse.lookup (.text k)).or (t.lookup (.text k)) := by
    induction rows with
    | nil => exact fun t => rfl
    | cons row rows ih =>
      intro t
      obtain ⟨hrow, hrows⟩ := List.forall_mem_cons.1 h
      obtain ⟨s, hs⟩ := Outline.eq_text hrow
      rw [List.foldl_cons, ih hrows, hs, lookup_set, List.reverse_cons, List.lookup_append,
        List.lookup_cons, hs, Datum.beq_text]
      by_cases hk : k = s <;> simp [hk]
  rw [Table.ofRows, hfold []]
  simp

end Keys

namespace Token

/-! ## Values -/

/-- A value as tokens hold it. -/
inductive IsHeld : Datum → Prop
  | bool (b : Bool) : IsHeld (.bool b)
  | int (n : Int) : (Decimal.ofInt? n).isSome = true → IsHeld (.int n)
  | float (x : Float) : Decimal.isIntegral x = false → IsHeld (.float x)
  | text (s : String) : IsHeld (.text s)
  | reference (d : Datum) (id : String) : isAlias d = true → aliasTarget d = .text id → IsHeld d

theorem IsHeld.aliasTarget_text {value : Datum} (h : IsHeld value) (ha : isAlias value = true) :
    ∃ id, aliasTarget value = .text id := by
  cases h with
  | reference d id _ ht => exact ⟨id, ht⟩
  | _ => cases ha

theorem tokenValue_held {value held : Datum} (h : tokenValue value = .ok held)
    (ht : isAlias value = true → ∃ id, aliasTarget value = .text id) : IsHeld held := by
  unfold tokenValue at h
  -- an alias and a color come first, then each kind of plain value
  split at h
  · rename_i ha
    cases h
    obtain ⟨id, hid⟩ := ht ha
    exact .reference value id ha hid
  split at h
  · obtain ⟨s, -, h⟩ := Outcome.bind_ok h
    cases h
    exact .text s
  cases value with
  | bool b => cases h; exact .bool b
  | int n =>
    obtain ⟨x, hx, h⟩ := Outcome.bind_ok h
    cases h
    refine .int n ?_
    simp only [Number.toFloat] at hx
    cases hn : Decimal.ofInt? n with
    | none => rw [hn] at hx; cases hx
    | some x => rfl
  | float x =>
    cases h
    cases hx : Decimal.isIntegral x with
    | false => exact .float x hx
    | true =>
      obtain ⟨n, hcut, hn⟩ := Decimal.truncate?_integral hx
      rw [hcut]
      exact .int n hn
  | null => cases h; exact .text ""
  | _ => cases h; exact .text _

end Token

namespace TokenSet

open Token (IsHeld AreVariables)

/-! ## Gathering -/

/-- The modes that values were gathered for. -/
def Gathered.labels (g : Gathered) : List Datum := g.modeValues.map (·.1)

/-- What is gathered are held values of known kinds under modes that are listed; a default value is
one of them, or empty. -/
structure Gathered.Holds (g : Gathered) : Prop where
  kinds : ∀ t ∈ g.tokens, t.kind ∈ Token.kinds
  defaults : ∀ t ∈ g.tokens, t.value = .text "" ∨ ∃ row ∈ t.modes, t.value = row.2
  modes : ∀ t ∈ g.tokens, ∀ row ∈ t.modes, row.1 ∈ g.labels ∧ IsHeld row.2
  labels : ∀ label ∈ g.labels, IsText label
  distinct : g.labels.Nodup

theorem Gathered.Holds.value_held {g : Gathered} (hg : g.Holds) {t : Token} (ht : t ∈ g.tokens) :
    IsHeld t.value := by
  rcases hg.defaults t ht with hvalue | ⟨row, hrow, hvalue⟩
  · rw [hvalue]
    exact .text ""
  · rw [hvalue]
    exact (hg.modes t ht row hrow).2

/-- Where the names of modes are told, they are texts, and so are the ids of variables. -/
structure AreLabelled (vars : Token.Variables) (table : Table Datum Datum) : Prop where
  ids : ∀ row ∈ vars, IsText row.1
  modes : ∀ row ∈ table, row.2.Part "modes" (IsListOf fun mode => mode.Part "name" IsText)

section Reading

variable {ctx : Context} {g g' : Gathered} {ns ms : List Notice}

/-- Reading one mode of a variable adds its label, and a held value under it. -/
theorem readMode_holds (hv : AreVariables ctx.vars) {var : Reading}
    (hnames : ∀ row ∈ var.modeNames, row.2 = .null ∨ IsText row.2) {modes modes' : Modes}
    {mode : String} {raw : Datum} (hg : g.Holds)
    (hm : ∀ row ∈ modes.values, row.1 ∈ g.labels ∧ IsHeld row.2)
    (h : (readMode ctx var (g, modes) mode raw).after ns = (.ok (g', modes'), ms)) :
    g'.Holds ∧ g'.tokens = g.tokens ∧ ∀ row ∈ modes'.values, row.1 ∈ g'.labels ∧ IsHeld row.2 := by
  obtain ⟨result, ns', hresult, h⟩ := Run.after_bind_ok h
  obtain ⟨value, hvalue, h⟩ := Run.after_lift_bind_ok h
  obtain ⟨label, hlabel, h⟩ := Run.after_lift_bind_ok h
  obtain ⟨key, -, h⟩ := Run.after_lift_bind_ok h
  obtain ⟨target, -, h⟩ := Run.after_lift_bind_ok h
  have hheld : IsHeld value := Token.tokenValue_held hvalue (Token.resolve_target hv hresult)
  obtain ⟨name, rfl⟩ := Outline.eq_text (modeName_text hnames hlabel)
  -- the edges that are added do not matter here
  have hg' : g'.tokens = g.tokens ∧ (∃ row, g'.modeValues = g.modeValues.set (.text name) row) ∧
      modes'.values = modes.values.set (.text name) value := by
    cases target with
    | none => cases h; exact ⟨rfl, ⟨_, rfl⟩, rfl⟩
    | some target => cases h; exact ⟨rfl, ⟨_, rfl⟩, rfl⟩
  obtain ⟨htokens, ⟨row, hrow⟩, hvalues⟩ := hg'
  have hmem : ∀ label, label ∈ g'.labels ↔ label ∈ g.labels ∨ label = .text name := by
    intro label
    rw [Gathered.labels, hrow]
    exact Table.mem_keys_set
  refine ⟨⟨?_, ?_, ?_, ?_, ?_⟩, htokens, ?_⟩
  · rw [htokens]
    exact hg.kinds
  · rw [htokens]
    exact hg.defaults
  · rw [htokens]
    intro t ht row hrow
    exact ⟨(hmem _).2 (.inl (hg.modes t ht row hrow).1), (hg.modes t ht row hrow).2⟩
  · intro label hlabel
    rcases (hmem label).1 hlabel with hlabel | rfl
    · exact hg.labels label hlabel
    · rfl
  · rw [Gathered.labels, hrow]
    exact Table.nodup_keys_set hg.distinct
  · rw [hvalues]
    refine Table.forall_set (P := (· ∈ g'.labels)) ((hmem _).2 (.inr rfl)) hheld fun row hrow => ?_
    exact ⟨(hmem _).2 (.inl (hm row hrow).1), (hm row hrow).2⟩

/-- Reading a variable adds one token, of the variable's id and name. -/
theorem readVariable_holds {table : Table Datum Datum} (hv : AreVariables ctx.vars)
    (hl : AreLabelled ctx.vars table) (hcol : ctx.collections = .ok table) {id var : Datum}
    (hg : g.Holds) (h : (readVariable ctx g id var).after ns = (.ok g', ms)) :
    g'.Holds ∧ ∃ t, g'.tokens = g.tokens ++ [t] ∧ t.variableId = id ∧
      .text t.name = (ctx.names.lookup id).getD .null := by
  obtain ⟨type, -, h⟩ := Run.after_lift_bind_ok h
  obtain ⟨collection, hcollection, h⟩ := Run.after_lift_bind_ok h
  obtain ⟨names, hnames, h⟩ := Run.after_lift_bind_ok h
  obtain ⟨preferred, -, h⟩ := Run.after_lift_bind_ok h
  obtain ⟨defaultMode, -, h⟩ := Run.after_lift_bind_ok h
  obtain ⟨values, -, h⟩ := Run.after_lift_bind_ok h
  obtain ⟨⟨gathered, modes⟩, ns', hread, h⟩ := Run.after_bind_ok h
  obtain ⟨scopes, -, h⟩ := Run.after_lift_bind_ok h
  obtain ⟨kind, hkind, h⟩ := Run.after_lift_bind_ok h
  obtain ⟨label, -, h⟩ := Run.after_lift_bind_ok h
  obtain ⟨text, htext, h⟩ := Run.after_lift_bind_ok h
  obtain ⟨title, -, h⟩ := Run.after_lift_bind_ok h
  obtain ⟨description, -, h⟩ := Run.after_lift_bind_ok h
  obtain ⟨raw, -, h⟩ := Run.after_lift_bind_ok h
  obtain ⟨target, -, h⟩ := Run.after_lift_bind_ok h
  cases h
  rw [hcol] at hcollection
  have hmodes := modeNames_text
    (collectionOf_all (P := (Datum.Part · "modes" _)) hl.modes (Outline.part_empty _ _) hcollection)
    hnames
  -- each mode keeps what is gathered as it should be, and adds no token
  have hall : gathered.Holds ∧ gathered.tokens = g.tokens ∧
      ∀ row ∈ modes.values, row.1 ∈ gathered.labels ∧ IsHeld row.2 := by
    refine Run.foldlM_ok (P := fun _ state => state.1.Holds ∧ state.1.tokens = g.tokens ∧
      ∀ row ∈ state.2.values, row.1 ∈ state.1.labels ∧ IsHeld row.2) ?_ ⟨hg, rfl, by simp⟩ hread
    rintro - ⟨mode, raw⟩ ⟨g₁, modes₁⟩ ⟨g₂, modes₂⟩ ns ms - ⟨hg₁, htokens, hm⟩ h
    obtain ⟨hg₂, htokens₂, hm₂⟩ := readMode_holds hv hmodes hg₁ hm h
    exact ⟨hg₂, htokens₂.trans htokens, hm₂⟩
  obtain ⟨hgathered, htokens, hm⟩ := hall
  have hvalue : (modes.values.lookup label).getD (.text "") = .text "" ∨
      ∃ row ∈ modes.values, (modes.values.lookup label).getD (.text "") = row.2 :=
    Table.lookup_getD (P := fun d => d = .text "" ∨ ∃ row ∈ modes.values, d = row.2)
      (fun row hrow => .inr ⟨row, hrow, rfl⟩) (.inl rfl)
  refine ⟨⟨?_, ?_, ?_, hgathered.labels, hgathered.distinct⟩, _, by rw [htokens], rfl,
    (Datum.eq_text htext).symm⟩
  · intro t ht
    rcases List.mem_append.1 ht with ht | ht
    · exact hgathered.kinds t ht
    · obtain rfl := List.mem_singleton.1 ht
      exact Token.kindOf_mem hkind
  · intro t ht
    rcases List.mem_append.1 ht with ht | ht
    · exact hgathered.defaults t ht
    · obtain rfl := List.mem_singleton.1 ht
      exact hvalue
  · intro t ht
    rcases List.mem_append.1 ht with ht | ht
    · exact hgathered.modes t ht
    · obtain rfl := List.mem_singleton.1 ht
      exact hm

end Reading

/-! ## Building -/

/-- What a set holds when it was built from a table of variables. -/
structure Holds (s : TokenSet) (vars : Token.Variables) : Prop where
  gathered : Gathered.Holds ⟨s.tokens, s.modeValues, s.edges⟩
  ids : s.tokens.map (·.variableId) = vars.map (·.1)
  names : ∀ t ∈ s.tokens, .text t.name = ((Token.namesOf vars).lookup t.variableId).getD .null

/-- Tokens come from variables, so their ids are texts if those of the variables are. -/
theorem Holds.variableId_text {s : TokenSet} {vars : Token.Variables} (hs : s.Holds vars)
    (hids : ∀ row ∈ vars, IsText row.1) : ∀ t ∈ s.tokens, IsText t.variableId := by
  intro t ht
  have hmem : t.variableId ∈ vars.map (·.1) := by
    rw [← hs.ids]
    exact List.mem_map_of_mem ht
  obtain ⟨row, hrow, hid⟩ := List.mem_map.1 hmem
  rw [← hid]
  exact hids row hrow

theorem build_holds {vars : Token.Variables} {table : Table Datum Datum} {walks : List Walked}
    {maxDepth : Datum} {s : TokenSet} {ns : List Notice} (hv : AreVariables vars)
    (hl : AreLabelled vars table)
    (h : (build vars (.ok table) (.ok walks) maxDepth).exec = (.ok s, ns)) : s.Holds vars := by
  obtain ⟨names, hnames, h⟩ := Run.after_lift_bind_ok h
  obtain ⟨g, ns', hg, h⟩ := Run.after_bind_ok h
  obtain ⟨derived, -, h⟩ := Run.after_lift_bind_ok h
  obtain ⟨walks', -, h⟩ := Run.after_lift_bind_ok h
  obtain ⟨usage, -, h⟩ := Run.after_lift_bind_ok h
  cases h
  obtain ⟨-, rfl⟩ := Token.variableNames_eq hnames
  -- each variable adds a token of its id and name to those of the variables before it
  have hall : g.Holds ∧ g.tokens.map (·.variableId) = vars.map (·.1) ∧
      ∀ t ∈ g.tokens, .text t.name = ((Token.namesOf vars).lookup t.variableId).getD .null := by
    refine Run.foldlM_ok (P := fun before g => Gathered.Holds g ∧
      g.tokens.map (·.variableId) = before.map (·.1) ∧
      ∀ t ∈ g.tokens, .text t.name = ((Token.namesOf vars).lookup t.variableId).getD .null)
      ?_ ⟨⟨?_, ?_, ?_, ?_, ?_⟩, rfl, ?_⟩ hg
    · rintro before ⟨id, v⟩ g g' ns ms - ⟨hg, hids, hnames⟩ h
      obtain ⟨hg', t, htokens, rfl, ht⟩ := readVariable_holds hv hl rfl hg h
      refine ⟨hg', ?_, ?_⟩
      · rw [htokens, List.map_append, List.map_append, hids]
        rfl
      · rw [htokens]
        exact List.forall_mem_append.2 ⟨hnames, List.forall_mem_singleton.2 ht⟩
    all_goals simp [Gathered.labels]
  obtain ⟨hgathered, hids, hnames⟩ := hall
  exact ⟨⟨hgathered.kinds, hgathered.defaults, hgathered.modes, hgathered.labels, hgathered.distinct⟩,
    hids, hnames⟩

end TokenSet

end Maquette
