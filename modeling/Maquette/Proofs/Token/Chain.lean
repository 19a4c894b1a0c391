/-
Chains of aliases as paths. A path starts at a variable read in a mode; each hop goes from an alias
to the variable it points at, read in the mode that this variable has for it. On tables of the right
kinds, resolving a variable gives the value at the end of its path exactly when the path ends at one
within the allowed number of hops and passes no variable twice, and else leaves the alias that it
began with. So allowing more hops never changes a resolved answer, and allowing as many hops as
there are variables is the same as allowing any number.

The proof is a step lemma for each exit of the search and one for its hop; what a hop preserves is
that the variables passed are distinct and known, and that all other known variables are fresh.
-/
import Maquette.Proofs.Datum
import Maquette.Token.Alias

namespace Maquette.Token

/-! ## Tables of the right kinds -/

/-- The values of a variable by mode; none when they are absent. -/
def modesOf (var : Datum) : List (String × Datum) :=
  (((var.at? "valuesByMode").getD .null).orElse .empty).record?.getD []

/-- A variable whose fields are of their kinds where they are present, and whose aliases point at
texts. -/
structure IsVariable (var : Datum) : Prop where
  isRecord : var.isRecord = true
  values : (((var.at? "valuesByMode").getD .null).orElse .empty).isRecord = true
  collection : ((var.at? "variableCollectionId").getD .null).isKey = true
  targets : ∀ row ∈ modesOf var, isAlias row.2 = true → ∃ id, aliasTarget row.2 = .text id

/-- A table whose entries are variables, or null for none. -/
def AreVariables (vars : Variables) : Prop := ∀ row ∈ vars, row.2 = .null ∨ IsVariable row.2

/-- A table of collections, each of which names its default mode by a key where it names one. -/
def AreCollections (table : Table Datum Datum) : Prop :=
  ∀ row ∈ table, row.2.isRecord = true ∧ ((row.2.at? "defaultModeId").getD .null).isKey = true

/-! ## Paths -/

/-- The variable with an id. -/
def entry (vars : Variables) (id : String) : Option Datum :=
  (List.lookup (.text id) vars).filter (!·.isNull)

/-- The default mode of a variable's collection. -/
def preferredMode (table : Table Datum Datum) (var : Datum) : Option String :=
  (((List.lookup ((var.at? "variableCollectionId").getD .null) table).getD .empty).at?
    "defaultModeId").bind Datum.text?

/-- The mode of a variable that is reached in some mode: the same mode if it has it, else the default
mode of its collection if it has that, else its first one. -/
def readingMode (table : Table Datum Datum) (var : Datum) (mode : Option String) : Option String :=
  mode.filter (Table.hasKey (modesOf var)) <|>
    (preferredMode table var).filter (Table.hasKey (modesOf var)) <|>
    (modesOf var).head?.map (·.1)

/-- A variable and the mode that it is read in, if it has one. -/
structure Place where
  id : String
  mode : Option String
  deriving DecidableEq, Repr

namespace Place

/-- The value at a place, null when there is none. -/
def value (vars : Variables) (p : Place) : Datum :=
  ((entry vars p.id).bind fun var => p.mode.bind ((modesOf var).lookup ·)).getD .null

/-- The place that the alias at a place leads to, if its variable exists. -/
def next? (vars : Variables) (table : Table Datum Datum) (p : Place) : Option Place :=
  if isAlias (p.value vars) then
    (aliasTarget (p.value vars)).text?.bind fun id =>
      (entry vars id).map fun var => ⟨id, readingMode table var p.mode⟩
  else none

end Place

/-- `Path vars table p ids q`: hops lead from `p` through the variables `ids` to `q`. -/
inductive Path (vars : Variables) (table : Table Datum Datum) : Place → List String → Place → Prop
  | refl (p : Place) : Path vars table p [] p
  | hop {p q r : Place} {ids : List String} :
      p.next? vars table = some q → Path vars table q ids r → Path vars table p (q.id :: ids) r

/-- From `p`, the path reaches a value that is no alias through existing, distinct variables within
`depth` hops. -/
def Reaches (vars : Variables) (table : Table Datum Datum) (depth : Nat) (p : Place)
    (chain : List String) (x : Datum) : Prop :=
  ∃ ids q, chain = p.id :: ids ∧ Path vars table p ids q ∧ (entry vars p.id).isSome = true ∧
    chain.Nodup ∧ ids.length ≤ depth ∧ q.value vars = x ∧ isAlias x = false

/-! ## Reading tables -/

theorem lookup_text_map (fields : List (String × Datum)) (m : String) :
    List.lookup (Datum.text m) (fields.map fun (k, v) => (Datum.text k, v)) = fields.lookup m := by
  induction fields with
  | nil => rfl
  | cons row fields ih =>
    have : (Datum.text m == Datum.text row.1) = (m == row.1) := rfl
    rw [List.map_cons, List.lookup_cons, List.lookup_cons, ih, this]

theorem lookup_null_map (fields : List (String × Datum)) :
    List.lookup Datum.null (fields.map fun (k, v) => (Datum.text k, v)) = none := by
  induction fields with
  | nil => rfl
  | cons row fields ih =>
    have : (Datum.null == Datum.text row.1) = false := rfl
    rw [List.map_cons, List.lookup_cons, ih, this]

theorem lookup_text (vars : Variables) (id : String) : lookup vars (.text id) = .ok (entry vars id) :=
  rfl

theorem isVariable_of_lookup {vars : Variables} (hv : AreVariables vars) {id var : Datum}
    (h : lookup vars id = .ok (some var)) : IsVariable var := by
  obtain ⟨key, -, h⟩ := Outcome.bind_ok h
  obtain ⟨h, hn⟩ := Option.filter_eq_some_iff.1 (Except.ok.inj h)
  obtain ⟨k, -, hm⟩ := Table.mem_of_lookup h
  rcases hv _ hm with h0 | h0
  · simp only at h0; subst h0; simp [Datum.isNull] at hn
  · exact h0

theorem isVariable_of_entry {vars : Variables} (hv : AreVariables vars) {id : String} {var : Datum}
    (h : entry vars id = some var) : IsVariable var :=
  isVariable_of_lookup hv ((lookup_text vars id).trans (congrArg Except.ok h))

theorem mem_ids_of_entry {vars : Variables} {id : String} (h : (entry vars id).isSome = true) :
    Datum.text id ∈ vars.map (·.1) := by
  obtain ⟨var, hvar⟩ := Option.isSome_iff_exists.1 h
  obtain ⟨k, hk, hm⟩ := Table.mem_of_lookup (Option.filter_eq_some_iff.1 hvar).1
  rw [Datum.text_same] at hk; subst hk
  exact List.mem_map.2 ⟨_, hm, rfl⟩

/-! ## Reading modes -/

/-- A mode as it is looked up, null when there is none. -/
def modeDatum (mode : Option String) : Datum := (mode.map Datum.text).getD .null

/-- The values of a variable as the record that they are. -/
theorem values_eq {var : Datum} (h : IsVariable var) :
    var.get "valuesByMode" = .ok ((var.at? "valuesByMode").getD .null) ∧
      ((var.at? "valuesByMode").getD .null).orElse .empty = .record (modesOf var) := by
  refine ⟨Datum.get_eq h.isRecord _, ?_⟩
  obtain ⟨fields, hf⟩ := Datum.eq_record h.values
  unfold modesOf; rw [hf]; rfl

theorem valueIn_eq {var : Datum} (h : IsVariable var) (mode : Option String) :
    valueIn var (modeDatum mode) = .ok ((mode.bind ((modesOf var).lookup ·)).getD .null) := by
  obtain ⟨hg, hr⟩ := values_eq h
  unfold valueIn
  rw [hg, Outcome.ok_bind, hr]
  cases mode with
  | none => simp [modeDatum, Datum.rows, Datum.fields, Datum.asKey, Datum.isKey, lookup_null_map]
  | some m =>
    simp [modeDatum, Datum.rows, Datum.fields, Datum.asKey, Datum.isKey, lookup_text_map]

theorem collectionOf_eq {table : Table Datum Datum} {var : Datum} (h : IsVariable var) :
    collectionOf (.ok table) var =
      .ok ((List.lookup ((var.at? "variableCollectionId").getD .null) table).getD .empty) := by
  unfold collectionOf
  rw [Outcome.ok_bind, Datum.get_eq h.isRecord, Outcome.ok_bind]
  simp [Datum.asKey, h.collection]

/-- The default mode that a variable's collection names, as a key. -/
theorem preferred_eq {table : Table Datum Datum} (hc : AreCollections table) (var : Datum) :
    let collection := (List.lookup ((var.at? "variableCollectionId").getD .null) table).getD .empty
    collection.get "defaultModeId" = .ok ((collection.at? "defaultModeId").getD .null) ∧
      ((collection.at? "defaultModeId").getD .null).isKey = true := by
  intro collection
  cases hl : List.lookup ((var.at? "variableCollectionId").getD .null) table with
  | none =>
    have : collection = .empty := by simp [collection, hl]
    rw [this]; exact ⟨rfl, rfl⟩
  | some c =>
    have : collection = c := by simp [collection, hl]
    obtain ⟨k, -, hm⟩ := Table.mem_of_lookup hl
    rw [this]; exact ⟨Datum.get_eq (hc _ hm).1 _, (hc _ hm).2⟩

/-- Whether values by mode hold a key. -/
theorem holds_eq (fields : List (String × Datum)) {d : Datum} (h : d.isKey = true) :
    (Datum.record fields).holds d = .ok ((d.text?.map (Table.hasKey fields)).getD false) := by
  cases d <;> first | rfl | cases h

theorem text?_modeDatum (mode : Option String) : (modeDatum mode).text? = mode := by
  cases mode <;> rfl

/-- A key that is taken when it is a text of some kind, and a mode that is taken otherwise. -/
theorem ite_modeDatum (p : String → Bool) (d : Datum) (rest : Option String) :
    (if (d.text?.map p).getD false = true then (.ok d : Outcome Datum) else .ok (modeDatum rest)) =
      .ok (modeDatum (d.text?.filter p <|> rest)) := by
  cases d with
  | text m => cases hm : p m <;> simp [Datum.text?, modeDatum, Option.filter_some, hm]
  | _ => rfl

theorem modeFor_eq {table : Table Datum Datum} (hc : AreCollections table) {var : Datum}
    (h : IsVariable var) (mode : Option String) :
    modeFor var (modeDatum mode) (.ok table) = .ok (modeDatum (readingMode table var mode)) := by
  obtain ⟨hg, hr⟩ := values_eq h
  obtain ⟨hp, hk⟩ := preferred_eq hc var
  have hm : (modeDatum mode).isKey = true := by cases mode <;> rfl
  have hfirst : (Datum.record (modesOf var)).items =
      .ok ((modesOf var).map fun row => .text row.1) := rfl
  have hhead : ((modesOf var).map fun row => Datum.text row.1).headD .null =
      modeDatum ((modesOf var).head?.map (·.1)) := by cases modesOf var <;> rfl
  have hbind : ∀ q : Option Datum, (q.getD .null).text? = q.bind Datum.text? := by
    rintro (_ | _) <;> rfl
  unfold modeFor
  simp only [hg, Outcome.ok_bind, hr, holds_eq _ hm, holds_eq _ hk, collectionOf_eq h, hp, hfirst,
    hhead, Outcome.pure_eq]
  rw [ite_modeDatum, ite_modeDatum, text?_modeDatum, hbind]
  rfl

/-! ## One step of the search -/

/-- The alias at a place points at a text. -/
theorem target_text {vars : Variables} (hv : AreVariables vars) {p : Place}
    (ha : isAlias (p.value vars) = true) : ∃ id, aliasTarget (p.value vars) = .text id := by
  unfold Place.value at ha ⊢
  cases he : entry vars p.id with
  | none => rw [he] at ha; cases ha
  | some var =>
    cases hm : p.mode.bind ((modesOf var).lookup ·) with
    | none => simp only [he, Option.bind_some, hm] at ha; cases ha
    | some x =>
      simp only [he, Option.bind_some, hm, Option.getD_some] at ha ⊢
      obtain ⟨m, -, hx⟩ := Option.bind_eq_some_iff.1 hm
      obtain ⟨k, -, hmem⟩ := Table.mem_of_lookup hx
      exact (isVariable_of_entry hv he).targets _ hmem ha

theorem contains_text (ids : List String) (id : String) :
    (ids.map Datum.text).contains (.text id) = true ↔ id ∈ ids := by
  rw [List.contains_iff_exists_mem_beq]
  constructor
  · rintro ⟨d, hd, he⟩
    rw [Datum.text_same] at he; subst he
    simpa using hd
  · intro h; exact ⟨_, List.mem_map_of_mem h, Datum.text_same.2 rfl⟩

theorem idTexts_map (ids : List String) : idTexts (ids.map Datum.text) = .ok ids := by
  unfold idTexts
  induction ids with
  | nil => rfl
  | cons id ids ih => rw [List.map_cons, List.mapM_cons, ih]; rfl

/-- The search with another number of hops allowed. -/
def Quest.allowing (q : Quest) (depth : Nat) : Quest := { q with maxDepth := .int depth }

/-- The search at a place, after passing the variables `ids`. -/
def Quest.seek (q : Quest) (fresh : List Datum) (ids : List String) (p : Place) : Run Resolution :=
  q.follow fresh (ids.map .text) (modeDatum p.mode) (p.value q.vars)

/-- What a search knows after passing the variables `ids`: they are distinct and exist, and every
other variable that exists is still fresh. -/
structure Passed (vars : Variables) (fresh : List Datum) (ids : List String) : Prop where
  nodup : ids.Nodup
  known : ∀ id ∈ ids, (entry vars id).isSome = true
  fresh : ∀ id, (entry vars id).isSome = true → id ∉ ids → Datum.text id ∈ fresh

theorem Passed.hop {vars : Variables} {fresh : List Datum} {ids : List String}
    (h : Passed vars fresh ids) {id : String} (he : (entry vars id).isSome = true) (hn : id ∉ ids) :
    Passed vars (fresh.eraseP (· == .text id)) (ids ++ [id]) := by
  refine ⟨?_, ?_, fun other ho hno => ?_⟩
  · refine List.nodup_append.2 ⟨h.nodup, List.nodup_singleton _, fun a ha b hb => ?_⟩
    rw [List.mem_singleton] at hb; subst hb
    rintro rfl; exact hn ha
  · intro other ho
    rcases List.mem_append.1 ho with ho | ho
    · exact h.known other ho
    · rw [List.mem_singleton] at ho; subst ho; exact he
  · rw [List.mem_append, not_or, List.mem_singleton] at hno
    refine (List.mem_eraseP_of_neg ?_).2 (h.fresh other ho hno.1)
    rw [Datum.same_text, Datum.text.injEq]; exact hno.2

/-- A search may not go on once it has passed more variables than hops are allowed. -/
theorem limit_le {depth : Nat} {ids : List String} (h : ids ≠ []) :
    (Number.int depth).le (.int (((ids.map Datum.text).length : Int) - 1)) =
      decide (depth < ids.length) := by
  have hpos := List.length_pos_of_ne_nil h
  have he : (Number.int depth).eq (.int (((ids.map Datum.text).length : Int) - 1)) =
      ((depth : Int) == ((ids.map Datum.text).length : Int) - 1) := rfl
  rw [Number.le, he, Number.lt, List.length_map, Bool.eq_iff_iff]
  simp only [Bool.or_eq_true, decide_eq_true_eq, beq_iff_eq]
  omega

section Steps

variable {q : Quest} {table : Table Datum Datum} {fresh : List Datum} {ids : List String} {p : Place}

/-- A value that is no alias is the answer. -/
theorem seek_value (ha : isAlias (p.value q.vars) = false) :
    q.seek fresh ids p = pure ⟨p.value q.vars, true, ids.map .text⟩ := by
  unfold Quest.seek
  rw [Quest.follow]
  simp only [ha, Bool.not_false, ↓reduceIte]

/-- An alias that is met after all allowed hops leaves the alias that the search began with. -/
theorem seek_beyond (fresh : List Datum) (hn : ids ≠ []) {depth : Nat}
    (ha : isAlias (p.value q.vars) = true) (hd : depth < ids.length) :
    ∃ n, (q.allowing depth).seek fresh ids p =
      (do Run.note n; pure ⟨q.marker, false, ids.map .text⟩) := by
  refine ⟨.longChain q.start.shown q.mode.shown depth ids, ?_⟩
  have hl : (Number.int depth).le (.int (((ids.map Datum.text).length : Int) - 1)) = true := by
    rw [limit_le hn]; exact decide_eq_true hd
  unfold Quest.seek Quest.allowing
  rw [Quest.follow]
  simp only [ha, Datum.number, Datum.number?, hl, idTexts_map, hops, Run.lift_ok, pure_bind,
    Bool.not_true, Bool.false_eq_true, ↓reduceIte]

/-- Within the allowed hops, an alias of a variable that was passed, or of one that does not exist,
leaves the alias that the search began with, and any other is followed. -/
theorem seek_within (hv : AreVariables q.vars) (hcol : q.collections = .ok table)
    (hc : AreCollections table) (hn : ids ≠ []) (hp : Passed q.vars fresh ids)
    (ha : isAlias (p.value q.vars) = true) :
    (∃ n chain, (∀ p', p.next? q.vars table = some p' → p'.id ∈ ids) ∧
      ∀ depth, ids.length ≤ depth → (q.allowing depth).seek fresh ids p =
        (do Run.note n; pure ⟨q.marker, false, chain⟩)) ∨
    (∃ p', p.next? q.vars table = some p' ∧ p'.id ∉ ids ∧ (entry q.vars p'.id).isSome = true ∧
      ∀ depth, ids.length ≤ depth → (q.allowing depth).seek fresh ids p =
        (q.allowing depth).seek (fresh.eraseP (· == .text p'.id)) (ids ++ [p'.id]) p') := by
  obtain ⟨id, hid⟩ := target_text hv ha
  have hl : ∀ depth : Nat, ids.length ≤ depth →
      (Number.int depth).le (.int (((ids.map Datum.text).length : Int) - 1)) = false := by
    intro depth hd; rw [limit_le hn]; exact decide_eq_false (by omega)
  have hnext : p.next? q.vars table =
      (entry q.vars id).map fun var => ⟨id, readingMode table var p.mode⟩ := by
    unfold Place.next?; rw [if_pos ha, hid]; rfl
  by_cases hm : id ∈ ids
  · refine .inl ⟨.aliasCycle q.start.shown q.mode.shown (ids ++ [(Datum.text id).shown]),
      ids.map .text ++ [.text id], fun p' h => ?_, fun depth hd => ?_⟩
    · rw [hnext] at h
      obtain ⟨var, -, rfl⟩ := Option.map_eq_some_iff.1 h
      exact hm
    · unfold Quest.seek Quest.allowing
      rw [Quest.follow]
      simp only [ha, Datum.number, Datum.number?, hl depth hd, idTexts_map, Run.lift_ok, pure_bind,
        hid, lookup_text, (contains_text ids id).2 hm, Bool.not_true, Bool.false_eq_true, ↓reduceIte]
  · have hm' : (ids.map Datum.text).contains (.text id) = false := by
      rw [← Bool.not_eq_true, contains_text]; exact hm
    cases he : entry q.vars id with
    | none =>
      refine .inl ⟨.danglingAlias (Datum.text id).shown q.start.shown q.mode.shown,
        ids.map .text ++ [.text id], fun p' h => ?_, fun depth hd => ?_⟩
      · rw [hnext, he] at h; cases h
      · unfold Quest.seek Quest.allowing
        rw [Quest.follow]
        simp only [ha, Datum.number, Datum.number?, hl depth hd, Run.lift_ok, pure_bind, hid,
          lookup_text, he, hm', Bool.not_true, Bool.false_eq_true, ↓reduceIte]
    | some var =>
      have hvar := isVariable_of_entry hv he
      -- what exists and was not passed is fresh, so the search is not cut off here
      have hf : fresh.any (· == .text id) = true :=
        List.any_eq_true.2 ⟨_, hp.fresh id (by rw [he]; rfl) hm, Datum.same_text.2 rfl⟩
      refine .inr ⟨⟨id, readingMode table var p.mode⟩, by rw [hnext, he]; rfl, hm, by rw [he]; rfl,
        fun depth hd => ?_⟩
      have hval : Place.value q.vars ⟨id, readingMode table var p.mode⟩ =
          ((readingMode table var p.mode).bind ((modesOf var).lookup ·)).getD .null := by
        unfold Place.value; rw [he]; rfl
      unfold Quest.seek Quest.allowing
      rw [Quest.follow]
      simp only [ha, Datum.number, Datum.number?, hl depth hd, Run.lift_ok, pure_bind, hid,
        lookup_text, he, hm', hf, hcol, modeFor_eq hc hvar, valueIn_eq hvar, hval, List.map_append,
        List.map_cons, List.map_nil, Bool.not_true, Bool.false_eq_true, ↓reduceIte, ↓reduceDIte]

theorem length_eraseP_lt (hp : Passed q.vars fresh ids) {id : String}
    (he : (entry q.vars id).isSome = true) (hn : id ∉ ids) :
    (fresh.eraseP (· == .text id)).length < fresh.length := by
  have hm := hp.fresh id he hn
  have := List.length_pos_of_mem hm
  rw [List.length_eraseP_of_mem (p := (· == .text id)) hm (Datum.same_text.2 rfl)]
  omega

end Steps

/-! ## The whole search -/

/-- What the answer `r` to a search at `p` says, after passing the variables `ids`. -/
structure Answers (q : Quest) (table : Table Datum Datum) (depth : Nat) (ids : List String)
    (p : Place) (r : Resolution) : Prop where
  kept : r.resolved = false → r.value = q.marker ∧ isAlias (p.value q.vars) = true
  reached : ∀ x chain, r = ⟨x, true, chain⟩ ↔ ∃ more p', chain = (ids ++ more).map .text ∧
    Path q.vars table p more p' ∧ (ids ++ more).Nodup ∧ (ids ++ more).length ≤ depth + 1 ∧
    p'.value q.vars = x ∧ isAlias x = false

section Search

variable {q : Quest} {table : Table Datum Datum} {fresh : List Datum} {ids : List String} {p : Place}

/-- A path from an alias to a value takes the hop at its start. -/
theorem path_of_alias {ids : List String} {r : Place} (h : Path q.vars table p ids r)
    (ha : isAlias (p.value q.vars) = true) (hr : isAlias (r.value q.vars) = false) :
    ∃ p' more, p.next? q.vars table = some p' ∧ ids = p'.id :: more ∧ Path q.vars table p' more r := by
  cases h with
  | refl => rw [ha] at hr; cases hr
  | hop hn h => exact ⟨_, _, hn, rfl, h⟩

/-- An alias from which no answer can be reached leaves the alias that the search began with. -/
theorem answers_marker {depth : Nat} (ha : isAlias (p.value q.vars) = true) (chain : List Datum)
    (h : ∀ p', p.next? q.vars table = some p' → depth < ids.length ∨ p'.id ∈ ids) :
    Answers q table depth ids p ⟨q.marker, false, chain⟩ := by
  refine ⟨fun _ => ⟨rfl, ha⟩, fun x chain => ⟨fun h => (by cases h), ?_⟩⟩
  rintro ⟨more, r, -, hpath, hnd, hle, rfl, hx⟩
  obtain ⟨p', rest, hn, rfl, -⟩ := path_of_alias hpath ha hx
  rcases h p' hn with hd | hm
  · rw [List.length_append, List.length_cons] at hle; omega
  · exact absurd rfl ((List.nodup_append.1 hnd).2.2 _ hm _ List.mem_cons_self)

/-- A value that is no alias is the answer at its place, and no path leads on from it. -/
theorem answers_value {depth : Nat} (ha : isAlias (p.value q.vars) = false)
    (hp : Passed q.vars fresh ids) (hd : ids.length ≤ depth + 1) :
    Answers q table depth ids p ⟨p.value q.vars, true, ids.map .text⟩ := by
  refine ⟨fun h => (by cases h), fun x chain => ⟨fun h => ?_, ?_⟩⟩
  · cases h
    exact ⟨[], p, by rw [List.append_nil], .refl p, by rw [List.append_nil]; exact hp.nodup,
      by rw [List.append_nil]; exact hd, rfl, ha⟩
  · rintro ⟨more, r, rfl, hpath, -, -, rfl, -⟩
    cases hpath with
    | refl => rw [List.append_nil]
    | hop hn _ =>
      unfold Place.next? at hn
      rw [ha] at hn; cases hn

/-- The answer after a hop is the answer before it. -/
theorem Answers.hop {depth : Nat} {p' : Place} {r : Resolution}
    (ha : isAlias (p.value q.vars) = true) (hn : p.next? q.vars table = some p')
    (h : Answers q table depth (ids ++ [p'.id]) p' r) : Answers q table depth ids p r := by
  refine ⟨fun hr => ⟨(h.kept hr).1, ha⟩, fun x chain => ?_⟩
  rw [h.reached]
  constructor
  · rintro ⟨more, r, rfl, hpath, hnd, hle, hx⟩
    rw [List.append_assoc, List.singleton_append] at hnd hle ⊢
    exact ⟨_, r, rfl, .hop hn hpath, hnd, hle, hx⟩
  · rintro ⟨more, r, rfl, hpath, hnd, hle, rfl, hx⟩
    obtain ⟨p'', rest, hn', rfl, hrest⟩ := path_of_alias hpath ha hx
    rw [hn] at hn'; cases hn'
    rw [← List.singleton_append, ← List.append_assoc] at hnd hle ⊢
    exact ⟨rest, r, rfl, hrest, hnd, hle, rfl, hx⟩

end Search

/-- A search with `depth` hops ends in an answer, and notes nothing when that is a value. -/
theorem seek_answers {q : Quest} {table : Table Datum Datum} (hv : AreVariables q.vars)
    (hcol : q.collections = .ok table) (hc : AreCollections table) (depth : Nat) (ns : List Notice)
    {fresh : List Datum} {ids : List String} {p : Place} (hn : ids ≠ [])
    (hp : Passed q.vars fresh ids) (hd : ids.length ≤ depth + 1) :
    ∃ r ms, ((q.allowing depth).seek fresh ids p).after ns = (.ok r, ms) ∧
      Answers q table depth ids p r ∧ (r.resolved = true → ms = ns) := by
  cases ha : isAlias (p.value q.vars) with
  | false =>
    exact ⟨_, ns, by rw [seek_value (q := q.allowing depth) ha]; rfl, answers_value ha hp hd,
      fun _ => rfl⟩
  | true =>
    by_cases hd : depth < ids.length
    · obtain ⟨n, h⟩ := seek_beyond fresh hn ha hd
      exact ⟨_, _, by rw [h]; rfl, answers_marker ha _ fun _ _ => .inl hd, fun h => by cases h⟩
    · rcases seek_within hv hcol hc hn hp ha with ⟨n, chain, hs, h⟩ | ⟨p', hs, hni, he, h⟩
      · exact ⟨_, _, by rw [h depth (by omega)]; rfl, answers_marker ha _ fun p' h => .inr (hs p' h),
          fun h => by cases h⟩
      · -- the variable that is hopped to is fresh no more
        have := length_eraseP_lt hp he hni
        obtain ⟨r, ms, hr, hA, hm⟩ := seek_answers hv hcol hc depth ns (p := p')
          (List.append_ne_nil_of_right_ne_nil ids (List.cons_ne_nil p'.id [])) (hp.hop he hni)
          (by rw [List.length_append, List.length_singleton]; omega)
        exact ⟨r, ms, by rw [h depth (by omega)]; exact hr, hA.hop ha hs, hm⟩
termination_by fresh.length

/-! ## As many hops as there are variables -/

/-- Distinct variables that exist are no more than there are variables. -/
theorem Passed.length_le {vars : Variables} {fresh : List Datum} {ids : List String}
    (h : Passed vars fresh ids) : ids.length ≤ vars.length := by
  have hnd : (ids.map Datum.text).Nodup := h.nodup.map fun _ _ => Datum.text.inj
  have hsub : ids.map Datum.text ⊆ vars.map (·.1) := by
    intro d hd
    obtain ⟨id, hid, rfl⟩ := List.mem_map.1 hd
    exact mem_ids_of_entry (h.known id hid)
  have := (List.subperm_of_subset hnd hsub).length_le
  rwa [List.length_map, List.length_map] at this

/-- Beyond the number of variables, the number of hops allowed makes no difference. -/
theorem seek_saturated {q : Quest} {table : Table Datum Datum} (hv : AreVariables q.vars)
    (hcol : q.collections = .ok table) (hc : AreCollections table) {d d' : Nat}
    (hd : q.vars.length ≤ d) (hd' : q.vars.length ≤ d')
    {fresh : List Datum} {ids : List String} {p : Place} (hn : ids ≠ [])
    (hp : Passed q.vars fresh ids) :
    (q.allowing d).seek fresh ids p = (q.allowing d').seek fresh ids p := by
  -- the variables passed are no more than the hops that either limit allows
  have hle := hp.length_le
  cases ha : isAlias (p.value q.vars) with
  | false => rw [seek_value (q := q.allowing d) ha, seek_value (q := q.allowing d') ha]; rfl
  | true =>
    rcases seek_within hv hcol hc hn hp ha with ⟨n, chain, -, h⟩ | ⟨p', -, hni, he, h⟩
    · rw [h d (by omega), h d' (by omega)]
    · have := length_eraseP_lt hp he hni
      rw [h d (by omega), h d' (by omega)]
      exact seek_saturated hv hcol hc hd hd'
        (List.append_ne_nil_of_right_ne_nil ids (List.cons_ne_nil p'.id [])) (hp.hop he hni)
termination_by fresh.length

/-! ## Resolving -/

/-- The search that resolving a variable makes. -/
theorem resolve_seek {vars : Variables} (hv : AreVariables vars) (table : Table Datum Datum)
    (id mode : String) {var : Datum} (he : entry vars id = some var) :
    ∃ fresh, Passed vars fresh [id] ∧ ∀ depth : Nat,
      resolve vars (.ok table) (.int depth) (.text id) (.text mode) =
        (Quest.allowing ⟨.text id, .text mode, Place.value vars ⟨id, some mode⟩, vars, .ok table,
          .null⟩ depth).seek fresh [id] ⟨id, some mode⟩ := by
  have hvar := isVariable_of_entry hv he
  refine ⟨(vars.map (·.1)).eraseP (· == .text id), ⟨List.nodup_singleton _, ?_, ?_⟩, fun depth => ?_⟩
  · intro other ho
    rw [List.mem_singleton] at ho; subst ho; rw [he]; rfl
  · intro other ho hno
    rw [List.mem_singleton] at hno
    refine (List.mem_eraseP_of_neg ?_).2 (mem_ids_of_entry ho)
    rw [Datum.same_text, Datum.text.injEq]; exact hno
  · have hval : Place.value vars ⟨id, some mode⟩ = (List.lookup mode (modesOf var)).getD .null := by
      unfold Place.value; rw [he]; rfl
    have hmarker : valueIn var (.text mode) = .ok ((List.lookup mode (modesOf var)).getD .null) :=
      valueIn_eq hvar (some mode)
    unfold resolve Quest.seek Quest.allowing
    simp only [lookup_text, he, Run.lift_ok, pure_bind, hmarker, hval]
    rfl

/-- On tables of the right kinds, resolving a variable always ends in an answer. It is a value with
its chain exactly when the path from the variable reaches this value through this chain of existing,
distinct variables within the allowed hops; else, for a variable that exists, it is the alias that
the path begins with. A resolved answer notes nothing and stays as it is when more hops are allowed,
and any number of hops beyond the number of variables gives the same answer. -/
theorem resolve_reaches {vars : Variables} {table : Table Datum Datum} (hv : AreVariables vars)
    (hc : AreCollections table) (id mode : String) (depth : Nat) :
    let start : Place := ⟨id, some mode⟩
    let answer (d : Nat) :=
      (resolve vars (.ok table) (.int d) (.text id) (.text mode)).exec
    ∃ r notices, answer depth = (.ok r, notices) ∧
      (∀ x chain, r = ⟨x, true, chain⟩ ↔
        ∃ ids, chain = ids.map .text ∧ Reaches vars table depth start ids x) ∧
      ((entry vars id).isSome = true → r.resolved = false →
        r.value = start.value vars ∧ isAlias r.value = true) ∧
      (r.resolved = true → notices = [] ∧ ∀ d, depth ≤ d → answer d = answer depth) ∧
      (∀ d, vars.length ≤ d → answer d = answer vars.length) := by
  intro start answer
  cases he : entry vars id with
  | none =>
    have h : ∀ d, answer d = (.ok ⟨.null, false, [.text id]⟩, [.unknownVariable id]) := by
      intro d
      show (resolve vars (.ok table) (.int d) (.text id) (.text mode)).exec = _
      unfold resolve
      simp only [lookup_text, he, Run.lift_ok, pure_bind]
      rfl
    refine ⟨_, _, h depth, fun x chain => ⟨fun h => (by cases h), ?_⟩, fun h => (by cases h),
      fun h => (by cases h), fun d _ => by rw [h, h]⟩
    rintro ⟨ids, -, hops, q, -, -, hs, -⟩
    rw [show entry vars start.id = none from he] at hs; cases hs
  | some var =>
    obtain ⟨fresh, hp, hseek⟩ := resolve_seek hv table id mode he
    let q : Quest := ⟨.text id, .text mode, start.value vars, vars, .ok table, .null⟩
    have hanswer : ∀ d : Nat, answer d = (((q.allowing d).seek fresh [id] start).after []) := fun d =>
      congrArg Run.exec (hseek d)
    have hone : [id] ≠ [] := List.cons_ne_nil _ _
    -- an answer to the search is an answer to the question, as the chain begins with the variable
    have hreach : ∀ {d r}, Answers q table d [id] start r → ∀ x chain, r = ⟨x, true, chain⟩ ↔
        ∃ ids, chain = ids.map .text ∧ Reaches vars table d start ids x := by
      intro d r hA x chain
      rw [hA.reached]
      constructor
      · rintro ⟨more, p', rfl, hpath, hnd, hle, hx⟩
        exact ⟨id :: more, rfl, more, p', rfl, hpath, by rw [he]; rfl, hnd, by simpa using hle, hx⟩
      · rintro ⟨ids, rfl, more, p', rfl, hpath, -, hnd, hle, hx⟩
        exact ⟨more, p', rfl, hpath, hnd, by simpa using hle, hx⟩
    have hsearch : ∀ d, ∃ r ms, answer d = (.ok r, ms) ∧ Answers q table d [id] start r ∧
        (r.resolved = true → ms = []) := by
      intro d
      obtain ⟨r, ms, hr, hA, hm⟩ := seek_answers (q := q) hv rfl hc d [] hone hp (by simp)
      exact ⟨r, ms, (hanswer d).trans hr, hA, hm⟩
    obtain ⟨r, ms, hr, hA, hm⟩ := hsearch depth
    refine ⟨r, ms, hr, hreach hA, fun _ hf => ?_, fun ht => ⟨hm ht, fun d hd => ?_⟩, fun d hd => ?_⟩
    · obtain ⟨h1, h2⟩ := hA.kept hf
      exact ⟨h1, h1 ▸ h2⟩
    · -- the path within `depth` hops is one within `d`
      obtain ⟨r', ms', hr', hA', hm'⟩ := hsearch d
      obtain ⟨x, b, chain⟩ := r
      simp only at ht; subst ht
      obtain ⟨ids, hchain, more, p', hids, hpath, hs, hnd, hle, hx⟩ := (hreach hA x chain).1 rfl
      obtain rfl := (hreach hA' x chain).2
        ⟨ids, hchain, more, p', hids, hpath, hs, hnd, hle.trans hd, hx⟩
      rw [hr', hr, hm rfl, hm' rfl]
    · rw [hanswer d, hanswer vars.length, seek_saturated (q := q) hv rfl hc hd le_rfl hone hp]

/-! ## A table with a chain and a cycle -/

/-- An alias of `b` in a collection that is light and dark, `b` in one that is plain, and two
variables that point at each other. -/
def sampleVariables : List (Datum × Datum) :=
  let link (id : String) : Datum := .record [("type", .text "VARIABLE_ALIAS"), ("id", .text id)]
  let var (collection : String) (values : List (String × Datum)) : Datum :=
    .record [("variableCollectionId", .text collection), ("valuesByMode", .record values)]
  [(.text "a", var "shades" [("light", .text "white"), ("dark", link "b")]),
    (.text "b", var "plain" [("first", .text "grey"), ("base", .text "black")]),
    (.text "x", var "shades" [("dark", link "y")]),
    (.text "y", var "shades" [("dark", link "x")])]

/-- Their collections; a plain variable is read in its base mode by default. -/
def sampleCollections : List (Datum × Datum) :=
  [(.text "shades", .record []), (.text "plain", .record [("defaultModeId", .text "base")])]

theorem areVariables_sample : AreVariables sampleVariables := by
  have one : ∀ (collection : String) (first : String × Datum) (values : List (String × Datum)),
      (∀ row ∈ first :: values, isAlias row.2 = true → ∃ id, aliasTarget row.2 = .text id) →
      IsVariable (.record [("variableCollectionId", .text collection),
        ("valuesByMode", .record (first :: values))]) := fun _ _ _ h => ⟨rfl, rfl, rfl, h⟩
  intro row hrow
  simp only [sampleVariables, List.mem_cons, List.not_mem_nil, or_false] at hrow
  rcases hrow with rfl | rfl | rfl | rfl <;> refine .inr (one _ _ _ fun value hvalue ha => ?_) <;>
    simp only [List.mem_cons, List.not_mem_nil, or_false] at hvalue
  · rcases hvalue with rfl | rfl
    · cases ha
    · exact ⟨_, rfl⟩
  · rcases hvalue with rfl | rfl <;> cases ha
  all_goals subst hvalue; exact ⟨_, rfl⟩

theorem areCollections_sample : AreCollections sampleCollections := by
  intro row hrow
  simp only [sampleCollections, List.mem_cons, List.not_mem_nil, or_false] at hrow
  rcases hrow with rfl | rfl <;> exact ⟨rfl, rfl⟩

/-- In the dark mode, `a` is what `b` is by default, in one hop or more. -/
theorem resolve_sample : AreVariables sampleVariables ∧ AreCollections sampleCollections ∧
    ∀ d : Nat, 1 ≤ d →
      (resolve sampleVariables (.ok sampleCollections) (.int d) (.text "a") (.text "dark")).exec =
        (.ok ⟨.text "black", true, [.text "a", .text "b"]⟩, []) := by
  refine ⟨areVariables_sample, areCollections_sample, ?_⟩
  obtain ⟨r, notices, hr, hreach, -, hmore, -⟩ :=
    resolve_reaches areVariables_sample areCollections_sample "a" "dark" 1
  have hpath : Path sampleVariables sampleCollections ⟨"a", some "dark"⟩ ["b"] ⟨"b", some "base"⟩ :=
    .hop (q := ⟨"b", some "base"⟩) rfl (.refl _)
  obtain rfl := (hreach (.text "black") [.text "a", .text "b"]).2
    ⟨["a", "b"], rfl, _, _, rfl, hpath, rfl, by decide, by decide, rfl, rfl⟩
  obtain ⟨rfl, hsame⟩ := hmore rfl
  exact fun d hd => (hsame d hd).trans hr

end Maquette.Token
