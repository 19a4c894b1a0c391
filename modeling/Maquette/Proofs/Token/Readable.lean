/-
Tables of variables that can be read through. Modes go by the names that collections have for them;
a variable is resolved to one value in a mode, whatever was noted before, and if the values of the
table can be written, so can this one, in every spelling that it is compared in. Values that are held
can be compared with each other unless they are spelled as colors too far apart.
-/
import Maquette.Proofs.Token.Held
import Maquette.Proofs.Token.Score
import Maquette.Proofs.Token.Usage

namespace Maquette

open Outline (IsText)

namespace Token

/-! ## Names of modes -/

/-- The collection of a variable, empty when there is none. -/
def collectionIn (table : Table Datum Datum) (var : Datum) : Datum :=
  (List.lookup ((var.at? "variableCollectionId").getD .null) table).getD .empty

/-- The modes of a variable by their ids. -/
def modeIds (var : Datum) : List String := (modesOf var).map Prod.fst

/-- The name that a collection has for a mode. -/
def titleOf (collection : Datum) (mode : String) : Option String :=
  ((TokenSet.modeNames collection).toOption.bind fun names =>
    (names.lookup (.text mode)).bind Datum.text?).filter (· ≠ "")

/-- What a mode goes by: its name, or its id when it has none. -/
def labelOf (collection : Datum) (mode : String) : String := (titleOf collection mode).getD mode

/-- The names of a collection tell modes apart: no two modes have the same name, and no name is the
id of a mode that has none. -/
structure TellsApart (collection : Datum) (modes : List String) : Prop where
  titled : ∀ m m' title, titleOf collection m = some title → titleOf collection m' = some title →
    m = m'
  untitled : ∀ m ∈ modes, titleOf collection m = none → ∀ m', titleOf collection m' ≠ some m

theorem TellsApart.label_inj {collection : Datum} {modes : List String}
    (h : TellsApart collection modes) {m m' : String} (hm : m ∈ modes) (hm' : m' ∈ modes)
    (heq : labelOf collection m = labelOf collection m') : m = m' := by
  unfold labelOf at heq
  cases ht : titleOf collection m with
  | none =>
    cases ht' : titleOf collection m' with
    | none => simpa [ht, ht'] using heq
    | some title' =>
      rw [ht, ht'] at heq
      exact absurd (ht'.trans (congrArg some heq.symm)) (h.untitled m hm ht m')
  | some title =>
    cases ht' : titleOf collection m' with
    | none =>
      rw [ht, ht'] at heq
      exact absurd (ht.trans (congrArg some heq)) (h.untitled m' hm' ht' m)
    | some title' =>
      rw [ht, ht'] at heq
      exact h.titled m m' title ht (ht'.trans (congrArg some heq.symm))

/-- A collection whose modes have ids that are keys, and names that are texts or none. -/
def IsTitled (collection : Datum) : Prop :=
  ∃ items, (collection.at? "modes").getD (.list []) = .list items ∧ ∀ m ∈ items,
    m.isRecord = true ∧ ((m.at? "modeId").getD .null).isKey = true ∧
      ((m.at? "name").getD .null = .null ∨ IsText ((m.at? "name").getD .null))

theorem isTitled_empty : IsTitled .empty := ⟨[], rfl, by simp⟩

theorem modeNames_ok {collection : Datum} (hr : collection.isRecord = true)
    (h : IsTitled collection) : ∃ names, TokenSet.modeNames collection = .ok names ∧
      ∀ row ∈ names, row.2 = .null ∨ IsText row.2 := by
  obtain ⟨items, hitems, hall⟩ := h
  have hrows : items.mapM (fun m => do
      let id ← m.get "modeId"
      let name ← m.get "name"
      return (← id.asKey, name)) =
      (.ok (items.map fun m => ((m.at? "modeId").getD .null, (m.at? "name").getD .null)) :
        Outcome (List (Datum × Datum))) := by
    refine Outcome.mapM_ok fun m hm => ?_
    obtain ⟨hrecord, hkey, -⟩ := hall m hm
    rw [Datum.get_eq hrecord, Datum.get_eq hrecord, Outcome.ok_bind, Outcome.ok_bind,
      Datum.asKey_eq hkey]
    rfl
  have hnames : TokenSet.modeNames collection = .ok (Table.ofRows
      (items.map fun m => ((m.at? "modeId").getD .null, (m.at? "name").getD .null))) := by
    rw [TokenSet.modeNames, Datum.fieldOr_eq hr, hitems]
    show ((items.mapM _ : Outcome _) >>= fun rows => pure (Table.ofRows rows)) = _
    rw [hrows]
    rfl
  refine ⟨_, hnames, fun row hrow => ?_⟩
  obtain ⟨entry, hentry, hvalue⟩ := List.mem_map.1 (Table.mem_ofRows hrow)
  obtain ⟨m, hm, rfl⟩ := List.mem_map.1 hentry
  rw [← hvalue]
  exact (hall m hm).2.2

/-- A mode is listed under what it goes by. -/
theorem modeName_label {collection : Datum} {names : Table Datum Datum}
    (hnames : TokenSet.modeNames collection = .ok names)
    (htexts : ∀ row ∈ names, row.2 = .null ∨ IsText row.2) (mode : String) :
    TokenSet.modeName names (.text mode) = .ok (.text (labelOf collection mode)) := by
  have hfound : (names.lookup (.text mode)).getD .null = .null ∨
      IsText ((names.lookup (.text mode)).getD .null) :=
    Table.lookup_getD (P := fun d => d = .null ∨ IsText d) htexts (.inl rfl)
  have htitle : titleOf collection mode =
      ((names.lookup (.text mode)).bind Datum.text?).filter (· ≠ "") := by
    rw [titleOf, hnames]
    rfl
  rw [TokenSet.modeName, labelOf, htitle]
  cases hl : names.lookup (.text mode) with
  | none => rfl
  | some d =>
    rw [hl, Option.getD_some] at hfound
    rcases hfound with rfl | htext
    · rfl
    · obtain ⟨title, rfl⟩ := Outline.eq_text htext
      by_cases hempty : title = "" <;>
        simp [Datum.orElse, Datum.isTruthy, Datum.text?, Datum.asKey, Datum.isKey, Option.filter, hempty]

/-! ## Resolved values -/

/-- The value that a variable is resolved to in a mode, when nothing was noted before. -/
def resolved? (vars : Variables) (table : Table Datum Datum) (depth : Nat) (id : Datum)
    (mode : String) : Option Datum :=
  ((resolve vars (.ok table) (.int depth) id (.text mode)).exec.1.toOption).map Resolution.value

/-- Answers to the same search say the same value. -/
theorem Answers.value_eq {q : Quest} {table : Table Datum Datum} {depth : Nat} {ids : List String}
    {p : Place} {r r' : Resolution} (h : Answers q table depth ids p r)
    (h' : Answers q table depth ids p r') : r.value = r'.value := by
  obtain ⟨x, resolved, chain⟩ := r
  obtain ⟨x', resolved', chain'⟩ := r'
  cases resolved with
  | true => exact congrArg Resolution.value ((h'.reached x chain).2 ((h.reached x chain).1 rfl)).symm
  | false =>
    cases resolved' with
    | true => exact congrArg Resolution.value ((h.reached x' chain').2 ((h'.reached x' chain').1 rfl))
    | false => exact (h.kept rfl).1.trans (h'.kept rfl).1.symm

/-- The value of an answer stands somewhere in the table, or is that of no place. -/
theorem Answers.value_place {q : Quest} {table : Table Datum Datum} {depth : Nat} {ids : List String}
    {p : Place} {r : Resolution} (h : Answers q table depth ids p r) :
    r.value = q.marker ∨ ∃ p' : Place, r.value = p'.value q.vars := by
  obtain ⟨x, resolved, chain⟩ := r
  cases resolved with
  | false => exact .inl (h.kept rfl).1
  | true =>
    obtain ⟨more, p', -, -, -, -, rfl, -⟩ := (h.reached x chain).1 rfl
    exact .inr ⟨p', rfl⟩

section Resolving

variable {vars : Variables} {table : Table Datum Datum}

/-- Resolving a variable gives one value, whatever was noted before, that stands at a place. -/
theorem resolve_gives (hv : AreVariables vars) (hc : AreCollections table) {id : String} {var : Datum}
    (he : entry vars id = some var) (mode : String) (depth : Nat) :
    ∃ x, resolved? vars table depth (.text id) mode = some x ∧
      (resolve vars (.ok table) (.int depth) (.text id) (.text mode)).Gives (fun r => r.value = x) ∧
      ∃ p : Place, x = p.value vars := by
  obtain ⟨fresh, hp, hseek⟩ := resolve_seek hv table id mode he
  have hanswer (ns : List Notice) := seek_answers
    (q := ⟨.text id, .text mode, Place.value vars ⟨id, some mode⟩, vars, .ok table, .null⟩)
    (p := ⟨id, some mode⟩) hv rfl hc depth ns (List.cons_ne_nil id []) hp (by simp)
  obtain ⟨r, ms, hr, hA, -⟩ := hanswer []
  refine ⟨r.value, ?_, fun ns => ?_, ?_⟩
  · rw [resolved?, Run.exec_eq, hseek, hr]
    rfl
  · obtain ⟨r', ms', hr', hA', -⟩ := hanswer ns
    exact ⟨r', ms', by rw [hseek, hr'], hA'.value_eq hA⟩
  · rcases hA.value_place with hmarker | hplace
    · exact ⟨_, hmarker⟩
    · exact hplace

end Resolving

/-! ## Readable tables -/

/-- A value that a token may hold for a variable of the table: how one of the values is written, or
nothing. -/
def IsHeldIn (vars : Variables) (held : Datum) : Prop :=
  held = .text "" ∨ ∃ row ∈ vars, ∃ value ∈ modesOf row.2, tokenValue value.2 = .ok held

/-- Named variables and their collections whose parts are of their kinds, and whose values can be
written. -/
structure AreReadable (vars : Variables) (table : Table Datum Datum) : Prop extends AreNamed vars where
  entries : ∀ row ∈ vars, IsVariable row.2
  scopes : ∀ row ∈ vars, ∃ items, ((row.2.at? "scopes").getD .null).orElse (.list []) = .list items ∧
    ∀ scope ∈ items, scope.isKey = true
  values : ∀ row ∈ vars, ∀ value ∈ modesOf row.2, ∃ held, tokenValue value.2 = .ok held
  collections : AreCollections table
  titled : ∀ row ∈ table, IsTitled row.2

/-- The mode that a variable is read in by default. -/
def defaultMode? (table : Table Datum Datum) (var : Datum) : Option String :=
  (modeFor var (((collectionIn table var).at? "defaultModeId").getD (.text "")) (.ok table)).toOption.bind
    Datum.text?

section Readable

variable {vars : Variables} {table : Table Datum Datum}

theorem AreReadable.areVariables (h : AreReadable vars table) : AreVariables vars := fun row hrow =>
  .inr (h.entries row hrow)

theorem AreReadable.entry_eq (h : AreReadable vars table) {id : String} {var : Datum}
    (hrow : (.text id, var) ∈ vars) : entry vars id = some var := by
  obtain ⟨fields, rfl⟩ := Datum.eq_record (h.entries _ hrow).isRecord
  rw [entry, (Table.lookup_text h.distinct).2 hrow]
  rfl

theorem AreReadable.collectionIn_spec (h : AreReadable vars table) (var : Datum) :
    (collectionIn table var).isRecord = true ∧ IsTitled (collectionIn table var) ∧
      (((collectionIn table var).at? "defaultModeId").getD (.text "")).isKey = true := by
  unfold collectionIn
  refine Table.lookup_getD (P := fun c : Datum => c.isRecord = true ∧ IsTitled c ∧
    ((c.at? "defaultModeId").getD (.text "")).isKey = true) (fun row hrow => ?_)
    ⟨rfl, isTitled_empty, rfl⟩
  refine ⟨(h.collections row hrow).1, h.titled row hrow, ?_⟩
  have hkey := (h.collections row hrow).2
  cases hp : row.2.at? "defaultModeId" with
  | none => rfl
  | some d => rwa [hp] at hkey

/-- The value at a place can be written. -/
theorem AreReadable.place_held (h : AreReadable vars table) (p : Place) :
    ∃ held, tokenValue (p.value vars) = .ok held ∧ IsHeldIn vars held := by
  have hnull : ∃ held, tokenValue .null = .ok held ∧ IsHeldIn vars held := ⟨_, rfl, .inl rfl⟩
  unfold Place.value
  cases he : entry vars p.id with
  | none => exact hnull
  | some var =>
    cases hm : p.mode.bind ((modesOf var).lookup ·) with
    | none =>
      simp only [Option.bind_some, hm, Option.getD_none]
      exact hnull
    | some value =>
      obtain ⟨mode, -, hvalue⟩ := Option.bind_eq_some_iff.1 hm
      obtain ⟨key, -, hmem⟩ := Table.mem_of_lookup hvalue
      obtain ⟨id, -, hrow⟩ := Table.mem_of_lookup (Option.filter_eq_some_iff.1 he).1
      obtain ⟨held, hheld⟩ := h.values _ hrow _ hmem
      simp only [Option.bind_some, hm, Option.getD_some]
      exact ⟨held, hheld, .inr ⟨_, hrow, _, hmem, hheld⟩⟩

/-- A variable is resolved to one value in a mode, and this can be written. -/
theorem AreReadable.resolves (h : AreReadable vars table) {row : Datum × Datum} (hrow : row ∈ vars)
    (mode : String) (depth : Nat) :
    ∃ x held, resolved? vars table depth row.1 mode = some x ∧ tokenValue x = .ok held ∧
      IsHeldIn vars held ∧
      (resolve vars (.ok table) (.int depth) row.1 (.text mode)).Gives (fun r => r.value = x) := by
  obtain ⟨id, var⟩ := row
  obtain ⟨id, rfl⟩ := Outline.eq_text (h.ids _ hrow)
  obtain ⟨x, hx, hgives, p, rfl⟩ :=
    resolve_gives h.areVariables h.collections (h.entry_eq hrow) mode depth
  obtain ⟨held, hheld, hin⟩ := h.place_held p
  exact ⟨_, held, hx, hheld, hin, hgives⟩

/-- A key that is no text is no mode. -/
theorem modeFor_key (hc : AreCollections table) {var mode : Datum} (hvar : IsVariable var)
    (hk : mode.isKey = true) :
    modeFor var mode (.ok table) = .ok (modeDatum (readingMode table var mode.text?)) := by
  cases mode with
  | text m => exact modeFor_eq hc hvar (some m)
  | _ =>
    -- it is looked up like the null that stands for no mode, and no more found
    refine Eq.trans ?_ (modeFor_eq hc hvar none)
    obtain ⟨hget, hvalues⟩ := values_eq hvar
    have hnone : (modeDatum none).isKey = true := rfl
    unfold modeFor
    simp only [hget, Outcome.ok_bind, hvalues, holds_eq _ hk, holds_eq _ hnone]
    rfl

theorem hasKey_iff {fields : List (String × Datum)} {m : String} :
    Table.hasKey fields m = true ↔ m ∈ fields.map Prod.fst := by
  simp [Table.hasKey]

/-- A variable with modes is read in one of them. -/
theorem readingMode_mem {var : Datum} (hne : modesOf var ≠ []) (mode : Option String) :
    ∃ m ∈ modeIds var, readingMode table var mode = some m := by
  have hfiltered : ∀ {o : Option String} {m}, o.filter (Table.hasKey (modesOf var)) = some m →
      m ∈ modeIds var := fun h => hasKey_iff.1 (Option.filter_eq_some_iff.1 h).2
  unfold readingMode
  cases hm : mode.filter (Table.hasKey (modesOf var)) with
  | some m => exact ⟨m, hfiltered hm, rfl⟩
  | none =>
    cases hp : (preferredMode table var).filter (Table.hasKey (modesOf var)) with
    | some m => exact ⟨m, hfiltered hp, rfl⟩
    | none =>
      obtain ⟨row, rows, hrows⟩ := List.exists_cons_of_ne_nil hne
      exact ⟨row.1, by simp [modeIds, hrows], by simp [hrows]⟩

/-- The default mode of a variable is one of its modes, if it has any. -/
theorem AreReadable.modeFor_default (h : AreReadable vars table) {row : Datum × Datum}
    (hrow : row ∈ vars) :
    modeFor row.2 (((collectionIn table row.2).at? "defaultModeId").getD (.text "")) (.ok table) =
        .ok (modeDatum (defaultMode? table row.2)) ∧
      (modesOf row.2 = [] → defaultMode? table row.2 = none) ∧
      (modesOf row.2 ≠ [] → ∃ mode ∈ modeIds row.2, defaultMode? table row.2 = some mode) := by
  have heq := modeFor_key h.collections (h.entries _ hrow) (h.collectionIn_spec row.2).2.2
  have hdefault : defaultMode? table row.2 = readingMode table row.2
      (((collectionIn table row.2).at? "defaultModeId").getD (.text "")).text? := by
    rw [defaultMode?, heq]
    exact text?_modeDatum _
  rw [heq, hdefault]
  refine ⟨rfl, fun hnil => ?_, fun hne => readingMode_mem hne _⟩
  simp [readingMode, hnil, Table.hasKey, Option.filter_eq_none_iff]

end Readable

/-! ## Written values -/

/-- A color that can be written with its alpha value can be written in either spelling. -/
theorem hexOrRgba_ok {color : Datum} {s : String} (h : Color.rgba color (.int 1) = .ok s) :
    ∃ t, Color.hexOrRgba color = .ok t := by
  have hrgba := h
  obtain ⟨a, ha, h⟩ := Outcome.bind_ok h
  obtain ⟨alpha, halpha, h⟩ := Outcome.bind_ok h
  obtain ⟨red, hred, h⟩ := Outcome.bind_ok h
  obtain ⟨r, hr, h⟩ := Outcome.bind_ok h
  obtain ⟨green, hgreen, h⟩ := Outcome.bind_ok h
  obtain ⟨g, hg, h⟩ := Outcome.bind_ok h
  obtain ⟨blue, hblue, h⟩ := Outcome.bind_ok h
  obtain ⟨b, hb, h⟩ := Outcome.bind_ok h
  obtain ⟨n, hn, -⟩ := Outcome.bind_ok h
  have hnumber : ∃ n, a.number = .ok n := by
    cases hna : a.number? with
    | some n => exact ⟨n, by rw [Datum.number, hna]⟩
    | none =>
      -- what is no number stays itself once, and is none then either
      have hrepeated : Color.alphaUnder.ofRepeated a 1 = .ok alpha := by
        rw [← halpha]
        show _ = Color.alphaUnder a (.int 1)
        rw [Color.alphaUnder, hna]
        rfl
      obtain rfl : a = alpha := by
        unfold Color.alphaUnder.ofRepeated at hrepeated
        split at hrepeated
        · cases hrepeated
        · exact Except.ok.inj hrepeated
      rw [Datum.number, hna] at hn
      cases hn
  obtain ⟨n', hn'⟩ := hnumber
  rw [Color.hexOrRgba, ha, Outcome.ok_bind, hn', Outcome.ok_bind]
  split
  · exact ⟨s, hrgba⟩
  · simp [List.mapM_cons, hred, hgreen, hblue, hr, hg, hb]

/-- What can be written as the value of a token can be compared with other tokens. -/
theorem comparable_ok {x held : Datum} (h : tokenValue x = .ok held) (type : String) :
    ∃ s, comparable x type = .ok s := by
  unfold comparable
  split
  · exact ⟨_, rfl⟩
  rename_i halias
  split
  · rename_i hcolor
    unfold tokenValue at h
    rw [if_neg halias, if_pos hcolor] at h
    obtain ⟨s, hs, -⟩ := Outcome.bind_ok h
    exact hexOrRgba_ok hs
  split
  · exact ⟨_, by rw [h]; rfl⟩
  · exact ⟨_, rfl⟩

/-! ## Values close to each other -/

/-- A number that is held has a double. -/
theorem IsHeld.exists_float {d : Datum} (h : IsHeld d) (hn : d.isNumber = true) :
    ∃ n x, d.number = .ok n ∧ n.toFloat = .ok x := by
  cases h with
  | int n hsome =>
    obtain ⟨x, hx⟩ := Option.isSome_iff_exists.1 hsome
    exact ⟨.int n, x, rfl, by rw [Number.toFloat, hx]⟩
  | float x => exact ⟨.float x, x, rfl, rfl⟩
  | reference d _ halias => cases d <;> first | cases halias | cases hn
  | _ => cases hn

theorem sub_ok {m n : Number} {x y : Float} (hx : m.toFloat = .ok x) (hy : n.toFloat = .ok y) :
    ∃ d, m.sub n = .ok d := by
  unfold Number.sub Number.combine
  split
  · exact ⟨_, rfl⟩
  · exact ⟨_, by rw [hx, hy]; rfl⟩

/-- What is held and is neither a text nor an alias is read as no color. -/
theorem IsHeld.read_none {d : Datum} (h : IsHeld d) (halias : isAlias d = false) (ht : ¬ IsText d) :
    Color.read d = .ok none := by
  cases h with
  | text s => exact absurd rfl ht
  | reference _ _ ha => rw [ha] at halias; cases halias
  | _ => rfl

theorem IsHeld.read_ok {d : Datum} (h : IsHeld d) (halias : isAlias d = false) :
    ∃ color, Color.read d = .ok color := by
  refine Token.read_ok ?_
  cases h with
  | reference _ _ ha => rw [ha] at halias; cases halias
  | _ => rfl

/-- Two values that are held, and stand for no other variable, can be compared unless they are texts
that cannot. -/
theorem isNear_held {a b : Datum} (ha : IsHeld a) (hb : IsHeld b) (hna : isAlias a = false)
    (hnb : isAlias b = false)
    (htexts : IsText a → IsText b → ∃ near, isNear a b = .ok near) :
    ∃ near, isNear a b = .ok near := by
  by_cases hnumbers : (a.isNumber && b.isNumber) = true
  case pos =>
    have hboth := Bool.and_eq_true_iff.1 hnumbers
    obtain ⟨m, x, hm, hx⟩ := ha.exists_float hboth.1
    obtain ⟨n, y, hn, hy⟩ := hb.exists_float hboth.2
    obtain ⟨d, hd⟩ := sub_ok hx hy
    refine ⟨d.abs.lt (.float 0.1), ?_⟩
    rw [isNear, if_pos hnumbers, hm, hn, Outcome.ok_bind, Outcome.ok_bind, hd]
    rfl
  case neg =>
    obtain ⟨x, hx⟩ := ha.read_ok hna
    obtain ⟨y, hy⟩ := hb.read_ok hnb
    by_cases hta : IsText a
    · by_cases htb : IsText b
      · exact htexts hta htb
      · refine ⟨false, ?_⟩
        rw [isNear, if_neg hnumbers, hx, hb.read_none hnb htb, Outcome.ok_bind, Outcome.ok_bind]
        cases x <;> rfl
    · refine ⟨false, ?_⟩
      rw [isNear, if_neg hnumbers, ha.read_none hna hta, hy, Outcome.ok_bind, Outcome.ok_bind]
      rfl

theorem filterM_ok {α : Type} {f : α → Outcome Bool} {xs : List α} (h : ∀ x ∈ xs, ∃ b, f x = .ok b) :
    ∃ ys, xs.filterM f = .ok ys := by
  choose! g hg using h
  exact ⟨_, filterM_pure hg⟩

/-- The edges between close values can be told when the values that tokens have of their own can be
compared. -/
theorem derivedEdges_ok {tokens : List Token}
    (h : ∀ a ∈ tokens, ∀ b ∈ tokens, a.ownsValue = true → b.ownsValue = true →
      ∃ near, isNear a.value b.value = .ok near) : ∃ edges, derivedEdges tokens = .ok edges := by
  induction tokens with
  | nil => exact ⟨[], rfl⟩
  | cons a later ih =>
    obtain ⟨rest, hrest⟩ := ih fun x hx y hy =>
      h x (List.mem_cons_of_mem _ hx) y (List.mem_cons_of_mem _ hy)
    have hfirst : ∃ near, derivedFrom a later = .ok near := by
      unfold derivedFrom
      split
      · exact ⟨_, rfl⟩
      · rename_i howns
        have hown : a.ownsValue = true := by simpa using howns
        have hnear : ∀ b ∈ later, ∃ near, (do
            if b.kind != a.kind || !b.ownsValue then return false else isNear a.value b.value :
              Outcome Bool) = .ok near := by
          intro b hb
          split
          · exact ⟨_, rfl⟩
          · rename_i hskip
            refine h a List.mem_cons_self b (List.mem_cons_of_mem _ hb) hown ?_
            simp only [Bool.or_eq_true, not_or, Bool.not_eq_true', Bool.not_eq_false] at hskip
            exact hskip.2
        obtain ⟨near, hfilter⟩ := filterM_ok hnear
        exact ⟨_, by rw [hfilter]; rfl⟩
    obtain ⟨near, hnear⟩ := hfirst
    exact ⟨_, by rw [derivedEdges, hnear, hrest]; rfl⟩

end Token

end Maquette
