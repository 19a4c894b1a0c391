/-
Tables of variables in another order. Each variable is resolved by what it looks up, and a lookup under
distinct ids does not depend on the order of the rows, so each variable has the same token. The values of
variables of different names are entered in different cells, closeness does not depend on which token comes
first, and what a node uses is told by lookups again.
-/
import Maquette.Proofs.Key
import Maquette.Proofs.Token.Graph
import Maquette.Proofs.Token.SheetRead

namespace Maquette

open Outline (IsText)

/-! ## Lookups -/

/-- Under distinct texts the same is found in any order of the rows. -/
theorem Table.lookup_perm {α : Type} {t t' : Table Datum α} (hperm : t.Perm t') (htexts : ∀ row ∈ t, IsText row.1)
    (hdistinct : (t.map Prod.fst).Nodup) (key : Datum) : t.lookup key = t'.lookup key := by
  have hnone : ∀ {t : Table Datum α}, (∀ row ∈ t, IsText row.1) → ¬ IsText key → t.lookup key = none := by
    intro t ht hkey
    cases hl : t.lookup key with
    | none => rfl
    | some v =>
      obtain ⟨k, hsame, hmem⟩ := Table.mem_of_lookup hl
      obtain ⟨s, hs⟩ := Outline.eq_text (ht _ hmem)
      rw [show k = .text s from hs] at hsame
      rw [Datum.same_text.1 hsame] at hkey
      exact absurd rfl hkey
  have htexts' : ∀ row ∈ t', IsText row.1 := fun row hrow => htexts row (hperm.mem_iff.2 hrow)
  by_cases hkey : IsText key
  · obtain ⟨s, rfl⟩ := Outline.eq_text hkey
    have hdistinct' := (hperm.map Prod.fst).nodup_iff.1 hdistinct
    refine Option.ext fun v => ?_
    rw [Table.lookup_text hdistinct, Table.lookup_text hdistinct', hperm.mem_iff]
  · rw [hnone htexts hkey, hnone htexts' hkey]

/-! ## Differences either way -/

namespace Number

/-- The two differences of two numbers have one absolute value. -/
theorem abs_sub (m n : Number) : abs <$> m.sub n = abs <$> n.sub m := by
  have hfloats : ∀ m n : Number, (abs <$> do return float ((← m.toFloat) - (← n.toFloat)) : Outcome Number) =
      abs <$> do return float ((← n.toFloat) - (← m.toFloat)) := by
    intro m n
    cases hm : m.toFloat with
    | ok x =>
      cases hn : n.toFloat with
      | ok y => exact congrArg (fun d => Except.ok (float d)) (Decimal.abs_sub_comm x y)
      | error f => rfl
    | error f =>
      cases hn : n.toFloat with
      | ok y => rfl
      | error g =>
        -- numbers have no double for one reason only
        rw [Token.toFloat_fault hm, Token.toFloat_fault hn]
  cases m with
  | int m =>
    cases n with
    | int n =>
      have hsize : (m - n).natAbs = (n - m).natAbs := by omega
      exact congrArg (fun d : ℕ => Except.ok (int d)) hsize
    | float y => exact hfloats _ _
  | float x => cases n <;> exact hfloats _ _

/-- The square of a number is told by its absolute value. -/
theorem square_abs {m n : Number} (h : m.abs = n.abs) : m.square = n.square := by
  unfold abs at h
  cases m with
  | int m =>
    cases n with
    | int n =>
      have hsize : m.natAbs = n.natAbs := Int.ofNat.inj (Number.int.inj h)
      rw [square, square, Int.natAbs_eq_iff_mul_self_eq.1 hsize]
    | float y => cases h
  | float x =>
    cases n with
    | int n => cases h
    | float y =>
      have hsize : x.abs = y.abs := Number.float.inj h
      simp only [square, hsize]

/-- What is made of the absolute value of a difference does not depend on which number is taken from the
other. -/
theorem sub_bind_comm {α : Type} {f : Number → Outcome α} (hf : ∀ d d' : Number, d.abs = d'.abs → f d = f d')
    (m n : Number) : (m.sub n >>= f) = (n.sub m >>= f) := by
  have habs := abs_sub m n
  cases hm : m.sub n with
  | ok d =>
    cases hn : n.sub m with
    | ok d' =>
      rw [hm, hn] at habs
      exact hf d d' (Except.ok.inj habs)
    | error g =>
      rw [hm, hn] at habs
      cases habs
  | error e =>
    cases hn : n.sub m with
    | ok d' =>
      rw [hm, hn] at habs
      cases habs
    | error g =>
      rw [hm, hn] at habs
      exact congrArg Except.error (Except.error.inj habs)

end Number

namespace Token

/-! ## Closeness either way -/

/-- Two lists of channels are as far apart one way as the other. -/
theorem distance_comm (x y : Color.Rgb) : Color.distance x.channels y.channels = Color.distance y.channels x.channels := by
  have hstep : ∀ sum m n : Number, (do sum.add (← (← (← m.toDatum.minus n.toDatum).number).square)) =
      (do sum.add (← (← (← n.toDatum.minus m.toDatum).number).square) : Outcome Number) := by
    intro sum m n
    unfold Datum.minus
    simp only [number_toDatum, Outcome.ok_bind, bind_assoc]
    refine Number.sub_bind_comm (fun d d' h => ?_) m n
    simp only [pure_bind, number_toDatum, Outcome.ok_bind, Number.square_abs h]
  unfold Color.distance Color.Rgb.channels
  simp only [List.take, List.zip_cons_cons, List.zip_nil_right, List.foldlM_cons, hstep _ x.r, hstep _ x.g, hstep _ x.b]

/-- Whether a difference is small is told by its absolute value. -/
theorem isSmall_comm (m n : Number) (limit : Float) :
    (do return (← m.sub n).abs.lt (.float limit) : Outcome Bool) = do return (← n.sub m).abs.lt (.float limit) :=
  Number.sub_bind_comm (fun d d' h => by rw [h]) m n

/-- Values are close whichever comes first. -/
theorem isNear_comm {a b : Datum} {near : Bool} (h : isNear a b = .ok near) : isNear b a = .ok near := by
  unfold isNear at h ⊢
  rw [Bool.and_comm]
  split
  · rename_i hnumbers
    rw [if_pos hnumbers] at h
    obtain ⟨m, hm, h⟩ := Outcome.bind_ok h
    obtain ⟨n, hn, h⟩ := Outcome.bind_ok h
    rw [hn, hm, Outcome.ok_bind, Outcome.ok_bind, isSmall_comm]
    exact h
  · rename_i hnumbers
    rw [if_neg hnumbers] at h
    obtain ⟨x, hx, h⟩ := Outcome.bind_ok h
    obtain ⟨y, hy, h⟩ := Outcome.bind_ok h
    rw [hy, hx, Outcome.ok_bind, Outcome.ok_bind]
    cases x with
    | none =>
      cases y <;> exact h
    | some x =>
      cases y with
      | none => exact h
      | some y =>
        obtain ⟨apart, hapart, h⟩ := Outcome.bind_ok h
        dsimp only
        rw [distance_comm, hapart, Outcome.ok_bind]
        split
        · rename_i hfar
          rw [if_pos hfar] at h
          exact h
        · rename_i hfar
          rw [if_neg hfar] at h
          obtain ⟨m, hm, h⟩ := Outcome.bind_ok h
          obtain ⟨n, hn, h⟩ := Outcome.bind_ok h
          rw [hn, hm, Outcome.ok_bind, Outcome.ok_bind, isSmall_comm]
          exact h

theorem AreClose.symm {a b : Token} (h : AreClose a b) : AreClose b a :=
  ⟨h.kind.symm, h.second, h.first, isNear_comm h.near⟩

/-! ## Comparing all tokens -/

/-- Whether two tokens are close can be told. -/
def CanTell (a b : Token) : Prop :=
  b.kind = a.kind → a.ownsValue = true → b.ownsValue = true → ∃ near, isNear a.value b.value = .ok near

theorem CanTell.symm {a b : Token} (h : CanTell a b) : CanTell b a := by
  intro hkind hb ha
  obtain ⟨near, hnear⟩ := h hkind.symm ha hb
  exact ⟨near, isNear_comm hnear⟩

/-- The edges to a token can be told when it can be told which later tokens are close to it. -/
theorem derivedFrom_iff {a : Token} {later : List Token} :
    (∃ edges, derivedFrom a later = .ok edges) ↔ ∀ b ∈ later, CanTell a b := by
  have htest : ∀ b, a.ownsValue = true → ((∃ near, (do
      if b.kind != a.kind || !b.ownsValue then return false else isNear a.value b.value : Outcome Bool) = .ok near) ↔
        CanTell a b) := by
    intro b hown
    unfold CanTell
    split
    · rename_i hskip
      refine iff_of_true ⟨false, rfl⟩ fun hkind _ hb => ?_
      simp [hkind, hb] at hskip
    · rename_i hskip
      simp only [Bool.or_eq_true, bne_iff_ne, ne_eq, Bool.not_eq_true', not_or, not_not, Bool.not_eq_false] at hskip
      constructor
      · exact fun h _ _ _ => h
      · exact fun h => h hskip.1 hown hskip.2
  unfold derivedFrom
  split
  · rename_i hown
    refine iff_of_true ⟨[], rfl⟩ fun b _ _ ha _ => ?_
    simp [ha] at hown
  · rename_i hown
    have hown : a.ownsValue = true := by simpa using hown
    constructor
    · rintro ⟨edges, h⟩ b hb
      obtain ⟨near, hnear, -⟩ := Outcome.bind_ok h
      exact (htest b hown).1 (Outcome.filterM_each hnear b hb)
    · intro h
      obtain ⟨near, hnear⟩ := filterM_ok fun b hb => (htest b hown).2 (h b hb)
      exact ⟨_, by rw [hnear]; rfl⟩

/-- The derived edges can be told when each token can be compared with all later ones. -/
theorem derivedEdges_iff {tokens : List Token} :
    (∃ edges, derivedEdges tokens = .ok edges) ↔ tokens.Pairwise CanTell := by
  induction tokens with
  | nil => exact iff_of_true ⟨[], rfl⟩ .nil
  | cons a later ih =>
    rw [List.pairwise_cons, ← derivedFrom_iff, ← ih]
    constructor
    · rintro ⟨edges, h⟩
      obtain ⟨front, hfront, h⟩ := Outcome.bind_ok h
      obtain ⟨rest, hrest, -⟩ := Outcome.bind_ok h
      exact ⟨⟨front, hfront⟩, rest, hrest⟩
    · rintro ⟨⟨front, hfront⟩, rest, hrest⟩
      exact ⟨_, by rw [derivedEdges, hfront, hrest]; rfl⟩

/-! ## Tables in another order -/

section Reordered

variable {vars vars' : Variables} {collections : Token.Collections} {maxDepth : Datum}

theorem lookup_names_perm (hperm : vars.Perm vars') (hids : ∀ row ∈ vars, IsText row.1)
    (hdistinct : (vars.map Prod.fst).Nodup) (id : Datum) : (namesOf vars).lookup id = (namesOf vars').lookup id := by
  refine Table.lookup_perm (hperm.map _) (fun row hrow => ?_) ?_ id
  · obtain ⟨row', hrow', rfl⟩ := List.mem_map.1 hrow
    exact hids row' hrow'
  · rw [List.map_map]
    exact hdistinct

theorem areAlike_perm (hperm : vars.Perm vars') (hids : ∀ row ∈ vars, IsText row.1)
    (hdistinct : (vars.map Prod.fst).Nodup) : AreAlike vars vars' where
  found := by
    intro id
    unfold lookup
    simp only [Table.lookup_perm hperm hids hdistinct]
  keys := by
    refine .inr ⟨hperm.map _, fun key => ?_⟩
    refine List.Pairwise.imp_of_mem (fun {a b} ha hb hne hakey hbkey => hne ?_) hdistinct
    obtain ⟨row, hrow, rfl⟩ := List.mem_map.1 ha
    obtain ⟨row', hrow', rfl⟩ := List.mem_map.1 hb
    obtain ⟨x, hx⟩ := Outline.eq_text (hids row hrow)
    obtain ⟨y, hy⟩ := Outline.eq_text (hids row' hrow')
    rw [hx] at hakey
    rw [hy] at hbkey
    rw [hx, hy, ← Datum.text_same.1 hakey, ← Datum.text_same.1 hbkey]

end Reordered

end Token

namespace TokenSet

open Token

section Reordered

variable {vars vars' : Variables} {collections : Token.Collections} {maxDepth : Datum}

/-- A variable is read the same in tables in which the same is found. -/
theorem shareOf_perm (hperm : vars.Perm vars') (hids : ∀ row ∈ vars, IsText row.1)
    (hdistinct : (vars.map Prod.fst).Nodup) (row : Datum × Datum) :
    shareOf (reader vars collections maxDepth) row = shareOf (reader vars' collections maxDepth) row := by
  have hnames := lookup_names_perm hperm hids hdistinct
  have halias : aliasName (reader vars collections maxDepth) = aliasName (reader vars' collections maxDepth) := by
    funext value
    simp only [aliasName, reader, hnames]
  have hmode : modeShare (reader vars collections maxDepth) = modeShare (reader vars' collections maxDepth) := by
    funext var mode raw
    unfold modeShare
    rw [halias]
    have hresolve : (resolve vars collections maxDepth var.id (.text mode)).exec.1 =
        (resolve vars' collections maxDepth var.id (.text mode)).exec.1 :=
      resolve_alike (areAlike_perm hperm hids hdistinct) _ _ _ _ [] []
    simp only [reader, hresolve]
  unfold shareOf
  rw [halias, hmode]
  simp only [reader, hnames]

theorem usageOf_perm (hperm : vars.Perm vars') (hids : ∀ row ∈ vars, IsText row.1)
    (hdistinct : (vars.map Prod.fst).Nodup) (walks : List Walked) :
    usageOf (namesOf vars) walks = usageOf (namesOf vars') walks := by
  have huses : usesOf (namesOf vars) = usesOf (namesOf vars') := by
    funext usage node
    simp only [usesOf, lookup_names_perm hperm hids hdistinct]
  unfold usageOf
  rw [huses]

end Reordered

/-! ## Values by mode and name -/

/-- The value under a mode and a name. -/
def cellAt (values : Table Datum (Table String Datum)) (label : Datum) (name : String) : Option Datum :=
  (values.lookup label).bind (·.lookup name)

/-- Two tables of values have the same modes, and the same values under the same names in them. -/
structure AreEqual (values values' : Table Datum (Table String Datum)) : Prop where
  modes : ∀ label : Datum, label.isKey = true → (values.lookup label).isSome = (values'.lookup label).isSome
  cells : ∀ label : Datum, label.isKey = true → ∀ name, cellAt values label name = cellAt values' label name

section Cells

variable {values : Table Datum (Table String Datum)} {label : Datum}

theorem cellAt_entered (hlabel : label.isKey = true) {l : Datum} (hl : l.isKey = true) (n name : String) (v : Datum) :
    cellAt (entered values l n v) label name = if (label == l) = true ∧ n = name then some v else cellAt values label name := by
  unfold cellAt entered
  rw [Table.lookup_set_key hl hlabel]
  by_cases hsame : (label == l) = true
  · rw [if_pos hsame, ← Table.lookup_same hlabel hl hsame, Option.bind_some]
    by_cases hn : n = name
    · subst hn
      rw [if_pos ⟨hsame, rfl⟩, Table.lookup_set_self]
    · rw [if_neg fun h => hn h.2, Table.lookup_set_ne (Ne.symm hn)]
      cases values.lookup label <;> rfl
  · rw [if_neg hsame, if_neg fun h => hsame h.1]

theorem isSome_entered (hlabel : label.isKey = true) {l : Datum} (hl : l.isKey = true) (n : String) (v : Datum) :
    ((entered values l n v).lookup label).isSome = ((values.lookup label).isSome || label == l) := by
  unfold entered
  rw [Table.lookup_set_key hl hlabel]
  cases label == l <;> simp

/-- What entering the values of a variable makes of a cell. -/
def Share.inCell (s : Share) (label : Datum) (name : String) (cell : Option Datum) : Option Datum :=
  if s.name.shown = name then s.modes.foldl (fun cell m => if (label == m.label) = true then some m.value else cell) cell
  else cell

theorem cellAt_enter (hlabel : label.isKey = true) {s : Share} (hs : ∀ m ∈ s.modes, m.label.isKey = true)
    (name : String) : cellAt (s.enter values) label name = s.inCell label name (cellAt values label name) := by
  unfold Share.enter Share.inCell
  generalize s.modes = modes at hs
  induction modes generalizing values with
  | nil => simp
  | cons m modes ih =>
    obtain ⟨hm, hmodes⟩ := List.forall_mem_cons.1 hs
    rw [List.foldl_cons, ih hmodes, cellAt_entered hlabel hm, List.foldl_cons]
    by_cases hn : s.name.shown = name
    · simp only [hn, if_true, and_true]
    · simp only [hn, if_false, and_false]

theorem isSome_enter (hlabel : label.isKey = true) {s : Share} (hs : ∀ m ∈ s.modes, m.label.isKey = true) :
    ((s.enter values).lookup label).isSome = ((values.lookup label).isSome || s.modes.any (label == ·.label)) := by
  unfold Share.enter
  generalize s.modes = modes at hs
  induction modes generalizing values with
  | nil => simp
  | cons m modes ih =>
    obtain ⟨hm, hmodes⟩ := List.forall_mem_cons.1 hs
    rw [List.foldl_cons, ih hmodes, isSome_entered hlabel hm, List.any_cons, Bool.or_assoc]

/-- Variables of different names change different cells. -/
theorem Share.inCell_comm {s s' : Share} (h : s = s' ∨ s.name.shown ≠ s'.name.shown) (label : Datum) (name : String)
    (cell : Option Datum) : s'.inCell label name (s.inCell label name cell) = s.inCell label name (s'.inCell label name cell) := by
  rcases h with rfl | h
  · rfl
  · unfold inCell
    by_cases hs : s.name.shown = name
    · have hs' : s'.name.shown ≠ name := fun hs' => h (hs.trans hs'.symm)
      rw [if_neg hs', if_neg hs']
    · rw [if_neg hs, if_neg hs]

/-- The values of variables of different names do not depend on the order in which they are entered. -/
theorem enter_perm {shares shares' : List Share} (hperm : shares.Perm shares')
    (hkeys : ∀ s ∈ shares, ∀ m ∈ s.modes, m.label.isKey = true)
    (hnames : (shares.map fun s => s.name.shown).Nodup) :
    AreEqual (shares.foldl Share.enter []) (shares'.foldl Share.enter []) := by
  have hkeys' : ∀ s ∈ shares', ∀ m ∈ s.modes, m.label.isKey = true := fun s hs => hkeys s (hperm.mem_iff.2 hs)
  constructor
  · intro label hlabel
    have hfold : ∀ (shares : List Share) values, (∀ s ∈ shares, ∀ m ∈ s.modes, m.label.isKey = true) →
        ((shares.foldl Share.enter values).lookup label).isSome =
          ((values.lookup label).isSome || shares.any fun s => s.modes.any (label == ·.label)) := by
      intro shares
      induction shares with
      | nil => simp
      | cons s shares ih =>
        intro values hs
        obtain ⟨hfirst, hrest⟩ := List.forall_mem_cons.1 hs
        rw [List.foldl_cons, ih _ hrest, isSome_enter hlabel hfirst, List.any_cons, Bool.or_assoc]
    rw [hfold _ _ hkeys, hfold _ _ hkeys', hperm.any_eq]
  · intro label hlabel name
    have hfold : ∀ (shares : List Share) values, (∀ s ∈ shares, ∀ m ∈ s.modes, m.label.isKey = true) →
        cellAt (shares.foldl Share.enter values) label name =
          shares.foldl (fun cell s => s.inCell label name cell) (cellAt values label name) := by
      intro shares
      induction shares with
      | nil => exact fun _ _ => rfl
      | cons s shares ih =>
        intro values hs
        obtain ⟨hfirst, hrest⟩ := List.forall_mem_cons.1 hs
        rw [List.foldl_cons, ih _ hrest, cellAt_enter hlabel hfirst, List.foldl_cons]
    rw [hfold _ _ hkeys, hfold _ _ hkeys']
    refine hperm.foldl_eq' (fun s hs s' hs' cell => Share.inCell_comm ?_ label name cell) _
    by_cases hsame : s = s'
    · exact .inl hsame
    · exact .inr fun hshown => hsame (List.inj_on_of_nodup_map hnames hs hs' hshown)

end Cells

/-! ## The same tokens -/

/-- Some edge joins two names, whichever way. -/
def JoinsClose (s : TokenSet) (x y : Datum) : Prop :=
  (⟨x, y, "derived"⟩ : TokenEdge) ∈ s.edges ∨ (⟨y, x, "derived"⟩ : TokenEdge) ∈ s.edges

/-- Two sets of tokens that differ in the order only. -/
structure AreReordered (vars vars' : Variables) (s s' : TokenSet) : Prop where
  tokens : s.tokens.Perm s'.tokens
  ids : s.tokens.map Token.variableId = vars.map Prod.fst
  ids' : s'.tokens.map Token.variableId = vars'.map Prod.fst
  modeValues : AreEqual s.modeValues s'.modeValues
  usage : s.usage = s'.usage
  aliases : ∀ e : TokenEdge, e.relationship = "alias" → (e ∈ s.edges ↔ e ∈ s'.edges)
  close : ∀ x y, JoinsClose s x y ↔ JoinsClose s' x y

section Build

variable {vars vars' : Variables} {collections : Token.Collections} {maxDepth : Datum} {ws : List Walked}
  {shares : List Share} {derived : List TokenEdge} {s : TokenSet}

/-- Under distinct names, an edge joins the names of two tokens exactly if they are close. -/
theorem HasGraph.joinsClose {aliases : List TokenEdge} {pairs : List (ℕ × ℕ)}
    (h : HasGraph vars s aliases derived pairs) (hnames : (s.tokens.map Token.name).Nodup) (x y : Datum) :
    JoinsClose s x y ↔ ∃ a ∈ s.tokens, ∃ b ∈ s.tokens, a.name ≠ b.name ∧ AreClose a b ∧ x = .text a.name ∧ y = .text b.name := by
  have hderived : ∀ x y, (⟨x, y, "derived"⟩ : TokenEdge) ∈ s.edges ↔ ∃ i j : ℕ, i < j ∧ ∃ a b,
      s.tokens[i]? = some a ∧ s.tokens[j]? = some b ∧ AreClose a b ∧ x = .text b.name ∧ y = .text a.name := by
    intro x y
    have halias : (⟨x, y, "derived"⟩ : TokenEdge) ∉ aliases := by
      rw [h.pointing]
      rintro ⟨row, -, target, -, -, heq⟩
      simp [aliasEdge] at heq
    rw [h.edges, List.mem_append, or_iff_right halias, h.close.mem_iff]
    simp [closeEdge]
  -- tokens of different names stand at different places
  have hapart : ∀ {i j : ℕ} {a b : Token}, i < j → s.tokens[i]? = some a → s.tokens[j]? = some b → a.name ≠ b.name := by
    intro i j a b hlt ha hb heq
    obtain ⟨hi, rfl⟩ := List.getElem?_eq_some_iff.1 ha
    obtain ⟨hj, rfl⟩ := List.getElem?_eq_some_iff.1 hb
    exact List.pairwise_iff_getElem.1 (List.pairwise_map.1 hnames) i j hi hj hlt heq
  unfold JoinsClose
  rw [hderived, hderived]
  constructor
  · rintro (⟨i, j, hlt, a, b, ha, hb, hclose, rfl, rfl⟩ | ⟨i, j, hlt, a, b, ha, hb, hclose, rfl, rfl⟩)
    · exact ⟨b, List.mem_of_getElem? hb, a, List.mem_of_getElem? ha, (hapart hlt ha hb).symm, hclose.symm, rfl, rfl⟩
    · exact ⟨a, List.mem_of_getElem? ha, b, List.mem_of_getElem? hb, hapart hlt ha hb, hclose, rfl, rfl⟩
  · rintro ⟨a, ha, b, hb, hne, hclose, rfl, rfl⟩
    obtain ⟨i, hi⟩ := List.mem_iff_getElem?.1 ha
    obtain ⟨j, hj⟩ := List.mem_iff_getElem?.1 hb
    rcases Nat.lt_trichotomy i j with hlt | rfl | hlt
    · exact .inr ⟨i, j, hlt, a, b, hi, hj, hclose, rfl, rfl⟩
    · obtain rfl := Option.some.inj (hi.symm.trans hj)
      exact absurd rfl hne
    · exact .inl ⟨j, i, hlt, b, a, hj, hi, hclose.symm, rfl, rfl⟩

theorem IsBuilt.tokens_ids (h : IsBuilt vars collections ws maxDepth shares derived s) :
    s.tokens.map Token.variableId = vars.map Prod.fst := by
  rw [h.tokens, List.map_map, ← List.forall₂_eq_eq_eq, List.forall₂_map_left_iff, List.forall₂_map_right_iff]
  exact h.share.flip.imp fun _ _ hread => hread.variableId

/-- Variables of distinct names have tokens of distinct names. -/
theorem IsBuilt.names_nodup (hv : AreNamed vars) (hnames : (vars.map fun row => nameOf row.1 row.2).Nodup)
    (h : IsBuilt vars collections ws maxDepth shares derived s) : (s.tokens.map Token.name).Nodup := by
  have heq : (vars.map fun row => nameOf row.1 row.2) = (s.tokens.map Token.name).map Datum.text := by
    rw [List.map_map, ← List.forall₂_eq_eq_eq, List.forall₂_map_left_iff, List.forall₂_map_right_iff]
    exact (h.token_eq hv).imp fun _ _ hread => hread.2
  rw [heq] at hnames
  exact hnames.of_map _

/-- Only aliases are gathered before the edges between close tokens. -/
theorem HasGraph.mem_alias {aliases : List TokenEdge} {pairs : List (ℕ × ℕ)}
    (h : HasGraph vars s aliases derived pairs) {e : TokenEdge} (he : e.relationship = "alias") :
    e ∈ s.edges ↔ ∃ row ∈ vars, ∃ target ∈ vars, PointsAt row.2 target.1 ∧ e = aliasEdge row target := by
  have hderived : e ∉ derived := by
    rw [h.close.mem_iff]
    rintro ⟨i, j, -, a, b, -, -, -, rfl⟩
    simp [closeEdge] at he
  rw [h.edges, List.mem_append, or_iff_left hderived, h.pointing]

/-- A table in another order has the same tokens. -/
theorem IsBuilt.perm (hperm : vars.Perm vars') (hv : AreNamed vars)
    (hnames : (vars.map fun row => nameOf row.1 row.2).Nodup)
    (h : IsBuilt vars collections ws maxDepth shares derived s) :
    ∃ shares' derived' s', IsBuilt vars' collections ws maxDepth shares' derived' s' ∧ AreReordered vars vars' s s' := by
  have hreader : shareOf (reader vars collections maxDepth) = shareOf (reader vars' collections maxDepth) :=
    funext (shareOf_perm hperm hv.ids hv.distinct)
  obtain ⟨shares', hread', hshares⟩ := Outcome.mapM_perm hperm h.read
  have htokens : s.tokens.Perm (shares'.map Share.token) := by
    rw [h.tokens]
    exact hshares.map _
  have hpairwise := derivedEdges_iff.1 ⟨derived, h.derived⟩
  obtain ⟨derived', hderived'⟩ := derivedEdges_iff.2 ((htokens.pairwise_iff CanTell.symm).1 hpairwise)
  have h' : IsBuilt vars' collections ws maxDepth shares' derived' ⟨shares'.map Share.token, shares'.foldl Share.enter [],
      (shares'.flatMap Share.aliases).foldl addEdge [] ++ derived', s.usage⟩ :=
    { records := fun row hrow => h.records row (hperm.mem_iff.2 hrow)
      read := hreader ▸ hread'
      tokens := rfl
      modeValues := rfl
      edges := rfl
      derived := hderived'
      usage := (usageOf_perm hperm hv.ids hv.distinct ws) ▸ h.usage }
  have hv' : AreNamed vars' :=
    { ids := fun row hrow => hv.ids row (hperm.mem_iff.2 hrow)
      distinct := (hperm.map _).nodup_iff.1 hv.distinct
      records := h'.records
      names := fun row hrow => hv.names row (hperm.mem_iff.2 hrow) }
  have hnodup := h.names_nodup hv hnames
  have hnodup' := h'.names_nodup hv' ((hperm.map _).nodup_iff.1 hnames)
  obtain ⟨aliases, pairs, hgraph⟩ := h.hasGraph hv
  obtain ⟨aliases', pairs', hgraph'⟩ := h'.hasGraph hv'
  refine ⟨shares', derived', _, h', ⟨htokens, h.tokens_ids, h'.tokens_ids, ?_, rfl, fun e he => ?_, fun x y => ?_⟩⟩
  · rw [h.modeValues, h'.modeValues]
    refine enter_perm hshares (fun share hshare => ?_) ?_
    · obtain ⟨row, -, hread⟩ := h.share_mem hshare
      exact hread.labels
    · have hshown : (shares.map fun share => share.name.shown) = s.tokens.map Token.name := by
        rw [h.tokens, List.map_map]
        refine List.map_congr_left fun share hshare => ?_
        obtain ⟨row, -, hread⟩ := h.share_mem hshare
        rw [hread.text]
        rfl
      rw [hshown]
      exact hnodup
  · rw [hgraph.mem_alias he, hgraph'.mem_alias he]
    simp only [hperm.mem_iff]
  · rw [hgraph.joinsClose hnodup, hgraph'.joinsClose hnodup']
    simp only [htokens.mem_iff]

/-- Two tables of the same variables of distinct names, in different orders, either both have no tokens or have
the same. -/
theorem build_perm (hperm : vars.Perm vars') (hids : ∀ row ∈ vars, IsText row.1) (hdistinct : (vars.map Prod.fst).Nodup)
    (hnames : (vars.map fun row => nameOf row.1 row.2).Nodup) (walks : Outcome (List Walked)) :
    (∃ f ns f' ns', (build vars collections walks maxDepth).exec = (.error f, ns) ∧
      (build vars' collections walks maxDepth).exec = (.error f', ns')) ∨
    ∃ s ns s' ns', (build vars collections walks maxDepth).exec = (.ok s, ns) ∧
      (build vars' collections walks maxDepth).exec = (.ok s', ns') ∧ AreReordered vars vars' s s' := by
  have hids' : ∀ row ∈ vars', IsText row.1 := fun row hrow => hids row (hperm.mem_iff.2 hrow)
  have hdistinct' : (vars'.map Prod.fst).Nodup := (hperm.map _).nodup_iff.1 hdistinct
  cases hbuild : (build vars collections walks maxDepth).exec with
  | mk result ns =>
    cases result with
    | ok s =>
      obtain ⟨ws, shares, derived, rfl, h⟩ := build_parts hbuild
      obtain ⟨shares', derived', s', h', hsame⟩ := h.perm hperm (h.named hids hdistinct) hnames
      obtain ⟨ns', hbuild'⟩ := h'.build_eq
      exact .inr ⟨s, ns, s', ns', rfl, hbuild', hsame⟩
    | error f =>
      cases hbuild' : (build vars' collections walks maxDepth).exec with
      | mk result' ns' =>
        cases result' with
        | error f' => exact .inl ⟨f, ns, f', ns', rfl, rfl⟩
        | ok s' =>
          -- what has tokens in one order has them in the other
          obtain ⟨ws, shares', derived', rfl, h'⟩ := build_parts hbuild'
          obtain ⟨shares, derived, s, h, -⟩ := h'.perm hperm.symm (h'.named hids' hdistinct')
            ((hperm.map _).nodup_iff.1 hnames)
          obtain ⟨ns, hbuilt⟩ := h.build_eq
          rw [hbuild] at hbuilt
          cases hbuilt

end Build

/-- The palette backwards has the link before the base color that the link is an alias of. -/
theorem build_perm_palette : paletteVariables.Perm paletteVariables.reverse ∧
    (∀ row ∈ paletteVariables, IsText row.1) ∧ (paletteVariables.map Prod.fst).Nodup ∧
    (paletteVariables.map fun row => nameOf row.1 row.2).Nodup ∧
    ∃ s' ns', (build paletteVariables.reverse (.ok []) (.ok []) defaultMaxDepth).exec = (.ok s', ns') ∧
      AreReordered paletteVariables paletteVariables.reverse paletteSet s' := by
  have hperm : paletteVariables.Perm paletteVariables.reverse := (List.reverse_perm _).symm
  have hids : ∀ row ∈ paletteVariables, IsText row.1 := by simp [paletteVariables, IsText, Datum.isText]
  have hdistinct : (paletteVariables.map Prod.fst).Nodup := by simp [paletteVariables]
  have hnames : (paletteVariables.map fun row => nameOf row.1 row.2).Nodup := by
    show [Datum.text "base", Datum.text "link"].Nodup
    simp
  refine ⟨hperm, hids, hdistinct, hnames, ?_⟩
  have hboth := @build_perm _ _ (.ok []) defaultMaxDepth hperm hids hdistinct hnames (.ok [])
  rcases hboth with ⟨f, ns, f', ns', hfails, -⟩ | ⟨s, ns, s', ns', hbuild, hbuild', hsame⟩
  · rw [build_palette] at hfails
    cases hfails
  · rw [build_palette] at hbuild
    cases hbuild
    exact ⟨s', ns', hbuild', hsame⟩

end TokenSet

end Maquette
