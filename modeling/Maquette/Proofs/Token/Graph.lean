/-
The graph of the tokens of a design. Aliases are gathered variable by variable and mode by mode, each once:
an edge is among them exactly if some variable of its source's name points at a variable of its target's
name. Then every token is compared with those after it, so each pair of close tokens is met once, at the
earlier one, and makes one edge that points there.
-/
import Maquette.Proofs.Token.Readings
import Maquette.Proofs.Token.Share

namespace Maquette

open Outline (IsText)

namespace Token

/-! ## Edges added once -/

section Edges

variable {edges more : List TokenEdge} {e : TokenEdge}

/-- Edges between texts are the same only as themselves. -/
theorem sameEdge_iff {a b : TokenEdge} (hsource : IsText a.source) (htarget : IsText a.target) :
    sameEdge a b = true ↔ b = a := by
  obtain ⟨source, target, relationship⟩ := a
  obtain ⟨x, rfl⟩ := Outline.eq_text hsource
  obtain ⟨y, rfl⟩ := Outline.eq_text htarget
  have hx : (Datum.text x).same b.source = true ↔ b.source = .text x := Datum.text_same
  have hy : (Datum.text y).same b.target = true ↔ b.target = .text y := Datum.text_same
  rw [sameEdge, Bool.and_eq_true, Bool.and_eq_true, hx, hy, beq_iff_eq]
  constructor
  · rintro ⟨⟨hs, ht⟩, hr⟩
    cases b
    simp_all
  · rintro rfl
    exact ⟨⟨rfl, rfl⟩, rfl⟩

theorem mem_addEdge (he : IsText e.source ∧ IsText e.target) {x : TokenEdge} :
    x ∈ addEdge edges e ↔ x ∈ edges ∨ x = e := by
  unfold addEdge
  split
  · rename_i hany
    obtain ⟨b, hb, hsame⟩ := List.any_eq_true.1 hany
    obtain rfl := (sameEdge_iff he.1 he.2).1 hsame
    constructor
    · exact .inl
    · rintro (h | rfl)
      · exact h
      · exact hb
  · rw [List.mem_append, List.mem_singleton]

theorem nodup_addEdge (he : IsText e.source ∧ IsText e.target) (h : edges.Nodup) : (addEdge edges e).Nodup := by
  unfold addEdge
  split
  · exact h
  · rename_i hnone
    refine List.nodup_append.2 ⟨h, List.nodup_singleton e, ?_⟩
    rintro x hx y hy rfl
    obtain rfl := List.mem_singleton.1 hy
    exact hnone (List.any_eq_true.2 ⟨x, hx, (sameEdge_iff he.1 he.2).2 rfl⟩)

/-- Adding edges one by one, each unless it is there, adds exactly these edges. -/
theorem mem_foldl_addEdge (hmore : ∀ e ∈ more, IsText e.source ∧ IsText e.target) {x : TokenEdge} :
    x ∈ more.foldl addEdge edges ↔ x ∈ edges ∨ x ∈ more := by
  induction more generalizing edges with
  | nil => simp
  | cons e more ih =>
    obtain ⟨he, hmore⟩ := List.forall_mem_cons.1 hmore
    rw [List.foldl_cons, ih hmore, mem_addEdge he, List.mem_cons, or_assoc]

theorem nodup_foldl_addEdge (hmore : ∀ e ∈ more, IsText e.source ∧ IsText e.target) (h : edges.Nodup) :
    (more.foldl addEdge edges).Nodup := by
  induction more generalizing edges with
  | nil => exact h
  | cons e more ih =>
    obtain ⟨he, hmore⟩ := List.forall_mem_cons.1 hmore
    exact ih hmore (nodup_addEdge he h)

end Edges

/-! ## Close pairs -/

/-- Two tokens of one kind, both with values of their own, which are nearly equal. -/
structure AreClose (a b : Token) : Prop where
  kind : b.kind = a.kind
  first : isAlias a.value = false ∧ a.aliasOf = none
  second : isAlias b.value = false ∧ b.aliasOf = none
  near : isNear a.value b.value = .ok true

theorem ownsValue_iff (t : Token) : t.ownsValue = true ↔ isAlias t.value = false ∧ t.aliasOf = none := by
  simp [ownsValue, Option.isNone_iff_eq_none]

/-- The edge from a token to an earlier one that is close. -/
def closeEdge (earlier later : Token) : TokenEdge := ⟨.text later.name, .text earlier.name, "derived"⟩

/-- The positions of a list at which its items pass a test, with the items. -/
theorem filter_positions {α : Type} (p : α → Bool) (xs : List α) : ∃ positions : List ℕ, positions.Nodup ∧
    (∀ k, k ∈ positions ↔ ∃ x, xs[k]? = some x ∧ p x = true) ∧
    List.Forall₂ (fun k x => xs[k]? = some x) positions (xs.filter p) := by
  induction xs with
  | nil => exact ⟨[], List.nodup_nil, by simp, .nil⟩
  | cons x xs ih =>
    obtain ⟨positions, hnodup, hmem, hitems⟩ := ih
    have hlater : (positions.map (· + 1)).Nodup := hnodup.map (add_left_injective 1)
    have hitems : List.Forall₂ (fun k y => (x :: xs)[k]? = some y) (positions.map (· + 1)) (xs.filter p) :=
      List.forall₂_map_left_iff.2 hitems
    have hmem : ∀ k, k ∈ positions.map (· + 1) ↔ ∃ j, k = j + 1 ∧ ∃ y, xs[j]? = some y ∧ p y = true := by
      intro k
      rw [List.mem_map]
      exact exists_congr fun j => by rw [hmem, and_comm, eq_comm]
    cases hp : p x with
    | true =>
      refine ⟨0 :: positions.map (· + 1), List.nodup_cons.2 ⟨by simp, hlater⟩, fun k => ?_, ?_⟩
      · rw [List.mem_cons, hmem]
        cases k with
        | zero => simp [hp]
        | succ k => simp
      · rw [List.filter_cons_of_pos hp]
        exact .cons rfl hitems
    | false =>
      refine ⟨positions.map (· + 1), hlater, fun k => ?_, ?_⟩
      · rw [hmem]
        cases k with
        | zero => simp [hp]
        | succ k => simp
      · rw [List.filter_cons_of_neg (by simp [hp])]
        exact hitems

/-- Whether a token is close to one that owns its value. -/
def areNear (a b : Token) : Bool :=
  b.kind == a.kind && b.ownsValue && (isNear a.value b.value).toOption == some true

theorem areNear_iff {a b : Token} (hown : a.ownsValue = true) : areNear a b = true ↔ AreClose a b := by
  rw [areNear, Bool.and_eq_true, Bool.and_eq_true, beq_iff_eq, beq_iff_eq, ownsValue_iff]
  constructor
  · rintro ⟨⟨hkind, hsecond⟩, hnear⟩
    refine ⟨hkind, (ownsValue_iff a).1 hown, hsecond, ?_⟩
    cases hvalue : isNear a.value b.value with
    | ok near => rw [hvalue] at hnear; rw [Option.some.inj hnear]
    | error f => rw [hvalue] at hnear; cases hnear
  · rintro ⟨hkind, -, hsecond, hnear⟩
    exact ⟨⟨hkind, hsecond⟩, by rw [hnear]; rfl⟩

/-- A token that owns its value has an edge from each later one that is close to it. -/
theorem derivedFrom_owned {a : Token} {later : List Token} {edges : List TokenEdge} (hown : a.ownsValue = true)
    (h : derivedFrom a later = .ok edges) : edges = (later.filter (areNear a)).map (closeEdge a) := by
  unfold derivedFrom at h
  rw [hown, if_neg (by decide)] at h
  obtain ⟨near, hnear, h⟩ := Outcome.bind_ok h
  cases h
  have hfilter : near = later.filter (areNear a) := by
    refine Outcome.filterM_eq hnear fun b near hb => ?_
    unfold areNear
    split at hb
    · rename_i hskip
      cases hb
      rcases Bool.or_eq_true_iff.1 hskip with hkind | howns
      · simp_all
      · simp_all
    · rename_i hskip
      rw [hb]
      cases near <;> simp_all [Except.toOption]
  rw [hfilter]
  rfl

/-- The edges to a token come from the later ones that are close to it, each once. -/
theorem derivedFrom_positions {a : Token} {later : List Token} {edges : List TokenEdge}
    (h : derivedFrom a later = .ok edges) : ∃ positions : List ℕ, positions.Nodup ∧
      (∀ k, k ∈ positions ↔ ∃ b, later[k]? = some b ∧ AreClose a b) ∧
      List.Forall₂ (fun k e => ∃ b, later[k]? = some b ∧ e = closeEdge a b) positions edges := by
  by_cases hown : a.ownsValue = true
  · obtain ⟨positions, hnodup, hmem, hitems⟩ := filter_positions (areNear a) later
    refine ⟨positions, hnodup, fun k => (hmem k).trans ?_, ?_⟩
    · exact exists_congr fun b => and_congr_right fun _ => areNear_iff hown
    · rw [derivedFrom_owned hown h, List.forall₂_map_right_iff]
      exact hitems.imp fun k b hb => ⟨b, hb, rfl⟩
  · rw [derivedFrom, if_pos (by simpa using hown)] at h
    cases h
    refine ⟨[], List.nodup_nil, fun k => ?_, .nil⟩
    simp only [List.not_mem_nil, false_iff, not_exists, not_and]
    exact fun b _ hclose => hown ((ownsValue_iff a).2 hclose.first)

/-- The edges between close tokens: one for each pair of positions of close tokens, from the later one to
the earlier one. -/
structure ArePairs (tokens : List Token) (pairs : List (ℕ × ℕ)) (edges : List TokenEdge) : Prop where
  distinct : pairs.Nodup
  close : ∀ i j, (i, j) ∈ pairs ↔
    i < j ∧ ∃ a b, tokens[i]? = some a ∧ tokens[j]? = some b ∧ AreClose a b
  edges : List.Forall₂ (fun pair e => ∃ a b, tokens[pair.1]? = some a ∧ tokens[pair.2]? = some b ∧
    e = closeEdge a b) pairs edges

theorem derivedEdges_pairs {tokens : List Token} {edges : List TokenEdge} (h : derivedEdges tokens = .ok edges) :
    ∃ pairs, ArePairs tokens pairs edges := by
  induction tokens generalizing edges with
  | nil =>
    cases h
    exact ⟨[], List.nodup_nil, by simp, .nil⟩
  | cons a later ih =>
    obtain ⟨front, hfront, h⟩ := Outcome.bind_ok h
    obtain ⟨rest, hrest, h⟩ := Outcome.bind_ok h
    cases h
    obtain ⟨positions, hpositions, hclose, hfront⟩ := derivedFrom_positions hfront
    obtain ⟨pairs, hpairs⟩ := ih hrest
    -- the pairs of the first token, then those of the others, one place further
    refine ⟨positions.map (fun k => (0, k + 1)) ++ pairs.map (fun pair => (pair.1 + 1, pair.2 + 1)), ?_, ?_, ?_⟩
    · refine List.nodup_append.2 ⟨hpositions.map fun i j h => by simpa using h,
        hpairs.distinct.map fun p q h => by simpa [Prod.ext_iff] using h, ?_⟩
      rintro _ hfirst _ hother rfl
      obtain ⟨k, -, rfl⟩ := List.mem_map.1 hfirst
      obtain ⟨pair, -, heq⟩ := List.mem_map.1 hother
      simp at heq
    · intro i j
      rw [List.mem_append, List.mem_map, List.mem_map]
      cases i with
      | zero =>
        cases j with
        | zero => simp
        | succ j => simp [hclose]
      | succ i =>
        cases j with
        | zero => simp
        | succ j => simp [hpairs.close]
    · refine List.rel_append ?_ ?_
      · refine List.forall₂_map_left_iff.2 (hfront.imp fun k e he => ?_)
        obtain ⟨b, hb, rfl⟩ := he
        exact ⟨a, b, rfl, hb, rfl⟩
      · exact List.forall₂_map_left_iff.2 hpairs.edges

/-- An edge is derived exactly if it is that of close tokens, from the later one to the earlier one. -/
theorem ArePairs.mem_iff {tokens : List Token} {pairs : List (ℕ × ℕ)} {edges : List TokenEdge}
    (h : ArePairs tokens pairs edges) {e : TokenEdge} : e ∈ edges ↔
      ∃ i j : ℕ, i < j ∧ ∃ a b, tokens[i]? = some a ∧ tokens[j]? = some b ∧ AreClose a b ∧ e = closeEdge a b := by
  have hlength := h.edges.length_eq
  constructor
  · intro he
    obtain ⟨k, hk, rfl⟩ := List.getElem_of_mem he
    have hk' := hlength ▸ hk
    obtain ⟨a, b, ha, hb, heq⟩ := (List.forall₂_iff_get.1 h.edges).2 k hk' hk
    obtain ⟨hlt, a', b', ha', hb', hclose⟩ := (h.close _ _).1 (List.getElem_mem hk')
    obtain rfl := Option.some.inj (ha.symm.trans ha')
    obtain rfl := Option.some.inj (hb.symm.trans hb')
    exact ⟨_, _, hlt, a, b, ha, hb, hclose, heq⟩
  · rintro ⟨i, j, hlt, a, b, ha, hb, hclose, rfl⟩
    obtain ⟨k, hk, heq⟩ := List.getElem_of_mem ((h.close i j).2 ⟨hlt, a, b, ha, hb, hclose⟩)
    have hk' := hlength ▸ hk
    obtain ⟨a', b', ha', hb', hedge⟩ := (List.forall₂_iff_get.1 h.edges).2 k hk hk'
    rw [List.get_eq_getElem, heq] at ha' hb'
    obtain rfl := Option.some.inj (ha.symm.trans ha')
    obtain rfl := Option.some.inj (hb.symm.trans hb')
    rw [← hedge]
    exact List.getElem_mem hk'

end Token

namespace TokenSet

open Token

/-! ## Aliases -/

section Aliases

variable {vars : Variables} {collections : Token.Collections} {maxDepth : Datum} {ws : List Walked}
  {shares : List Share} {derived : List TokenEdge} {s : TokenSet}

/-- Some mode of a variable is an alias of the variable with an id. -/
def PointsAt (var id : Datum) : Prop := ∃ mode raw, (mode, raw) ∈ modesOf var ∧ isAlias raw = true ∧ aliasTarget raw = id

/-- The edge between two variables by their names. -/
def aliasEdge (row target : Datum × Datum) : TokenEdge := ⟨nameOf row.1 row.2, nameOf target.1 target.2, "alias"⟩

/-- A variable that has been read goes by the name of its token. -/
theorem IsShare.name_eq (hids : ∀ row ∈ vars, IsText row.1) (hdistinct : (vars.map Prod.fst).Nodup)
    {row : Datum × Datum} (hrow : row ∈ vars) {share : Share}
    (h : IsShare (reader vars collections maxDepth) row share) :
    share.name = nameOf row.1 row.2 ∧ nameOf row.1 row.2 = .text share.token.name := by
  obtain ⟨id, hid⟩ := Outline.eq_text (hids row hrow)
  have hlookup : List.lookup row.1 (namesOf vars) = some (nameOf row.1 row.2) := by
    have hmem : (.text id, row.2) ∈ vars := by
      rw [← hid]
      exact hrow
    rw [hid, lookup_names hids, (Table.lookup_text hdistinct).2 hmem]
    rfl
  have hname : share.name = nameOf row.1 row.2 := by rw [h.name, reader, hlookup]; rfl
  exact ⟨hname, hname.symm.trans h.text⟩

theorem IsBuilt.share (h : IsBuilt vars collections ws maxDepth shares derived s) :
    List.Forall₂ (IsShare (reader vars collections maxDepth)) vars shares :=
  (Outcome.forall₂_mapM h.read).imp fun _ _ hshare => shareOf_ok hshare

theorem IsBuilt.share_mem (h : IsBuilt vars collections ws maxDepth shares derived s) {share : Share}
    (hshare : share ∈ shares) : ∃ row ∈ vars, IsShare (reader vars collections maxDepth) row share := by
  obtain ⟨row, hrow, hread⟩ := Outcome.mem_mapM h.read share hshare
  exact ⟨row, hrow, shareOf_ok hread⟩

/-- A table that tokens could be built of has names for all its variables. -/
theorem IsBuilt.named (hids : ∀ row ∈ vars, IsText row.1) (hdistinct : (vars.map Prod.fst).Nodup)
    (h : IsBuilt vars collections ws maxDepth shares derived s) : AreNamed vars where
  ids := hids
  distinct := hdistinct
  records := h.records
  names := by
    intro row hrow
    obtain ⟨share, -, hread⟩ := Outcome.mapM_mem h.read row hrow
    rw [((shareOf_ok hread).name_eq hids hdistinct hrow).2]
    rfl

/-- A value is an alias of a named variable exactly if it points at a variable of the table. -/
theorem aliasName_eq_some (hv : AreNamed vars) {raw name : Datum} {found : Option Datum}
    (h : aliasName (reader vars collections maxDepth) raw = .ok found) :
    found = some name ↔
      isAlias raw = true ∧ ∃ target ∈ vars, aliasTarget raw = target.1 ∧ name = nameOf target.1 target.2 := by
  unfold aliasName at h
  split at h
  · rename_i ha
    obtain ⟨key, hkey, h⟩ := Outcome.bind_ok h
    obtain rfl := Datum.asKey_ok hkey
    cases h
    rw [reader, lookup_namesOf hv]
    constructor
    · rintro ⟨var, hvar, hname⟩
      exact ⟨ha, (aliasTarget raw, var), hvar, rfl, hname⟩
    · rintro ⟨-, ⟨id, var⟩, hvar, hid, hname⟩
      refine ⟨var, ?_, ?_⟩
      · rw [hid]
        exact hvar
      · rw [hid, hname]
  · rename_i ha
    cases h
    simp [ha]

/-- The aliases among the values of a variable. -/
theorem mem_aliases (hv : AreNamed vars) {row : Datum × Datum} (hrow : row ∈ vars) {share : Share}
    (h : IsShare (reader vars collections maxDepth) row share) {e : TokenEdge} :
    e ∈ share.aliases ↔ ∃ target ∈ vars, PointsAt row.2 target.1 ∧ e = aliasEdge row target := by
  have hname := (h.name_eq hv.ids hv.distinct hrow).1
  unfold Share.aliases
  rw [List.mem_filterMap]
  constructor
  · rintro ⟨m, hm, he⟩
    obtain ⟨name, htarget, rfl⟩ := Option.map_eq_some_iff.1 he
    obtain ⟨i, hi, rfl⟩ := List.getElem_of_mem hm
    have hlength := h.modes.length_eq
    obtain ⟨ha, target, hmem, hpoints, rfl⟩ :=
      (aliasName_eq_some hv ((List.forall₂_iff_get.1 h.modes).2 i (hlength ▸ hi) hi)).1 htarget
    refine ⟨target, hmem, ⟨_, _, List.getElem_mem (hlength ▸ hi), ha, hpoints⟩, ?_⟩
    rw [aliasEdge, hname]
  · rintro ⟨target, hmem, ⟨mode, raw, hraw, ha, hpoints⟩, rfl⟩
    obtain ⟨i, hi, heq⟩ := List.getElem_of_mem hraw
    have hi' := h.modes.length_eq ▸ hi
    have hread := (List.forall₂_iff_get.1 h.modes).2 i hi hi'
    simp only [List.get_eq_getElem, heq] at hread
    refine ⟨_, List.getElem_mem hi', ?_⟩
    rw [ModeShare.alias?, (aliasName_eq_some hv hread).2 ⟨ha, target, hmem, hpoints, rfl⟩, hname]
    rfl

/-- The aliases of all variables. -/
theorem mem_allAliases (hv : AreNamed vars) (h : IsBuilt vars collections ws maxDepth shares derived s)
    {e : TokenEdge} : e ∈ shares.flatMap Share.aliases ↔
      ∃ row ∈ vars, ∃ target ∈ vars, PointsAt row.2 target.1 ∧ e = aliasEdge row target := by
  rw [List.mem_flatMap]
  constructor
  · rintro ⟨share, hshare, he⟩
    obtain ⟨row, hrow, hread⟩ := h.share_mem hshare
    exact ⟨row, hrow, (mem_aliases hv hrow hread).1 he⟩
  · rintro ⟨row, hrow, he⟩
    obtain ⟨share, hshare, hread⟩ := Outcome.mapM_mem h.read row hrow
    exact ⟨share, hshare, (mem_aliases hv hrow (shareOf_ok hread)).2 he⟩

theorem allAliases_text (hv : AreNamed vars) (h : IsBuilt vars collections ws maxDepth shares derived s) :
    ∀ e ∈ shares.flatMap Share.aliases, IsText e.source ∧ IsText e.target := by
  intro e he
  obtain ⟨row, hrow, target, htarget, -, rfl⟩ := (mem_allAliases hv h).1 he
  exact ⟨hv.names row hrow, hv.names target htarget⟩

/-- What a token is an alias of, one of its values points at. -/
theorem aliasOf_mem (hv : AreNamed vars) {row : Datum × Datum} (hrow : row ∈ vars) {share : Share}
    (h : IsShare (reader vars collections maxDepth) row share) {name : Datum}
    (hname : share.token.aliasOf = some name) : ∃ target ∈ vars, PointsAt row.2 target.1 ∧
      (⟨.text share.token.name, name, "alias"⟩ : TokenEdge) = aliasEdge row target := by
  obtain ⟨raw, hread, hraw⟩ := h.aliasOf
  obtain ⟨ha, target, hmem, hpoints, rfl⟩ := (aliasName_eq_some hv hread).1 hname
  rcases hraw with rfl | ⟨mode, hraw⟩
  · cases ha
  · refine ⟨target, hmem, ⟨mode, raw, hraw, ha, hpoints⟩, ?_⟩
    rw [aliasEdge, (h.name_eq hv.ids hv.distinct hrow).2]

end Aliases

/-! ## Readable tables -/

section Readable

variable {vars : Variables} {table : Table Datum Datum}

theorem modeShare_readable (hr : AreReadable vars table) {row : Datum × Datum} (hrow : row ∈ vars) (depth : ℕ)
    {name : String} {names : Table Datum Datum} (default : Datum)
    (hlabel : ∀ mode, ∃ label, modeName names (.text mode) = .ok label) {value : String × Datum}
    (hvalue : value ∈ modesOf row.2) :
    ∃ m, modeShare (reader vars (.ok table) (.int depth)) ⟨row.1, .text name, names, default⟩ value.1 value.2 = .ok m ∧
      IsHeldIn vars m.value := by
  obtain ⟨x, held, -, hheld, hin, hgives⟩ := hr.resolves hrow value.1 depth
  obtain ⟨r, ns, hr', hx⟩ := hgives []
  obtain ⟨label, hlabel⟩ := hlabel value.1
  obtain ⟨target, htarget⟩ :=
    aliasName_ok (reader vars (.ok table) (.int depth)) ((hr.entries row hrow).targets value hvalue)
  refine ⟨⟨value.1, label, held, r.value, target⟩, ?_, hin⟩
  unfold modeShare
  rw [reader] at htarget ⊢
  simp only [Run.exec_eq, hr', Outcome.ok_bind, hx, hheld, hlabel, Datum.asKey, Datum.isKey, if_true, htarget]
  rfl

/-- The values of a variable are those that its modes were read with. -/
theorem mem_addModes {default : Datum} {modes : List ModeShare} {m : Modes} {entry : Datum × Datum}
    (h : entry ∈ (modes.foldl (Modes.addMode default) m).values) :
    entry ∈ m.values ∨ ∃ share ∈ modes, entry.2 = share.value := by
  induction modes generalizing m with
  | nil => exact .inl h
  | cons share modes ih =>
    rcases ih h with h | ⟨other, hother, heq⟩
    · rcases Table.mem_set h with h | h
      · exact .inl h
      · exact .inr ⟨share, List.mem_cons_self, h⟩
    · exact .inr ⟨other, List.mem_cons_of_mem _ hother, heq⟩

/-- The variables of a readable table can be read. -/
theorem shareOf_readable (hr : AreReadable vars table) {row : Datum × Datum} (hrow : row ∈ vars) (depth : ℕ) :
    ∃ share, shareOf (reader vars (.ok table) (.int depth)) row = .ok share ∧ IsHeldIn vars share.token.value := by
  have hvar := hr.entries row hrow
  obtain ⟨name, hname⟩ := Outline.eq_text (hr.names row hrow)
  obtain ⟨hcrecord, hctitled, -⟩ := hr.collectionIn_spec row.2
  obtain ⟨names, hnames, htexts⟩ := modeNames_ok hcrecord hctitled
  have hlabel := modeName_label hnames htexts
  obtain ⟨hdefault, -, -⟩ := hr.modeFor_default hrow
  obtain ⟨label, hdlabel, -⟩ := modeName_default htexts hlabel (defaultMode? table row.2)
  obtain ⟨scopes, hscopes, hkeys⟩ := hr.scopes row hrow
  obtain ⟨target, htarget⟩ := aliasName_ok (reader vars (.ok table) (.int depth))
    (value_target hvar (defaultMode? table row.2))
  have hfound : ((namesOf vars).lookup row.1).getD .null = .text name := by
    rw [(lookup_namesOf hr.toAreNamed).2 ⟨row.2, hrow, rfl⟩]
    exact hname
  obtain ⟨shares, hshares, hheld⟩ := Outcome.mapM_all (f := fun value : String × Datum =>
    modeShare (reader vars (.ok table) (.int depth))
      ⟨row.1, .text name, names, modeDatum (defaultMode? table row.2)⟩ value.1 value.2)
    (Q := fun m => IsHeldIn vars m.value) (fun _ h => h) fun value hvalue =>
      modeShare_readable hr hrow depth _ (fun mode => ⟨_, hlabel mode⟩) hvalue
  obtain ⟨modes, hmodes⟩ : ∃ modes, modes =
      shares.foldl (Modes.addMode (modeDatum (defaultMode? table row.2))) ⟨[], .null⟩ := ⟨_, rfl⟩
  have hvalues : ∀ entry ∈ modes.values, IsHeldIn vars entry.2 := by
    intro entry hentry
    rw [hmodes] at hentry
    rcases mem_addModes hentry with h | ⟨m, hm, heq⟩
    · cases h
    · rw [heq]
      exact hheld m hm
  obtain ⟨kind, hkind⟩ := kindOf_ok hscopes hkeys name modes.rawDefault
    ((row.2.at? "resolvedType").getD (.text ""))
  refine ⟨⟨.text name,
    { name := name
      semanticName := pathName name kind
      value := (modes.values.lookup label).getD (.text "")
      kind := kind
      modes := modes.values
      variableId := row.1
      collection := given (((collectionIn table row.2).at? "name").getD .null)
      description := given ((row.2.at? "description").getD .null)
      aliasOf := target }, shares⟩, ?_, Table.lookup_getD hvalues (.inl rfl)⟩
  have hcollection : Token.collectionOf (.ok table) row.2 = .ok (collectionIn table row.2) := collectionOf_eq hvar
  subst hmodes
  unfold shareOf
  rw [reader] at htarget hshares ⊢
  simp only [Datum.fieldOr_eq hvar.isRecord, hcollection, hnames, Datum.fieldOr_eq hcrecord, hdefault,
    valuesOf_eq hvar, hfound, hshares, Datum.get_eq hvar.isRecord, Datum.get_eq hcrecord, hkind, hdlabel,
    valueIn_eq hvar, htarget, Outcome.ok_bind]
  rfl

end Readable

/-! ## The whole graph -/

/-- The graph of a set of tokens that is built of a table of variables: what it is written as, its edges,
and which pairs of tokens the derived ones come from. -/
structure HasGraph (vars : Variables) (s : TokenSet) (aliases derived : List TokenEdge) (pairs : List (ℕ × ℕ)) :
    Prop where
  written : s.toDatum.at? "tokenGraph" = some (.record
    [("nodes", .list (vars.map fun row => nameOf row.1 row.2)), ("edges", .list (s.edges.map edgeDatum))])
  tokens : List.Forall₂ (fun row token => token.variableId = row.1 ∧ nameOf row.1 row.2 = .text token.name) vars s.tokens
  edges : s.edges = aliases ++ derived
  ends : ∀ e ∈ s.edges, (∃ row ∈ vars, e.source = nameOf row.1 row.2) ∧ ∃ row ∈ vars, e.target = nameOf row.1 row.2
  distinct : aliases.Nodup
  pointing : ∀ e, e ∈ aliases ↔ ∃ row ∈ vars, ∃ target ∈ vars, PointsAt row.2 target.1 ∧ e = aliasEdge row target
  aliased : ∀ token ∈ s.tokens, ∀ name, token.aliasOf = some name →
    (⟨.text token.name, name, "alias"⟩ : TokenEdge) ∈ aliases
  close : ArePairs s.tokens pairs derived

section Graph

variable {vars : Variables} {collections : Token.Collections} {maxDepth : Datum} {ws : List Walked}
  {shares : List Share} {derived : List TokenEdge} {s : TokenSet}

/-- A set that is made of what the variables of a table add is built of the table. -/
theorem IsBuilt.build_eq (h : IsBuilt vars collections ws maxDepth shares derived s) :
    ∃ ns, (build vars collections (.ok ws) maxDepth).exec = (.ok s, ns) := by
  have hyield := build_yields vars collections (.ok ws) maxDepth []
  have hread := h.read
  have hderived := h.derived
  rw [h.tokens] at hderived
  rw [reader] at hread
  rw [← Run.exec_eq, variableNames_ok h.records] at hyield
  simp only [Outcome.ok_bind, hread, foldl_add, List.nil_append, hderived, h.usage] at hyield
  refine ⟨_, Prod.ext (hyield.trans ?_) rfl⟩
  rw [← h.tokens, ← h.modeValues, ← h.edges]
  rfl

theorem IsBuilt.token_eq (hv : AreNamed vars) (h : IsBuilt vars collections ws maxDepth shares derived s) :
    List.Forall₂ (fun row token => token.variableId = row.1 ∧ nameOf row.1 row.2 = .text token.name) vars s.tokens := by
  rw [h.tokens, List.forall₂_map_right_iff]
  refine List.forall₂_iff_get.2 ⟨h.share.length_eq, fun i hi hi' => ?_⟩
  have hread := (List.forall₂_iff_get.1 h.share).2 i hi hi'
  exact ⟨hread.variableId, (hread.name_eq hv.ids hv.distinct (List.get_mem _ _)).2⟩

theorem IsBuilt.hasGraph (hv : AreNamed vars) (h : IsBuilt vars collections ws maxDepth shares derived s) :
    ∃ aliases pairs, HasGraph vars s aliases derived pairs := by
  obtain ⟨pairs, hpairs⟩ := derivedEdges_pairs h.derived
  have htexts := allAliases_text hv h
  have haliases : ∀ e, e ∈ (shares.flatMap Share.aliases).foldl addEdge [] ↔
      ∃ row ∈ vars, ∃ target ∈ vars, PointsAt row.2 target.1 ∧ e = aliasEdge row target := by
    intro e
    rw [mem_foldl_addEdge htexts, mem_allAliases hv h]
    simp
  have htokens := h.token_eq hv
  have hnamed : ∀ token ∈ s.tokens, ∃ row ∈ vars, .text token.name = nameOf row.1 row.2 := by
    intro token htoken
    obtain ⟨i, hi, rfl⟩ := List.getElem_of_mem htoken
    have hi' := htokens.length_eq ▸ hi
    exact ⟨vars[i], List.getElem_mem hi', ((List.forall₂_iff_get.1 htokens).2 i hi' hi).2.symm⟩
  refine ⟨_, pairs, ?_, htokens, h.edges, fun e he => ?_, nodup_foldl_addEdge htexts List.nodup_nil, haliases,
    fun token htoken name hname => ?_, hpairs⟩
  · have hnodes : (s.tokens.map fun token => Datum.text token.name) = vars.map fun row => nameOf row.1 row.2 := by
      rw [← List.forall₂_eq_eq_eq, List.forall₂_map_left_iff, List.forall₂_map_right_iff]
      exact htokens.flip.imp fun _ _ hread => hread.2.symm
    rw [← hnodes]
    rfl
  · rw [h.edges] at he
    rcases List.mem_append.1 he with he | he
    · obtain ⟨row, hrow, target, htarget, -, rfl⟩ := (haliases e).1 he
      exact ⟨⟨row, hrow, rfl⟩, target, htarget, rfl⟩
    · obtain ⟨i, j, -, a, b, ha, hb, -, rfl⟩ := hpairs.mem_iff.1 he
      exact ⟨hnamed b (List.mem_of_getElem? hb), hnamed a (List.mem_of_getElem? ha)⟩
  · rw [h.tokens] at htoken
    obtain ⟨share, hshare, rfl⟩ := List.mem_map.1 htoken
    obtain ⟨row, hrow, hread⟩ := h.share_mem hshare
    obtain ⟨target, htarget, hpoints, heq⟩ := aliasOf_mem hv hrow hread hname
    exact (haliases _).2 ⟨row, hrow, target, htarget, hpoints, heq⟩

end Graph

/-- The graph of the tokens of a table of variables, whatever collections they are read with. Its nodes are
the tokens in the order of the table, and both ends of each edge are among them; the aliases are all distinct
and just those that some mode is, so each token that is an alias has its own; and each pair of close tokens
makes one edge to the earlier one. If the parts of the table are of their kinds and the texts in it can be
compared, then it has a graph, unless the uses of its variables cannot be told. -/
theorem graph_wellFormed {vars : Variables} (hids : ∀ row ∈ vars, IsText row.1)
    (hdistinct : (vars.map Prod.fst).Nodup) :
    (∀ collections walks maxDepth s ns, (build vars collections walks maxDepth).exec = (.ok s, ns) →
      ∃ aliases derived pairs, HasGraph vars s aliases derived pairs) ∧
    ∀ table walks depth usage, AreReadable vars table → AreComparable vars →
      usageOf (namesOf vars) walks = .ok usage →
      ∃ s ns, (build vars (.ok table) (.ok walks) (.int (depth : ℕ))).exec = (.ok s, ns) := by
  constructor
  · intro collections walks maxDepth s ns h
    obtain ⟨ws, shares, derived, -, hbuilt⟩ := build_parts h
    obtain ⟨aliases, pairs, hgraph⟩ := hbuilt.hasGraph (hbuilt.named hids hdistinct)
    exact ⟨aliases, derived, pairs, hgraph⟩
  · intro table walks depth usage hr hc husage
    obtain ⟨shares, hshares, hheld⟩ := Outcome.mapM_all (f := shareOf (reader vars (.ok table) (.int depth)))
      (Q := fun share => IsHeldIn vars share.token.value) (fun _ h => h) fun row hrow => shareOf_readable hr hrow depth
    have htokens : ∀ token ∈ shares.map Share.token, IsHeldIn vars token.value := by
      intro token htoken
      obtain ⟨share, hshare, rfl⟩ := List.mem_map.1 htoken
      exact hheld share hshare
    obtain ⟨derived, hderived⟩ := derivedEdges_comparable hr hc htokens
    have hbuilt : IsBuilt vars (.ok table) walks (.int depth) shares derived
        ⟨shares.map Share.token, shares.foldl Share.enter [], (shares.flatMap Share.aliases).foldl addEdge [] ++ derived,
          usage⟩ := ⟨hr.records, hshares, rfl, rfl, rfl, hderived, husage⟩
    exact ⟨_, hbuilt.build_eq⟩

/-- Of two inks of one name, one is dark like the other: the one alias is between this name and itself. -/
theorem graph_wellFormed_inks : (∀ row ∈ shadedInks, IsText row.1) ∧ (shadedInks.map Prod.fst).Nodup ∧
    ∃ s ns aliases derived pairs, (build shadedInks (.ok shadeTable) (.ok []) (.int 10)).exec = (.ok s, ns) ∧
      HasGraph shadedInks s aliases derived pairs ∧ (⟨.text "ink", .text "ink", "alias"⟩ : TokenEdge) ∈ aliases := by
  have hids := areReadable_inks.ids
  have hdistinct := areReadable_inks.distinct
  obtain ⟨hgraph, hreturns⟩ := graph_wellFormed hids hdistinct
  obtain ⟨s, ns, hbuild⟩ := hreturns shadeTable [] 10 [] areReadable_inks areComparable_inks rfl
  obtain ⟨aliases, derived, pairs, hwell⟩ := hgraph _ _ _ s ns hbuild
  refine ⟨hids, hdistinct, s, ns, aliases, derived, pairs, hbuild, hwell, (hwell.pointing _).2 ?_⟩
  refine ⟨_, List.mem_cons_self, _, List.mem_cons_of_mem _ List.mem_cons_self, ⟨"d",
    .record [("type", .text "VARIABLE_ALIAS"), ("id", .text "V:2")], ?_, rfl, rfl⟩, rfl⟩
  exact List.mem_cons_of_mem _ List.mem_cons_self

end TokenSet

end Maquette
