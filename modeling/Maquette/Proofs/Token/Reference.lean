/-
References between tokens. An alias is written as a reference to the property of the token that comes
from the variable it points at, whatever the value of that token is; where there is no such token, a
remark stands instead. So the property that is referred to is not declared in the root if each token
that has it is by default itself an alias that no token stands behind.
-/
import Maquette.Proofs.Token.Property

namespace Maquette

open Outline (IsText)

namespace Token

/-- A value is an alias of the variable that a token comes from. A variable with an empty id cannot be
referred to. -/
structure IsTargetOf (t : Token) (value : Datum) : Prop where
  isAlias : isAlias value = true
  isTarget : aliasTarget value = t.variableId
  hasId : t.variableId ≠ .text ""

theorem cssVar_eq (t : Token) : cssVar t.name = "var(" ++ t.property ++ ")" := by
  have hopen : ("var(--" : String) = "var(" ++ "--" := by decide
  rw [cssVar, property, hopen, @String.append_assoc "var("]

end Token

namespace TokenSet

open Token (IsHeld IsTargetOf AreVariables)

/-- The names of the tokens with the ids of their variables. -/
def nameRows (s : TokenSet) : List (Datum × Datum) :=
  s.tokens.filterMap fun t =>
    if t.variableId.isTruthy then some (t.variableId, .text t.name) else none

theorem mem_nameRows {s : TokenSet} {id : String} {name : Datum} :
    (.text id, name) ∈ s.nameRows ↔
      id ≠ "" ∧ ∃ t ∈ s.tokens, t.variableId = .text id ∧ name = .text t.name := by
  have htruthy : (Datum.text id).isTruthy = true ↔ id ≠ "" := by simp [Datum.isTruthy]
  rw [nameRows, List.mem_filterMap]
  constructor
  · rintro ⟨t, ht, hrow⟩
    split at hrow
    · rename_i hid
      obtain ⟨hkey, hname⟩ := Prod.mk.inj (Option.some.inj hrow)
      rw [hkey] at hid
      exact ⟨htruthy.1 hid, t, ht, hkey, hname.symm⟩
    · cases hrow
  · rintro ⟨hne, t, ht, hid, rfl⟩
    exact ⟨t, ht, by rw [hid, if_pos (htruthy.2 hne)]⟩

section References

variable {vars : Token.Variables} {s : TokenSet} (hs : s.Holds vars) (hids : ∀ row ∈ vars, IsText row.1)

include hs hids

/-! ## Names of targets -/

/-- A token whose variable has an id has a name. -/
theorem Holds.name_ne_empty {t : Token} (ht : t ∈ s.tokens) (hid : t.variableId ≠ .text "") :
    t.name ≠ "" := by
  intro hempty
  obtain ⟨id, hvar⟩ := Outline.eq_text (hs.variableId_text hids _ ht)
  have hname := hs.names t ht
  rw [hempty, hvar, Token.lookup_names hids] at hname
  rw [hvar] at hid
  cases hlook : List.lookup (Datum.text id) vars with
  | none => rw [hlook] at hname; cases hname
  | some var =>
    -- a variable without a name goes by its id
    rw [hlook, Option.map_some, Option.getD_some, Token.nameOf, Datum.orElse] at hname
    split at hname
    · rename_i htruthy
      rw [← hname] at htruthy
      cases htruthy
    · exact hid hname.symm

/-- What is found under an id is the name of the token that comes from this variable. -/
theorem Holds.lookup_names_iff {id : String} {name : Datum} : s.names.lookup (.text id) = some name ↔
    id ≠ "" ∧ ∃ t ∈ s.tokens, t.variableId = .text id ∧ name = .text t.name := by
  have hkeys : ∀ row ∈ s.nameRows, IsText row.1 := by
    intro row hrow
    obtain ⟨t, ht, hrow⟩ := List.mem_filterMap.1 hrow
    split at hrow
    · rw [← Option.some.inj hrow]
      exact hs.variableId_text hids _ ht
    · cases hrow
  have hrows : s.names.lookup (.text id) = s.nameRows.reverse.lookup (.text id) :=
    Table.lookup_ofRows hkeys id
  have hfound : ∀ name, s.names.lookup (.text id) = some name → (.text id, name) ∈ s.nameRows := by
    intro name h
    rw [hrows] at h
    obtain ⟨k, hk, hrow⟩ := Table.mem_of_lookup h
    rw [← Datum.text_same.1 hk]
    exact List.mem_reverse.1 hrow
  constructor
  · intro h
    exact mem_nameRows.1 (hfound name h)
  · rintro ⟨hne, t, ht, hid, rfl⟩
    have hsome : (s.names.lookup (.text id)).isSome = true := by
      rw [hrows, List.lookup_isSome_iff]
      exact ⟨_, List.mem_reverse.2 (mem_nameRows.2 ⟨hne, t, ht, hid, rfl⟩), Datum.same_text.2 rfl⟩
    obtain ⟨name, hname⟩ := Option.isSome_iff_exists.1 hsome
    -- another token that comes from the variable has the same name
    obtain ⟨-, u, hu, hid', rfl⟩ := mem_nameRows.1 (hfound name hname)
    rw [hname, hs.names u hu, hs.names t ht, hid, hid']

/-! ## References -/

/-- An alias is written as a reference to the property of the token that it points at. -/
theorem Holds.css?_target (t : Token) {value : Datum} {target : Token} (ht : target ∈ s.tokens)
    (h : target.IsTargetOf value) : s.css? (t, value) = some ("var(" ++ target.property ++ ")") := by
  obtain ⟨id, hid⟩ := Outline.eq_text (hs.variableId_text hids _ ht)
  have hne : id ≠ "" := fun hempty => h.hasId (by rw [hid, hempty])
  have hlook : s.names.lookup (.text id) = some (.text target.name) :=
    (hs.lookup_names_iff hids).2 ⟨hne, target, ht, hid, rfl⟩
  rw [s.css?_reference t h.isAlias (h.isTarget.trans hid), hlook, ← Token.cssVar_eq]
  simp [Datum.text?, Option.filter_some, hs.name_ne_empty hids ht h.hasId]

/-- A held value is written as something unless it is an alias that no token stands behind. -/
theorem Holds.css?_eq_none (t : Token) {value : Datum} (hheld : IsHeld value) :
    s.css? (t, value) = none ↔
      Token.isAlias value = true ∧ ∀ target ∈ s.tokens, ¬ target.IsTargetOf value := by
  constructor
  · intro h
    constructor
    · by_contra hne
      obtain ⟨css, hcss⟩ := s.css?_some (c := (t, value)) hheld (Bool.eq_false_iff.2 hne)
      rw [h] at hcss
      cases hcss
    · intro target htarget hpoints
      rw [hs.css?_target hids t htarget hpoints] at h
      cases h
  · rintro ⟨ha, hmissing⟩
    obtain ⟨id, hid⟩ := hheld.aliasTarget_text ha
    rw [s.css?_reference t ha hid]
    cases hlook : s.names.lookup (.text id) with
    | none => rfl
    | some name =>
      obtain ⟨hne, u, hu, huid, -⟩ := (hs.lookup_names_iff hids).1 hlook
      refine absurd ⟨ha, hid.trans huid.symm, ?_⟩ (hmissing u hu)
      rw [huid]
      exact fun h => hne (Datum.text.inj h)

/-- The root declares the property of a token unless all tokens that have it are aliases that no token
stands behind. -/
theorem Holds.declared_root_iff (t : Token) : Css.declared s.rules .root t.property ≠ [] ↔
    ∃ u ∈ s.tokens, u.property = t.property ∧
      (Token.isAlias u.value = true → ∃ target ∈ s.tokens, target.IsTargetOf u.value) := by
  have hroot : Css.declared s.rules .root t.property =
      (s.defaults.filter (·.1.property = t.property)).filterMap s.css? := by
    rw [← valuesOf_cells]
    exact Css.declared_root t.property
  have hdeclared : ∀ u ∈ s.tokens, s.css? (u, u.value) ≠ none ↔
      (Token.isAlias u.value = true → ∃ target ∈ s.tokens, target.IsTargetOf u.value) := by
    intro u hu
    rw [Ne, hs.css?_eq_none hids u (hs.gathered.value_held hu), not_and]
    refine imp_congr_right fun _ => ?_
    simp
  rw [hroot, Ne, List.filterMap_eq_nil_iff]
  constructor
  · intro h
    obtain ⟨c, hc⟩ := not_forall.1 h
    obtain ⟨hmem, hcss⟩ := Classical.not_imp.1 hc
    obtain ⟨hdefault, hproperty⟩ := List.mem_filter.1 hmem
    obtain ⟨u, value⟩ := c
    obtain ⟨hu, hvalue⟩ := hs.mem_defaults.1 hdefault
    obtain rfl : value = u.value := hvalue
    exact ⟨u, hu, of_decide_eq_true hproperty, (hdeclared u hu).1 hcss⟩
  · rintro ⟨u, hu, hproperty, hvalue⟩ hnone
    refine (hdeclared u hu).2 hvalue (hnone (u, u.value) (List.mem_filter.2 ⟨?_, ?_⟩))
    · exact hs.mem_defaults.2 ⟨hu, rfl⟩
    · exact decide_eq_true hproperty

end References

/-- All that is declared is declared for a cell. -/
theorem declared_line (s : TokenSet) : ∀ r ∈ s.rules, ∀ d ∈ r.declarations,
    ∃ c ∈ s.cells, s.line c = .declaration d.1 d.2 := by
  have hline : ∀ (cells : List Cell), ∀ d ∈ cells.filterMap s.declaration?,
      ∃ c ∈ cells, s.line c = .declaration d.1 d.2 := by
    intro cells d hd
    obtain ⟨c, hc, hd⟩ := List.mem_filterMap.1 hd
    obtain ⟨css, hcss, rfl⟩ := Option.map_eq_some_iff.1 hd
    exact ⟨c, hc, by rw [line, hcss]⟩
  refine List.forall_mem_cons.2 ⟨?_, List.forall_mem_map.2 fun mode hmode => ?_⟩
  · intro d hd
    obtain ⟨c, hc, hd⟩ := hline _ d hd
    exact ⟨c, List.mem_append_left _ hc, hd⟩
  · intro d hd
    obtain ⟨c, hc, hd⟩ := hline _ d hd
    have hc : c ∈ s.modes.flatMap s.overrides :=
      List.mem_flatMap.2 ⟨mode, (List.mem_filter.1 hmode).1, hc⟩
    exact ⟨c, List.mem_append_right _ hc, hd⟩

/-! ## Declared references -/

/-- In the sheet of a set that is built from a table of variables, an alias is written as a reference
to the property of the token that comes from the variable it points at, and as a remark if there is no
such token. The root declares the property of a token exactly if some token that has it is by default
no alias, or one that a token stands behind. -/
theorem references_declared_iff {vars : Token.Variables} {table : Table Datum Datum}
    {walks : List Walked} {maxDepth : Datum} {s : TokenSet} {ns : List Notice} (hv : AreVariables vars)
    (hl : AreLabelled vars table)
    (h : (build vars (.ok table) (.ok walks) maxDepth).exec = (.ok s, ns)) :
    s.tokens.map (·.variableId) = vars.map (·.1) ∧
      (∃ notices, (Token.sheet s.toDatum).exec = (.ok (Css.printed s.remarks s.blocks), notices)) ∧
      (∀ b ∈ s.blocks, ∀ d ∈ b.rule.declarations, ∃ c ∈ s.cells, s.line c = .declaration d.1 d.2) ∧
      (∀ c ∈ s.cells, Token.isAlias c.2 = true →
        (∃ t ∈ s.tokens, t.IsTargetOf c.2 ∧
          s.line c = .declaration c.1.property ("var(" ++ t.property ++ ")")) ∨
        (∀ t ∈ s.tokens, ¬ t.IsTargetOf c.2) ∧
          s.line c = .remark (c.1.property ++ ": unresolved alias")) ∧
      ∀ t ∈ s.tokens, Css.declared (s.blocks.map Css.Block.rule) .root t.property ≠ [] ↔
        ∃ u ∈ s.tokens, u.property = t.property ∧
          (Token.isAlias u.value = true → ∃ target ∈ s.tokens, target.IsTargetOf u.value) := by
  have hs := build_holds hv hl h
  refine ⟨hs.ids, ⟨_, sheet_after hs hl.ids []⟩, ?_, ?_, ?_⟩
  · intro b hb
    refine s.declared_line b.rule ?_
    rw [← map_rule_blocks]
    exact List.mem_map_of_mem hb
  · rintro ⟨t, value⟩ hc ha
    by_cases htarget : ∃ target ∈ s.tokens, target.IsTargetOf value
    · obtain ⟨target, hmem, hpoints⟩ := htarget
      refine .inl ⟨target, hmem, hpoints, ?_⟩
      rw [line, hs.css?_target hl.ids t hmem hpoints]
    · have hmissing : ∀ target ∈ s.tokens, ¬ target.IsTargetOf value :=
        fun target hmem hpoints => htarget ⟨target, hmem, hpoints⟩
      refine .inr ⟨hmissing, ?_⟩
      rw [line, (hs.css?_eq_none hl.ids t (hs.cells_held _ hc)).2 ⟨ha, hmissing⟩]
  · intro t _
    rw [map_rule_blocks]
    exact hs.declared_root_iff hl.ids t

/-- One color refers to another, which refers to a variable that is not in the table. -/
def danglingVariables : Token.Variables :=
  [(.text "V:1", colorVariable "a" [("m", aliasTo "V:2")]),
   (.text "V:2", colorVariable "b" [("m", aliasTo "V:9")])]

def danglingSet : TokenSet :=
  { tokens := [
      colorToken "V:1" "a" (aliasTo "V:2") [("m", aliasTo "V:2")] (some (.text "b")),
      colorToken "V:2" "b" (aliasTo "V:9") [("m", aliasTo "V:9")] none]
    modeValues := [(.text "m", [("a", aliasTo "V:2"), ("b", aliasTo "V:9")])]
    edges := [⟨.text "a", .text "b", "alias"⟩]
    usage := [] }

theorem areVariables_dangling : AreVariables danglingVariables := by
  refine List.forall_mem_cons.2 ⟨.inr (isVariable_color _ ?_),
    List.forall_mem_singleton.2 (.inr (isVariable_color _ ?_))⟩
  all_goals simp [aliasTo, Token.aliasTarget, Datum.at?, List.lookup]

theorem areLabelled_dangling : AreLabelled danglingVariables [] :=
  ⟨List.forall_mem_cons.2 ⟨rfl, List.forall_mem_singleton.2 rfl⟩, List.forall_mem_nil _⟩

theorem build_dangling : (build danglingVariables (.ok []) (.ok []) Token.defaultMaxDepth).exec =
    (.ok danglingSet, [.danglingAlias "V:9" "V:1" "m", .danglingAlias "V:9" "V:2" "m"]) := by
  cbv

theorem not_isTargetOf_missing : ∀ t ∈ danglingSet.tokens, ¬ t.IsTargetOf (aliasTo "V:9") := by
  refine List.forall_mem_cons.2 ⟨?_, List.forall_mem_singleton.2 ?_⟩
  · exact fun h => absurd (Datum.text.inj h.isTarget) (by decide)
  · exact fun h => absurd (Datum.text.inj h.isTarget) (by decide)

/-- The first color is written as a reference, and the root does not declare what it refers to. -/
theorem references_declared_dangling :
    (build danglingVariables (.ok []) (.ok []) Token.defaultMaxDepth).exec =
        (.ok danglingSet, [.danglingAlias "V:9" "V:1" "m", .danglingAlias "V:9" "V:2" "m"]) ∧
      (∃ c ∈ danglingSet.cells, danglingSet.line c = .declaration "--a" "var(--b)") ∧
      ∃ t ∈ danglingSet.tokens, t.property = "--b" ∧
        Css.declared (danglingSet.blocks.map Css.Block.rule) .root t.property = [] := by
  obtain ⟨-, -, -, hline, hdeclared⟩ :=
    references_declared_iff areVariables_dangling areLabelled_dangling build_dangling
  have hb : (colorToken "V:2" "b" (aliasTo "V:9") [("m", aliasTo "V:9")] none).property = "--b" := by
    decide +kernel
  refine ⟨build_dangling, ?_, _, List.mem_cons_of_mem _ List.mem_cons_self, hb, ?_⟩
  · refine ⟨_, List.mem_cons_self, ?_⟩
    rcases hline _ List.mem_cons_self rfl with ⟨t, ht, htarget, hreference⟩ | ⟨hmissing, -⟩
    · rcases List.mem_cons.1 ht with rfl | ht
      · exact absurd (Datum.text.inj htarget.isTarget) (by decide)
      · rw [List.mem_singleton.1 ht, hb] at hreference
        exact hreference.trans (congrArg₂ Css.Line.declaration (by decide +kernel) (by decide))
    · refine absurd ⟨rfl, rfl, ?_⟩ (hmissing _ (List.mem_cons_of_mem _ List.mem_cons_self))
      exact fun h => absurd (Datum.text.inj h) (by decide)
  · by_contra hne
    obtain ⟨u, hu, hproperty, hvalue⟩ :=
      (hdeclared _ (List.mem_cons_of_mem _ List.mem_cons_self)).1 hne
    rcases List.mem_cons.1 hu with rfl | hu
    · exact absurd hproperty (by decide +kernel)
    · rw [List.mem_singleton.1 hu] at hvalue
      obtain ⟨target, htarget, hpoints⟩ := hvalue rfl
      exact not_isTargetOf_missing target htarget hpoints

/-- The sheet has a reference to a property that it only mentions. -/
theorem reference_undeclared : AreVariables danglingVariables ∧ AreLabelled danglingVariables [] ∧
    (build danglingVariables (.ok []) (.ok []) Token.defaultMaxDepth).exec =
      (.ok danglingSet, [.danglingAlias "V:9" "V:1" "m", .danglingAlias "V:9" "V:2" "m"]) ∧
    ∃ text, (Token.sheet danglingSet.toDatum).exec = (.ok text, [.unresolvedToken (.text "b")]) ∧
      text = "/* Design tokens generated from Figma */\n/* Token count: 2 */\n\n:root \x7b\n" ++
        "  /* Color tokens */\n  --a: var(--b);\n  /* --b: unresolved alias */\n\x7d\n" ∧
      Css.read text = [⟨.root, [("--a", "var(--b)")]⟩] := by
  have hsheet : (Token.sheet danglingSet.toDatum).exec =
      (.ok (Css.printed danglingSet.remarks danglingSet.blocks), [.unresolvedToken (.text "b")]) := by
    cbv
  refine ⟨areVariables_dangling, areLabelled_dangling, build_dangling, _, hsheet, ?_, ?_⟩
  · decide +kernel
  · decide +kernel

end TokenSet

end Maquette
