/-
The properties of tokens. A property is declared with the values of all tokens whose names have its
words, one after the other, so tokens of different names have different properties exactly if their
names have different words. Nothing keeps two names from having the same words, or a name from having
none: then a later token takes the place of an earlier one, or is declared under the bare hyphens.
-/
import Maquette.Proofs.Css.Cascade
import Maquette.Proofs.Token.SheetRead

namespace Maquette

namespace TokenSet

open Token (AreVariables nameWords)

/-! ## Declarations of a property -/

/-- Cells declare a property with the values of the tokens that have it. -/
theorem valuesOf_cells (s : TokenSet) (property : String) (cells : List Cell) :
    Css.valuesOf property (cells.filterMap s.declaration?) =
      (cells.filter (·.1.property = property)).filterMap s.css? := by
  rw [Css.valuesOf, List.filterMap_filterMap, List.filterMap_filter]
  refine List.filterMap_congr fun c _ => ?_
  rw [declaration?]
  -- whether the cell has the property is asked before or after it is written
  by_cases hproperty : c.1.property = property
  · cases s.css? c <;> simp [hproperty]
  · cases s.css? c <;> simp [hproperty]

/-- The root declares the property of a name with the values of all tokens whose names have the same
words. -/
theorem declared_words (s : TokenSet) (t : Token) : Css.declared s.rules .root t.property =
    (s.defaults.filter fun c => nameWords c.1.name = nameWords t.name).filterMap s.css? := by
  have hroot : Css.declared s.rules .root t.property =
      Css.valuesOf t.property (s.defaults.filterMap s.declaration?) :=
    Css.declared_root t.property
  rw [hroot, valuesOf_cells]
  refine congrArg (List.filterMap s.css?) (List.filter_congr fun c _ => ?_)
  exact decide_eq_decide.2 Token.property_inj

/-! ## Different properties -/

/-- The sheet of a set that is built from a table of variables declares a property with the values of
all tokens whose names have its words. The properties of differently named tokens differ, and none is
bare, exactly if each name has words and different names have different ones. -/
theorem properties_differ_iff {vars : Token.Variables} {table : Table Datum Datum}
    {walks : List Walked} {maxDepth : Datum} {s : TokenSet} {ns : List Notice} (hv : AreVariables vars)
    (hl : AreLabelled vars table)
    (h : (build vars (.ok table) (.ok walks) maxDepth).exec = (.ok s, ns)) :
    (∃ notices, (Token.sheet s.toDatum).exec = (.ok (Css.printed s.remarks s.blocks), notices)) ∧
      (∀ t ∈ s.tokens, Css.declared (s.blocks.map Css.Block.rule) .root t.property =
        (s.defaults.filter fun c => nameWords c.1.name = nameWords t.name).filterMap s.css?) ∧
      ((∀ t ∈ s.tokens, t.property ≠ "--" ∧
          ∀ u ∈ s.tokens, t.name ≠ u.name → t.property ≠ u.property) ↔
        ∀ t ∈ s.tokens, nameWords t.name ≠ [] ∧
          ∀ u ∈ s.tokens, t.name ≠ u.name → nameWords t.name ≠ nameWords u.name) := by
  refine ⟨⟨_, sheet_after (build_holds hv hl h) hl.ids []⟩, ?_, ?_⟩
  · intro t _
    rw [map_rule_blocks]
    exact s.declared_words t
  · refine forall₂_congr fun t _ => and_congr ?_ (forall₂_congr fun u _ => imp_congr_right fun _ => ?_)
    · exact not_congr Token.property_eq_bare
    · exact not_congr Token.property_inj

/-- The names of the palette have different words. -/
theorem properties_differ_palette :
    (build paletteVariables (.ok []) (.ok []) Token.defaultMaxDepth).exec = (.ok paletteSet, []) ∧
      ∀ t ∈ paletteSet.tokens, t.property ≠ "--" ∧
        ∀ u ∈ paletteSet.tokens, t.name ≠ u.name → t.property ≠ u.property := by
  obtain ⟨-, -, hdiffer⟩ :=
    properties_differ_iff areVariables_palette areLabelled_palette build_palette
  refine ⟨build_palette, hdiffer.2 ?_⟩
  decide +kernel

/-- Two variables whose names differ in a separator only, and one without a plain letter. -/
def clashingVariables : Token.Variables :=
  [(.text "V:1", colorVariable "a.b" [("m", .text "x")]),
   (.text "V:2", colorVariable "a-b" [("m", .text "y")]),
   (.text "V:3", colorVariable "\u00e9" [("m", .text "z")])]

def clashingSet : TokenSet :=
  { tokens := [
      colorToken "V:1" "a.b" (.text "x") [("m", .text "x")] none,
      colorToken "V:2" "a-b" (.text "y") [("m", .text "y")] none,
      colorToken "V:3" "\u00e9" (.text "z") [("m", .text "z")] none]
    modeValues := [(.text "m", [("a.b", .text "x"), ("a-b", .text "y"), ("\u00e9", .text "z")])]
    edges := []
    usage := [] }

/-- The first one is never in force, and the last one is declared under the bare hyphens. -/
theorem properties_clash : AreVariables clashingVariables ∧ AreLabelled clashingVariables [] ∧
    (build clashingVariables (.ok []) (.ok []) Token.defaultMaxDepth).exec = (.ok clashingSet, []) ∧
    ∃ text, (Token.sheet clashingSet.toDatum).exec = (.ok text, []) ∧
      Css.read text = [⟨.root, [("--a-b", "x"), ("--a-b", "y"), ("--", "z")]⟩] := by
  have hv : AreVariables clashingVariables := by
    refine List.forall_mem_cons.2 ⟨?_, List.forall_mem_cons.2 ⟨?_, List.forall_mem_singleton.2 ?_⟩⟩
    all_goals exact .inr (isVariable_color _ (by simp [Token.isAlias]))
  have hl : AreLabelled clashingVariables [] := by
    refine ⟨List.forall_mem_cons.2 ⟨rfl, List.forall_mem_cons.2 ⟨rfl, ?_⟩⟩, List.forall_mem_nil _⟩
    exact List.forall_mem_singleton.2 rfl
  have hbuild : (build clashingVariables (.ok []) (.ok []) Token.defaultMaxDepth).exec =
      (.ok clashingSet, []) := by
    cbv
  have hsheet : (Token.sheet clashingSet.toDatum).exec =
      (.ok (Css.printed clashingSet.remarks clashingSet.blocks), []) := by
    cbv
  exact ⟨hv, hl, hbuild, _, hsheet, by decide +kernel⟩

end TokenSet

end Maquette
