/-
The rules of a component's variants. The selector of a variant consists of classes alone: that of the
component, and one for each property with its value; no name or value can put anything else into it, since
the parts of class names are small letters, digits and hyphens. A style sheet has a rule for every variant
with properties, one for all variants that have the same selector.
-/
import Maquette.Proofs.Datum
import Maquette.Proofs.Naming.Lettered
import Maquette.Proofs.Outcome
import Maquette.Stylesheet

namespace Maquette.Css

open Naming (Hyphenated)

/-! ## Parts of class names -/

theorem mem_fuse {p : Char → Bool} {m c : Char} {inRun : Bool} {cs : List Char}
    (h : c ∈ Text.fuse p m inRun cs) : p c = false ∨ c = m := by
  induction cs generalizing inRun with
  | nil => cases h
  | cons d cs ih =>
    rw [Text.fuse] at h
    split at h
    · split at h
      · exact ih h
      · exact (List.mem_cons.1 h).elim .inr ih
    · rename_i hd
      rcases List.mem_cons.1 h with rfl | h
      · exact .inl (Bool.not_eq_true _ ▸ hd)
      · exact ih h

theorem isLettered_of_segmentChar {c : Char} (h : isSegmentChar c = true) :
    Text.isLettered c = true := by
  simp only [isSegmentChar, Bool.or_eq_true, Bool.and_eq_true, decide_eq_true_eq] at h
  simp only [Text.isLettered, Char.isAlphanum, Char.isAlpha, Char.isLower, Char.isDigit,
    Bool.or_eq_true, Bool.and_eq_true, decide_eq_true_eq]
  exact h.elim (fun h => .inl (.inr (.inl (.inr h)))) fun h => .inl (.inr (.inr h))

theorem segment_hyphenated (s : String) : Hyphenated (segment s).toList := by
  unfold segment
  split
  · exact Naming.Lettered.hyphenated (by simp [Naming.Lettered, Text.isLettered])
  · rw [String.toList_ofList]
    intro c hc
    rcases mem_fuse (Text.mem_trim hc) with hc | rfl
    · exact .inl (isLettered_of_segmentChar (by simpa using hc))
    · exact .inr rfl

/-! ## Selectors of classes -/

/-- Whether a text can be the name of a class. -/
def isClassName (cs : List Char) : Bool := !cs.isEmpty && cs.all fun c => Text.isLettered c || c == '-'

/-- The classes of a selector that consists of classes alone, each behind a dot. -/
def selectorClasses? (s : String) : Option (List String) :=
  match Text.splitOn (· == '.') s.toList with
  | [] :: pieces => if pieces.all isClassName then some (pieces.map String.ofList) else none
  | _ => none

example : selectorClasses? ".tag.tag--size-big" = some ["tag", "tag--size-big"] := by decide +kernel

example : selectorClasses? ".tag:hover" = none := by decide +kernel

/-- Classes, each behind a dot, are read one by one. -/
theorem selectorClasses?_join {names : List String}
    (h : ∀ name ∈ names, name ≠ "" ∧ Hyphenated name.toList) :
    selectorClasses? (String.join (names.map ("." ++ ·))) = some names := by
  have hnames : ∀ name ∈ names, isClassName name.toList = true := by
    intro name hname
    obtain ⟨hsome, hchars⟩ := h name hname
    simp only [isClassName, Bool.and_eq_true, List.all_eq_true, Bool.or_eq_true, beq_iff_eq]
    exact ⟨by simpa using hsome, hchars⟩
  have hsplit : ∀ names : List String, (∀ name ∈ names, Hyphenated name.toList) →
      Text.splitOn (· == '.') (String.join (names.map ("." ++ ·))).toList =
        [] :: names.map String.toList := by
    intro names
    induction names with
    | nil => intro _; rfl
    | cons name names ih =>
      intro h
      obtain ⟨hname, hrest⟩ := List.forall_mem_cons.1 h
      have hdot : ∀ c ∈ name.toList, (c == '.') = false := by
        intro c hc
        rcases hname c hc with hc | rfl
        · exact beq_eq_false_iff_ne.2 fun he => by rw [he] at hc; cases hc
        · rfl
      have htext : (String.join ((name :: names).map ("." ++ ·))).toList =
          '.' :: (name.toList ++ (String.join (names.map ("." ++ ·))).toList) := by
        simp [String.toList_join]
      have hnext := ih hrest
      rw [htext, Text.splitOn_sep rfl]
      cases names with
      | nil => simp [Text.splitOn_word hdot]
      | cons next names =>
        have hmore : (String.join ((next :: names).map ("." ++ ·))).toList =
            '.' :: (next.toList ++ (String.join (names.map ("." ++ ·))).toList) := by
          simp [String.toList_join]
        rw [hmore] at hnext ⊢
        rw [Text.splitOn_sep rfl] at hnext
        rw [Text.splitOn_append hdot rfl, (List.cons.inj hnext).2]
        rfl
  rw [selectorClasses?, hsplit names fun name hname => (h name hname).2]
  dsimp only
  rw [if_pos (by simpa using hnames), List.map_map]
  simp [Function.comp_def]

end Maquette.Css

namespace Maquette.Stylesheet

open Naming (Hyphenated)

/-! ## Selectors of variants -/

/-- The class of a property with a value. -/
def propertyClass (base : String) (property : String × Datum) : String :=
  base ++ "--" ++ Css.segment property.1 ++ "-" ++ Css.segment property.2.shown

section Classes

variable {base : String}

theorem propertyClass_hyphenated (hbase : Hyphenated base.toList) (property : String × Datum) :
    Hyphenated (propertyClass base property).toList := by
  have hhyphens : Hyphenated "--".toList := by simp [Hyphenated]
  have hhyphen : Hyphenated "-".toList := by simp [Hyphenated]
  simp only [propertyClass, String.toList_append]
  exact (((hbase.append hhyphens).append (Css.segment_hyphenated _)).append hhyphen).append
    (Css.segment_hyphenated _)

/-- The class of a property is longer than that of the component. -/
theorem propertyClass_length (base : String) (property : String × Datum) :
    base.length < (propertyClass base property).length := by
  have hhyphens : "--".length = 2 := rfl
  simp only [propertyClass, String.length_append, hhyphens]
  omega

theorem propertyClass_ne (property : String × Datum) : propertyClass base property ≠ "" := by
  intro he
  have hlength := propertyClass_length base property
  rw [he] at hlength
  exact Nat.not_lt_zero _ hlength

theorem variantSelector_eq (properties : List (String × Datum)) :
    variantSelector base properties =
      String.join ((base :: properties.map (propertyClass base)).map ("." ++ ·)) := by
  apply String.toList_inj.1
  simp [variantSelector, propertyClass, String.toList_join, List.flatMap_map, toString]

/-- The classes that the selector of a variant asks for: that of the component and those of the properties. -/
theorem selectorClasses?_variantSelector (hbase : Hyphenated base.toList) (hne : base ≠ "")
    (properties : List (String × Datum)) : Css.selectorClasses? (variantSelector base properties) =
      some (base :: properties.map (propertyClass base)) := by
  rw [variantSelector_eq]
  refine Css.selectorClasses?_join (List.forall_mem_cons.2 ⟨⟨hne, hbase⟩, ?_⟩)
  exact List.forall_mem_map.2 fun property _ =>
    ⟨propertyClass_ne property, propertyClass_hyphenated hbase property⟩

end Classes

theorem variantBlocks_mem (base : String) (seen : List String) {variants : List Component.VariantSpec}
    {v : Component.VariantSpec} (hv : v ∈ variants) (hp : v.properties ≠ []) :
    variantSelector base v.properties ∈ seen ∨ ∃ note,
      Css.block (variantSelector base v.properties) [] (some note) 0 ∈ variantBlocks base seen variants := by
  induction variants generalizing seen with
  | nil => cases hv
  | cons w rest ih =>
    rw [variantBlocks]
    split
    · rename_i hskip
      rcases List.mem_cons.1 hv with rfl | hv
      · rcases Bool.or_eq_true_iff.1 hskip with hempty | hseen
        · exact absurd (List.isEmpty_iff.1 hempty) hp
        · exact .inl (List.contains_iff_mem.1 hseen)
      · exact ih _ hv
    · rcases List.mem_cons.1 hv with rfl | hv
      · exact .inr ⟨_, List.mem_cons_self⟩
      · rcases ih _ hv with hseen | ⟨note, hblock⟩
        · rcases List.mem_cons.1 hseen with heq | hseen
          · rw [heq]
            exact .inr ⟨_, List.mem_cons_self⟩
          · exact .inl hseen
        · exact .inr ⟨note, List.mem_cons_of_mem _ hblock⟩

/-- A text is part of what it is joined to. -/
theorem intercalate_mem (sep : String) {piece : String} {pieces : List String} (h : piece ∈ pieces) :
    ∃ before after, sep.intercalate pieces = before ++ piece ++ after := by
  induction pieces with
  | nil => cases h
  | cons first rest ih =>
    cases rest with
    | nil =>
      obtain rfl := List.mem_singleton.1 h
      exact ⟨"", "", by simp⟩
    | cons next rest =>
      rw [String.intercalate_cons_cons]
      rcases List.mem_cons.1 h with rfl | h
      · exact ⟨"", _, by rw [String.empty_append, String.append_assoc]⟩
      · obtain ⟨before, after, heq⟩ := ih h
        exact ⟨first ++ sep ++ before, after, by rw [heq]; simp [String.append_assoc]⟩

/-- A style sheet has a rule with the selector of each variant that has properties. -/
theorem text_variant {name base css : String} {outline interaction matched : Datum}
    {tokens : Component.TokenTable} (h : text name base outline interaction tokens matched = .ok css)
    {items : List Datum} (hitems : outline.itemsOf "variants" = .ok items)
    {variants : List Component.VariantSpec}
    (hvariants : items.mapM Component.VariantSpec.read = .ok variants) {v : Component.VariantSpec}
    (hv : v ∈ variants) (hp : v.properties ≠ []) : ∃ note before after,
      css = before ++ Css.block (variantSelector base v.properties) [] (some note) 0 ++ after := by
  unfold text at h
  obtain ⟨tree, -, h⟩ := Outcome.bind_ok h
  obtain ⟨style, -, h⟩ := Outcome.bind_ok h
  obtain ⟨ms, -, h⟩ := Outcome.bind_ok h
  obtain ⟨root, -, h⟩ := Outcome.bind_ok h
  rw [hitems, Outcome.ok_bind, hvariants, Outcome.ok_bind] at h
  obtain ⟨found, -, h⟩ := Outcome.bind_ok h
  obtain ⟨states, -, h⟩ := Outcome.bind_ok h
  cases h
  obtain ⟨note, hblock⟩ := (variantBlocks_mem base [] hv hp).resolve_left List.not_mem_nil
  obtain ⟨before, after, heq⟩ := intercalate_mem "\n\n" (List.mem_append_left
    [disabledBlock base] (List.mem_append_left states (List.mem_append_right
      ([Css.comment (name ++ " styles, generated from Figma")] ++ matchComment ms ++
        [rootBlock base root]) hblock)))
  exact ⟨note, before, after ++ "\n", by rw [heq, String.append_assoc]⟩

end Maquette.Stylesheet
