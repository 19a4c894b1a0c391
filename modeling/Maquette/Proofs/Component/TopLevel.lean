/-
The names that the file of a component binds at its top level. They are distinct unless the component
is called like what its file imports: React, or the package that its archetype is built on.
-/
import Maquette.Proofs.Component.Built
import Maquette.Proofs.Naming
import Maquette.Proofs.Scene.Planted
import Maquette.Outline.Document

namespace Maquette.Component

open Markup (Code Line Piece)

/-! ## Names at the top level -/

/-- A line at the left margin that does not import types. -/
def isTopLevel (l : Line) : Bool :=
  l.level == 0 && l.code.head? != some (.raw "import type \x7b ")

namespace Source

/-- The values that the file of a component binds at its top level. -/
def topLevel (s : Source) : List String := Line.binds (s.lines.filter isTopLevel)

end Source

/-- A line that stands further in, or binds nothing. -/
def IsInner (l : Line) : Prop := l.level ≠ 0 ∨ l.code.binds = []

theorem binds_filter_inner {ls : List Line} (h : ∀ l ∈ ls, IsInner l) :
    Line.binds (ls.filter isTopLevel) = [] := by
  refine List.flatMap_eq_nil_iff.2 fun l hl => ?_
  obtain ⟨hm, ht⟩ := List.mem_filter.1 hl
  rcases h l hm with h | h
  · rw [isTopLevel, Bool.and_eq_true, beq_iff_eq] at ht
    exact absurd ht.1 h
  · exact h

theorem binds_filter_cons (l : Line) (ls : List Line) :
    Line.binds ((l :: ls).filter isTopLevel) =
      (if isTopLevel l then l.code.binds else []) ++ Line.binds (ls.filter isTopLevel) := by
  rw [List.filter_cons]
  split <;> simp

theorem inner_ite {c : Prop} [Decidable c] {ls : List Line} (h : ∀ l ∈ ls, IsInner l) :
    ∀ l ∈ if c then ls else [], IsInner l := by
  split
  · exact h
  · simp

mutual

/-- Markup stays at the level it is written at, or further in. -/
theorem level_le_lines (m : Markup) (level : Int) : ∀ l ∈ m.lines level, level ≤ l.level := by
  match m with
  | .text s => simp [Markup.lines]
  | .expr c => simp [Markup.lines]
  | .element .inline tag attributes children => simp [Markup.lines]
  | .element (.block step) tag attributes children =>
    have hin := level_le_allLines children (level + step)
    rw [Markup.lines]
    split
    · simp
    · simp only [List.forall_mem_append, List.forall_mem_singleton]
      exact ⟨⟨le_rfl, fun l hl => by have := hin l hl; omega⟩, le_rfl⟩
  | .element (.spread step) tag attributes children =>
    have hin := level_le_allLines children (level + step)
    have hattributes : ∀ l ∈ attributes.map (fun a => (⟨level + 1, a.toCode⟩ : Line)),
        level ≤ l.level := by
      intro l hl
      obtain ⟨a, -, rfl⟩ := List.mem_map.1 hl
      show level ≤ level + 1
      omega
    rw [Markup.lines]
    simp only [List.forall_mem_append, List.forall_mem_singleton]
    refine ⟨⟨le_rfl, hattributes⟩, ?_⟩
    split
    · simp
    · simp only [List.forall_mem_append, List.forall_mem_singleton]
      exact ⟨⟨le_rfl, fun l hl => by have := hin l hl; omega⟩, le_rfl⟩
  | .guarded name child =>
    have hin := level_le_lines child (level + 1)
    rw [Markup.lines]
    split
    · simp only [List.forall_mem_append, List.forall_mem_singleton]
      exact ⟨⟨le_rfl, fun l hl => by have := hin l hl; omega⟩, le_rfl⟩
    · simp

theorem level_le_allLines (ms : List Markup) (level : Int) :
    ∀ l ∈ Markup.allLines level ms, level ≤ l.level := by
  match ms with
  | [] => simp [Markup.allLines]
  | m :: rest =>
    rw [Markup.allLines]
    exact List.forall_mem_append.2 ⟨level_le_lines m level, level_le_allLines rest level⟩

end

theorem keyLines_inner (opens : Bool) (k : KeySpec) : ∀ l ∈ keyLines opens k, IsInner l := by
  unfold keyLines
  simp only [List.forall_mem_append]
  refine ⟨⟨⟨⟨?_, inner_ite ?_⟩, inner_ite ?_⟩, inner_ite ?_⟩, ?_⟩ <;> simp [IsInner, Line.words]

/-- What is done before the markup stands further in, blank lines apart. -/
theorem setup_inner (s : Source) : ∀ l ∈ s.setup, IsInner l := by
  have hvariants : ∀ l ∈ s.variants.map s.variantClass, IsInner l := by
    intro l hl
    obtain ⟨p, -, rfl⟩ := List.mem_map.1 hl
    exact .inl (by simp [Source.variantClass])
  have hkeys : ∀ l ∈ s.answered.flatMap (keyLines s.body.opens), IsInner l := by
    intro l hl
    obtain ⟨k, -, hl⟩ := List.mem_flatMap.1 hl
    exact keyLines_inner _ k l hl
  unfold Source.setup
  simp only [List.forall_mem_append]
  refine ⟨⟨⟨?hooks, ?overrides⟩, ?classNames⟩, inner_ite ?keys⟩
  case hooks =>
    unfold Source.hooks
    simp only [List.forall_mem_append]
    refine ⟨⟨inner_ite ?_, inner_ite ?_⟩, inner_ite ?_⟩ <;> simp [IsInner]
  case overrides => simp [Source.overrides, IsInner, Line.words]
  case classNames =>
    unfold Source.classNames
    simp only [List.forall_mem_append]
    refine ⟨⟨⟨⟨?_, inner_ite ?_⟩, hvariants⟩, inner_ite ?_⟩, ?_⟩ <;> simp [IsInner, Line.words]
  case keys =>
    unfold keyHandler
    simp only [List.forall_mem_append]
    exact ⟨by simp [IsInner], ⟨by simp [IsInner, Line.words], hkeys⟩, by simp [IsInner, Line.words]⟩

theorem topLevel_eq (s : Source) : s.topLevel =
    "React" :: ((s.plan.primitive.toList.map Primitive.name) ++
      ((if s.variants.isEmpty then [] else ["toClassName"]) ++ [s.name])) := by
  have hsetup := binds_filter_inner (setup_inner s)
  have hmarkup : Line.binds ((s.body.markup.lines 2).filter isTopLevel) = [] :=
    binds_filter_inner fun l hl => .inl (by have := level_le_lines _ _ l hl; omega)
  have htaken : Line.binds ((s.taken.map Source.parameterLine).filter isTopLevel) = [] := by
    refine binds_filter_inner fun l hl => .inl ?_
    obtain ⟨p, -, rfl⟩ := List.mem_map.1 hl
    simp [Source.parameterLine]
  have himports : Line.binds (s.imports.filter isTopLevel) =
      "React" :: s.plan.primitive.toList.map Primitive.name := by
    unfold Source.imports
    cases s.plan.primitive <;> simp [binds_filter_cons, isTopLevel, Line.words, Line.blank]
  have hhelper : Line.binds (s.classHelper.filter isTopLevel) =
      if s.variants.isEmpty then [] else ["toClassName"] := by
    unfold Source.classHelper
    split <;> simp [isTopLevel, Line.words, Line.blank]
  have hsignature : Line.binds (s.signature.filter isTopLevel) = [s.name] := by
    unfold Source.signature
    simp [htaken, isTopLevel, Line.words]
  have hending : Line.binds (s.ending.filter isTopLevel) = [] := by
    unfold Source.ending
    simp [isTopLevel, Line.words, Line.blank]
  have hmiddle : Line.binds ([Line.blank, Line.words 1 "return ("].filter isTopLevel) = [] := rfl
  unfold Source.topLevel Source.lines
  simp only [List.filter_append, Line.binds_append, himports, hhelper, hsignature, hsetup, hmiddle,
    hmarkup, hending]
  simp

/-! ## Packages -/

/-- The name that the package of an archetype is imported under, where a component is built on it. -/
def namespace? : Archetype → Option String
  | .combobox => some "Popover"
  | .select => some "Select"
  | .dialog | .modal => some "Dialog"
  | _ => none

theorem popover_first : firstPrimitive? [.text "@radix-ui/react-popover"] =
    .ok (some ⟨"Popover", "@radix-ui/react-popover"⟩) := by rfl

theorem select_first : firstPrimitive? [.text "@radix-ui/react-select"] =
    .ok (some ⟨"Select", "@radix-ui/react-select"⟩) := by rfl

theorem dialog_first : firstPrimitive? [.text "@radix-ui/react-dialog"] =
    .ok (some ⟨"Dialog", "@radix-ui/react-dialog"⟩) := by rfl

/-- A component is built on the package of its archetype, if its template can be built on one. -/
theorem primitive_name {a : Archetype} {interaction : Datum} {q : Option Primitive}
    (hi : interaction.itemsOf "requiredPrimitives" = .ok (a.primitives.map .text))
    (h : (Template.of a).primitive? interaction = .ok q) : q.map Primitive.name = namespace? a := by
  have hfirst : ∀ {d : Datum} {p : Primitive}, a.primitives.map Datum.text = [d] →
      firstPrimitive? [d] = .ok (some p) →
      (do firstPrimitive? (← interaction.itemsOf "requiredPrimitives")) = .ok q → q = some p := by
    intro d p hd hp hq
    rw [hi, hd, Outcome.ok_bind, hp] at hq
    cases hq; rfl
  cases a with
  | combobox => rw [hfirst rfl popover_first h]; rfl
  | select => rw [hfirst rfl select_first h]; rfl
  | dialog => rw [hfirst rfl dialog_first h]; rfl
  | modal => rw [hfirst rfl dialog_first h]; rfl
  | _ => cases h; rfl

/-- What an interaction that is built from an outline says about the archetype. -/
theorem build_ok {outline intelligence interaction : Datum}
    (hc : Archetype.classify outline = .ok intelligence)
    (hi : Interaction.build outline intelligence = .ok interaction) :
    ∃ a : Archetype, intelligence.at? "category" = some (.text a.name) ∧
      categoryOf interaction = .ok (.text a.name) ∧
      interaction.itemsOf "requiredPrimitives" = .ok (a.primitives.map .text) := by
  obtain ⟨a, -, -, states, aria, rules, hcategory, -, -, -, -, rfl⟩ := build_record hc hi
  refine ⟨a, hcategory, rfl, ?_⟩
  cases a <;> rfl

/-! ## Distinct names -/

/-- A component is never called like the helper for class names. -/
theorem name_ne_toClassName {title : Datum} {name : String} (h : componentName title = .ok name) :
    name ≠ "toClassName" := by
  obtain ⟨ps, -, h⟩ := Outcome.bind_ok h
  cases h
  intro he
  -- a component is named like a type, and this name begins with a small letter
  have hlarge := Naming.pascal_large
    (show Naming.BeginsLarge "Component".toList by simp [Naming.BeginsLarge, Text.isSmallAscii]) ps
  rw [he] at hlarge
  have := hlarge 't' rfl
  revert this
  decide

theorem namespace_ne {a : Archetype} {name : String} (h : namespace? a = some name) :
    name ≠ "React" ∧ name ≠ "toClassName" := by
  cases a with
  | combobox | select | dialog | modal => cases h; exact ⟨by decide, by decide⟩
  | _ => cases h

/-- For the documents that are built from an outline, the names at the top level of a component are
distinct exactly when the component is neither called React nor like the package that it is built
on. -/
theorem topLevel_nodup_iff {title outline tokens matched intelligence interaction : Datum}
    {s : Source} {notices : List Notice} (hc : Archetype.classify outline = .ok intelligence)
    (hi : Interaction.build outline intelligence = .ok interaction)
    (hs : (compose title outline tokens interaction matched).exec = (.ok s, notices)) :
    ∃ a : Archetype, intelligence.at? "category" = some (.text a.name) ∧
      (s.topLevel.Nodup ↔ s.name ≠ "React" ∧ namespace? a ≠ some s.name) := by
  obtain ⟨a, hcategory, hcategoryOf, hrequired⟩ := build_ok hc hi
  obtain ⟨name, ms, htitle, hplan, -⟩ := compose_ok hs
  obtain ⟨hname, -, category, hcat, htemplate, hprimitive⟩ := plan_ok hplan
  obtain rfl : Datum.text a.name = category := Except.ok.inj (hcategoryOf.symm.trans hcat)
  rw [htemplate, ofDatum_name] at hprimitive
  have hspace := primitive_name hrequired hprimitive
  have hown : s.name ≠ "toClassName" := by
    rw [show s.name = name from hname]
    exact name_ne_toClassName htitle
  refine ⟨a, hcategory, ?_⟩
  -- the names that are the same in every file differ from each other
  have hlib : "React" ≠ "toClassName" := by decide
  rw [topLevel_eq, ← hspace]
  cases hp : s.plan.primitive with
  | none =>
    cases s.variants.isEmpty <;> simp [hlib, hown.symm, ne_comm (a := s.name)]
  | some q =>
    rw [hp] at hspace
    obtain ⟨hreact, hhelper⟩ := namespace_ne hspace.symm
    cases s.variants.isEmpty <;>
      simp [hlib, hown.symm, hreact.symm, hhelper, ne_comm (a := s.name)]

/-! ## A component that is called like its package -/

/-- A layer that is called like the package that its component is built on. -/
def selectLayer : Datum :=
  .record [("id", .text "1:1"), ("name", .text "Select"), ("type", .text "FRAME")]

def selectTree : Datum :=
  .record
    [("id", .text "1:1"), ("name", .text "Select"), ("type", .text "FRAME"), ("zIndex", .int 0),
     ("children", .list [])]

theorem selectTree_walked : Walked.ofDatum selectTree = ⟨[(selectTree, 0)], none⟩ :=
  Walked.ofDatum_tree rfl rfl rfl

theorem selectTree_made : Outline.tree (Scene.ofDatum selectLayer) = .ok (some selectTree, []) := by
  have hsearch : (Scene.ofDatum selectLayer).Search [] [⟨0, 0, 0⟩] (.cons ⟨0, 0, 0⟩ .nil .nil) [0] :=
    .visit (by simp) rfl (.nil _) (.nil _)
  have htrail : (Scene.ofDatum selectLayer).trailFrom true 0 = ⟨[⟨0, 0, 0⟩], none⟩ :=
    Scene.trailFrom_search hsearch (by decide) true
  have hroot : (Scene.ofDatum selectLayer).root = .node 0 := rfl
  unfold Outline.tree
  rw [hroot]
  simp only [htrail]
  rfl

/-- The outline of the layer. -/
def selectOutline : Datum :=
  .record
    [("version", .text Outline.version),
     ("meta", .record
       [("name", .text "Select"), ("figmaUrl", .text ""), ("nodeId", .text "1:1"),
        ("type", .text "FRAME"), ("componentType", .text "frame"),
        ("extractedAt", .text Outline.epoch), ("sourceFileKey", .text "")]),
     ("tree", selectTree), ("variants", .list []), ("slots", .list []),
     ("layoutIntent", .record [("horizontal", .text "intrinsic"), ("vertical", .text "intrinsic")]),
     ("visualHints", (⟨false, false, false⟩ : Outline.Needs).toDatum), ("stateMapping", .list []),
     ("stats", .record [("nodeCount", .int 1)])]

theorem selectOutline_made :
    Outline.ofDatum selectLayer ⟨.text "", .text "", .null⟩ = .ok selectOutline := by
  have hhints : Outline.visualHints selectTree =
      .ok (⟨false, false, false⟩ : Outline.Needs).toDatum := by
    unfold Outline.visualHints
    rw [selectTree_walked]
    rfl
  have hcount : (Walked.ofDatum selectTree).count = .ok 1 := by rw [selectTree_walked]; rfl
  unfold Outline.ofDatum Outline.ofScene
  rw [selectTree_made]
  unfold Outline.document
  simp only [Outcome.ok_bind, Option.getD_some, hhints, hcount]
  rfl

def selectVerdict : Archetype.Verdict := ⟨.select, .name⟩

theorem selectOutline_classified : Archetype.classify selectOutline =
    .ok (selectVerdict.toDatum Archetype.Features.none []) := by
  have hfeatures : Archetype.Features.ofOutline selectOutline = .ok Archetype.Features.none := by
    have htree : selectOutline.get "tree" = .ok selectTree := rfl
    unfold Archetype.Features.ofOutline
    rw [htree, Outcome.ok_bind, selectTree_walked]
    rfl
  unfold Archetype.classify
  rw [hfeatures]
  rfl

/-- The component of the outline under a title. -/
def selectComponent (title : String) : Run Source := do
  let interaction ← (Interaction.build selectOutline
    (selectVerdict.toDatum Archetype.Features.none []) : Outcome Datum)
  compose (.text title) selectOutline .null interaction (.list [])

theorem selectComponent_ok {title : String} {names : List String}
    (h : (selectComponent title).exec.1.toOption.map Source.topLevel = some names) :
    ∃ interaction s notices,
      Interaction.build selectOutline (selectVerdict.toDatum Archetype.Features.none []) =
        .ok interaction ∧
      (compose (.text title) selectOutline .null interaction (.list [])).exec = (.ok s, notices) ∧
      s.topLevel = names := by
  rcases hrun : (selectComponent title).exec with ⟨_ | s, notices⟩
  · rw [hrun] at h; cases h
  · rw [hrun] at h
    obtain ⟨interaction, hbuild, hs⟩ := Run.after_lift_bind_ok hrun
    exact ⟨interaction, s, notices, hbuild, hs, Option.some.inj h⟩

/-- Under another title, what the component binds is distinct. -/
theorem topLevel_renamed : ∃ interaction s notices,
    Archetype.classify selectOutline = .ok (selectVerdict.toDatum Archetype.Features.none []) ∧
    Interaction.build selectOutline (selectVerdict.toDatum Archetype.Features.none []) =
      .ok interaction ∧
    (compose (.text "Size select") selectOutline .null interaction (.list [])).exec =
      (.ok s, notices) ∧ s.topLevel = ["React", "Select", "SizeSelect"] ∧
    s.name ≠ "React" ∧ namespace? .select ≠ some s.name := by
  have hrun : (selectComponent "Size select").exec.1.toOption.map Source.topLevel =
      some ["React", "Select", "SizeSelect"] := by decide +kernel
  obtain ⟨interaction, s, notices, hbuild, hs, htop⟩ := selectComponent_ok hrun
  obtain ⟨a, hcategory, hiff⟩ := topLevel_nodup_iff selectOutline_classified hbuild hs
  have ha : a = .select := by
    have hname : Archetype.select.name = a.name := Datum.text.inj (Option.some.inj hcategory)
    have := congrArg (fun n => Archetype.ofDatum (.text n)) hname
    simp only [ofDatum_name] at this
    exact this.symm
  subst ha
  exact ⟨interaction, s, notices, selectOutline_classified, hbuild, hs, htop,
    hiff.1 (by rw [htop]; decide)⟩

/-- The component of the layer binds the name of its package twice. -/
theorem topLevel_select : ∃ outline intelligence interaction s notices,
    Outline.ofDatum selectLayer ⟨.text "", .text "", .null⟩ = .ok outline ∧
    Archetype.classify outline = .ok intelligence ∧
    Interaction.build outline intelligence = .ok interaction ∧
    (compose (.text "Select") outline .null interaction (.list [])).exec = (.ok s, notices) ∧
    s.topLevel = ["React", "Select", "Select"] ∧ ¬ s.topLevel.Nodup := by
  have hrun : (selectComponent "Select").exec.1.toOption.map Source.topLevel =
      some ["React", "Select", "Select"] := by decide +kernel
  obtain ⟨interaction, s, notices, hbuild, hs, htop⟩ := selectComponent_ok hrun
  exact ⟨selectOutline, _, interaction, s, notices, selectOutline_made, selectOutline_classified,
    hbuild, hs, htop, by rw [htop]; decide⟩

end Maquette.Component
