/-
The names that a file of stories binds at its top level: the component that it imports, its meta data,
and one export per story. The names of stories are given one after the other, so they are distinct and
none of them is that of the meta data; but nothing keeps them from the name of the component. No text
of a design can begin a line of the file, as literals hold no line feeds and names are lettered.
-/
import Maquette.Component.Artifacts
import Maquette.Proofs.Component.Names
import Maquette.Proofs.Component.Parameters
import Maquette.Proofs.Component.TopLevel
import Maquette.Proofs.Css.Printed
import Maquette.Proofs.Decimal.Integral

namespace Maquette.Text

/-! ## Lines -/

/-- A text that does not go beyond the line it stands on. -/
def OnOneLine (s : String) : Prop := '\n' ∉ s.toList

theorem onOneLine_append {a b : String} : OnOneLine (a ++ b) ↔ OnOneLine a ∧ OnOneLine b := by
  simp [OnOneLine]

theorem onOneLine_intercalate {sep : String} (hsep : OnOneLine sep) {pieces : List String}
    (h : ∀ s ∈ pieces, OnOneLine s) : OnOneLine (sep.intercalate pieces) := by
  induction pieces with
  | nil => simp [OnOneLine]
  | cons s pieces ih =>
    obtain ⟨hs, hpieces⟩ := List.forall_mem_cons.1 h
    cases pieces with
    | nil => simpa using hs
    | cons next pieces =>
      rw [String.intercalate_cons_cons]
      exact onOneLine_append.2 ⟨onOneLine_append.2 ⟨hs, hsep⟩, ih hpieces⟩

theorem onOneLine_lettered {s : String} (h : Naming.Lettered s.toList) : OnOneLine s := h.not_mem rfl

/-- A line feed in a literal is spelled out. -/
theorem onOneLine_literal (s : String) : OnOneLine (Script.literal s) := by
  have hchar : ∀ c, '\n' ∉ Script.literalChar c := by
    intro c
    unfold Script.literalChar
    repeat' split
    all_goals simp_all [ne_comm]
  simp [OnOneLine, Script.literal, hchar]

theorem onOneLine_numerals {s : String} (h : Decimal.AreNumerals s.toList) : OnOneLine s := fun hm => by
  have := List.all_eq_true.1 h _ hm
  revert this
  decide

/-- Lines that are put under each other are found again. -/
theorem splitOn_lines {ls : List String} (hne : ls ≠ []) (h : ∀ s ∈ ls, OnOneLine s) :
    splitOn (· == '\n') (lines ls).toList = ls.map String.toList := by
  induction ls with
  | nil => exact absurd rfl hne
  | cons s ls ih =>
    obtain ⟨hs, hls⟩ := List.forall_mem_cons.1 h
    have hchars : ∀ c ∈ s.toList, (c == '\n') = false := fun c hc =>
      beq_eq_false_iff_ne.2 fun he => hs (he ▸ hc)
    cases ls with
    | nil => simpa [lines] using splitOn_word hchars
    | cons next ls =>
      have hcons : (lines (s :: next :: ls)).toList = s.toList ++ '\n' :: (lines (next :: ls)).toList := by
        have hlines := Css.toList_lines s (next :: ls)
        rw [Css.onNewLines_cons, ← Css.toList_lines] at hlines
        exact (List.cons.inj hlines).2
      rw [hcons, splitOn_append hchars rfl, ih (List.cons_ne_nil _ _) hls]
      rfl

end Maquette.Text

namespace Maquette.Story

open Component (Blueprint Parameter VariantSpec)
open Naming (Lettered)
open Text (OnOneLine)

/-! ## Names at the top level -/

/-- What stands before the name of a value that is bound; types are imported and declared otherwise. -/
def binders : List String :=
  ["import \x7b ", "import * as ", "const ", "let ", "var ", "function ", "class "]

/-- The name that a line at the left margin binds, if it binds one, exported or not. -/
def bound? (line : List Char) : Option String :=
  let line := (Text.dropPrefix? "export ".toList line).getD line
  (binders.findSome? fun binder => Text.dropPrefix? binder.toList line).map fun rest =>
    String.ofList (rest.takeWhile Text.isLettered)

/-- The names of values that a script binds at its top level. -/
def boundNames (script : String) : List String :=
  (Text.splitOn (· == '\n') script.toList).filterMap bound?

example : boundNames "import type \x7b A \x7d from 'a';\nimport \x7b B \x7d from 'b';\nconst c = 1;\n  const d = 2;" =
    ["B", "c"] := by decide +kernel

theorem boundNames_lines {ls : List String} (hne : ls ≠ []) (h : ∀ s ∈ ls, OnOneLine s) :
    boundNames (Text.lines ls) = ls.filterMap fun s => bound? s.toList := by
  rw [boundNames, Text.splitOn_lines hne h, List.filterMap_map]
  rfl

/-- A lettered name ends where something else follows. -/
theorem takeWhile_lettered {name : String} (h : Lettered name.toList) {c : Char}
    (hc : Text.isLettered c = false) (rest : List Char) :
    String.ofList ((name.toList ++ c :: rest).takeWhile Text.isLettered) = name := by
  rw [List.takeWhile_append_of_pos h, List.takeWhile_cons_of_neg (by simp [hc]), List.append_nil,
    String.ofList_toList]

/-- A line that binds nothing. -/
def Inner (s : String) : Prop := OnOneLine s ∧ bound? s.toList = none

theorem bound?_blank (rest : List Char) : bound? (' ' :: rest) = none := by
  simp [bound?, binders, Text.dropPrefix?]

theorem inner_argument {s : String} (h : OnOneLine s) : Inner (argument s) := by
  have hindent : (Script.indent 2).toList = [' ', ' ', ' ', ' '] := rfl
  refine ⟨?_, ?_⟩
  · simpa [argument, OnOneLine, hindent] using h
  · rw [argument, String.toList_append, String.toList_append, hindent]
    exact bound?_blank _

/-! ## Entries -/

/-- An entry that binds its name and nothing else. -/
structure Entry.Plain (e : Entry) : Prop where
  name : Lettered e.name.toList
  arguments : ∀ s ∈ e.arguments, Inner s
  extra : ∀ s ∈ e.extra, Inner s

theorem Entry.Plain.onOneLine {e : Entry} (h : e.Plain) : ∀ s ∈ e.lines, OnOneLine s := by
  have hname := Text.onOneLine_lettered h.name
  have hstory := Text.onOneLine_literal e.description
  have harguments : ∀ s ∈ e.arguments, OnOneLine s := fun s hs => (h.arguments s hs).1
  have hextra : ∀ s ∈ e.extra, OnOneLine s := fun s hs => (h.extra s hs).1
  unfold OnOneLine at hname hstory harguments hextra
  simp only [Entry.lines, List.forall_mem_append, List.forall_mem_cons, OnOneLine]
  simpa [hname, hstory] using ⟨harguments, hextra⟩

theorem Entry.Plain.bound {e : Entry} (h : e.Plain) :
    e.lines.filterMap (fun s => bound? s.toList) = [e.name] := by
  have harguments : e.arguments.filterMap (fun s => bound? s.toList) = [] :=
    List.filterMap_eq_nil_iff.2 fun s hs => (h.arguments s hs).2
  have hextra : e.extra.filterMap (fun s => bound? s.toList) = [] :=
    List.filterMap_eq_nil_iff.2 fun s hs => (h.extra s hs).2
  have hname := takeWhile_lettered h.name (c := ':') rfl " Story = \x7b".toList
  unfold Entry.lines
  simp only [List.filterMap_append, harguments, hextra]
  simpa [bound?, binders, Text.dropPrefix?] using hname

theorem Entry.onOneLine_all {es : List Entry} (h : ∀ e ∈ es, e.Plain) :
    ∀ s ∈ es.flatMap Entry.lines, OnOneLine s := by
  intro s hs
  obtain ⟨e, he, hs⟩ := List.mem_flatMap.1 hs
  exact (h e he).onOneLine s hs

theorem Entry.bound_all {es : List Entry} (h : ∀ e ∈ es, e.Plain) :
    (es.flatMap Entry.lines).filterMap (fun s => bound? s.toList) = es.map Entry.name := by
  induction es with
  | nil => rfl
  | cons e es ih =>
    obtain ⟨he, hes⟩ := List.forall_mem_cons.1 h
    rw [List.flatMap_cons, List.filterMap_append, he.bound, ih hes, List.map_cons,
      List.singleton_append]

/-! ## Entries under distinct names -/

/-- Entries that get their names one after the other, beside the names that were taken before. -/
structure Named (used : List String) (es : List Entry) (after : List String) : Prop where
  plain : ∀ e ∈ es, e.Plain
  names : ∃ wishes, Naming.uniques used wishes = (es.map Entry.name, after)

theorem Named.nil (used : List String) : Named used [] used := ⟨by simp, [], rfl⟩

theorem Named.reserve {used after : List String} {wish : String} {entry : String → Entry}
    {es : List Entry} (hw : Lettered wish.toList) (hname : ∀ name, (entry name).name = name)
    (hplain : ∀ {name}, Lettered name.toList → (entry name).Plain)
    (h : Named (Story.reserve used wish entry).2 es after) :
    Named used ((Story.reserve used wish entry).1 :: es) after := by
  obtain ⟨hes, wishes, hnames⟩ := h
  rw [Story.reserve] at hnames ⊢
  refine ⟨List.forall_mem_cons.2 ⟨hplain (Naming.unique_lettered hw used), hes⟩, wish :: wishes, ?_⟩
  rw [Naming.uniques, hnames, List.map_cons, hname]

theorem Named.append {used between after : List String} {es es' : List Entry}
    (h : Named used es between) (h' : Named between es' after) : Named used (es ++ es') after := by
  obtain ⟨hes, wishes, hnames⟩ := h
  obtain ⟨hes', wishes', hnames'⟩ := h'
  refine ⟨List.forall_mem_append.2 ⟨hes, hes'⟩, wishes ++ wishes', ?_⟩
  rw [Naming.uniques_append, hnames, hnames', List.map_append]

/-- The names are distinct, and none of them was taken before. -/
theorem Named.distinct {used after : List String} {es : List Entry} (h : Named used es after) :
    (es.map Entry.name).Nodup ∧ ∀ name ∈ es.map Entry.name, name ∉ used := by
  obtain ⟨-, wishes, hnames⟩ := h
  obtain ⟨-, hnodup, hspec⟩ := Naming.uniques_spec used wishes
  rw [hnames] at hnodup hspec
  exact ⟨hnodup, fun name hname => (hspec name hname).1⟩

/-! ## The kinds of stories -/

/-- What a subject puts into its stories is lettered. -/
structure Subject.Plain (s : Subject) : Prop where
  content : Lettered s.content.toList
  parameters : ∀ p ∈ s.parameters, Lettered p.name.toList

section Kinds

variable {s : Subject} {story : String} {used after : List String} {es : List Entry}

theorem Subject.Plain.contentArgument (h : s.Plain) (text : String) :
    Inner (s.contentArgument text) := by
  have hcontent := Text.onOneLine_lettered h.content
  have htext := Text.onOneLine_literal text
  refine inner_argument ?_
  unfold OnOneLine at hcontent htext ⊢
  simp [hcontent, htext]

theorem defaultEntry_plain (h : s.Plain) : (defaultEntry s).Plain where
  name := by simp [defaultEntry, Lettered, Text.isLettered]
  arguments := List.forall_mem_singleton.2 (h.contentArgument _)
  extra := by simp [defaultEntry]

theorem variantArguments_inner (h : s.Plain) (v : VariantSpec) :
    ∀ a ∈ variantArguments s.parameters v, Inner a := by
  intro a ha
  obtain ⟨⟨key, value⟩, -, ha⟩ := List.mem_filterMap.1 ha
  obtain ⟨name, hname, rfl⟩ := Option.map_eq_some_iff.1 ha
  obtain ⟨p, hp, rfl⟩ := Option.map_eq_some_iff.1 hname
  have hone := Text.onOneLine_lettered (h.parameters p (List.mem_of_find?_eq_some hp))
  have hvalue := Text.onOneLine_literal value.shown
  refine inner_argument ?_
  unfold OnOneLine at hone hvalue ⊢
  simp [hone, hvalue]

theorem variantEntry_plain (h : s.Plain) (v : VariantSpec) (hname : Lettered story.toList) :
    (variantEntry s v story).Plain where
  name := hname
  arguments := List.forall_mem_append.2
    ⟨variantArguments_inner h v, List.forall_mem_singleton.2 (h.contentArgument _)⟩
  extra := by simp [variantEntry]

/-- A value in code stays on its line. -/
theorem onOneLine_ofDatum {d : Datum} {piece : Markup.Piece} (h : Markup.Piece.ofDatum d = .ok piece) :
    OnOneLine piece.text := by
  cases d with
  | bool b => cases h; cases b <;> simp [OnOneLine, Markup.Piece.text]
  | int n =>
    obtain ⟨text, htext, h⟩ := Outcome.bind_ok h
    obtain ⟨-, -, htext⟩ := Outcome.bind_ok htext
    cases h
    cases htext
    exact Text.onOneLine_numerals (Decimal.areNumerals_int n)
  | float x =>
    cases h
    exact Text.onOneLine_numerals (Decimal.areNumerals_plainFloat x)
  | _ => cases h; exact Text.onOneLine_literal _

theorem variantWish_lettered (label : String) (number : Nat) :
    Lettered (variantWish label number).toList := by
  have hfallback : Lettered "Variant".toList := by simp [Lettered, Text.isLettered]
  unfold variantWish
  split
  · rw [String.toList_ofList]
    exact fun c hc => Naming.pascal_lettered hfallback _ c (List.mem_of_mem_take hc)
  · rw [String.toList_append]
    exact hfallback.append fun c hc => Text.isLettered_of_isDigit (Text.isDigit_of_mem_nat hc)

theorem variantEntries_named (hs : s.Plain) {variants : List VariantSpec} {number : Nat}
    (h : variantEntries s number used variants = .ok (es, after)) : Named used es after := by
  induction variants generalizing number used es with
  | nil => cases h; exact .nil _
  | cons v rest ih =>
    obtain ⟨label, -, h⟩ := Outcome.bind_ok h
    obtain ⟨⟨es', after'⟩, hrest, h⟩ := Outcome.bind_ok h
    cases h
    exact .reserve (variantWish_lettered label number) (fun _ => rfl) (variantEntry_plain hs v)
      (ih hrest)

/-- The story about accessibility, with or without the argument for a label. -/
theorem accessibilityEntry_named (hs : s.Plain) {b : Blueprint}
    (h : accessibilityEntry s b used = .ok (es, after)) : Named used es after := by
  have hentry : ∀ labelled : List String, (∀ a ∈ labelled, Inner a) → ∀ entry : String → Entry,
      (entry = fun story => ⟨story, [s.contentArgument ("Accessible " ++ s.name)] ++ labelled,
        s.name ++ " with accessibility attributes.", []⟩) →
      Named used [(reserve used "AccessibilityExample" entry).1]
        (reserve used "AccessibilityExample" entry).2 := by
    rintro labelled hlabelled entry rfl
    refine .reserve (by simp [Lettered, Text.isLettered]) (fun _ => rfl) (fun hname => ?_) (.nil _)
    exact ⟨hname, List.forall_mem_cons.2 ⟨hs.contentArgument _, hlabelled⟩, by simp⟩
  unfold accessibilityEntry at h
  dsimp only at h
  split at h
  · cases h; exact .nil used
  split at h
  · split at h
    · obtain ⟨piece, hpiece, h⟩ := Outcome.bind_ok h
      cases h
      refine hentry _ (List.forall_mem_singleton.2 (inner_argument ?_)) _ rfl
      exact Text.onOneLine_append.2 ⟨by simp [OnOneLine], onOneLine_ofDatum hpiece⟩
    · cases h
      exact hentry [] (by simp) _ rfl
  · cases h
    exact hentry [] (by simp) _ rfl

theorem stateEntry_plain (hs : s.Plain) (state : String) (hname : Lettered story.toList) :
    (stateEntry s state story).Plain where
  name := hname
  arguments := by
    refine List.forall_mem_append.2 ⟨List.forall_mem_singleton.2 (hs.contentArgument _), ?_⟩
    split
    · exact List.forall_mem_singleton.2 (inner_argument (by simp [OnOneLine]))
    · simp
  extra := by
    intro a ha
    obtain ⟨pseudo, hpseudo, rfl⟩ := List.mem_map.1 ha
    obtain ⟨key, -, hrow⟩ := Table.mem_of_lookup (Option.mem_toList.1 hpseudo)
    have hrows : ∀ row ∈ pseudoStates, OnOneLine row.2 := by simp [pseudoStates, OnOneLine]
    have hone := hrows _ hrow
    refine inner_argument ?_
    unfold OnOneLine at hone ⊢
    simp [hone]

theorem stateEntries_named (hs : s.Plain) {states : List Datum}
    (h : stateEntries s used states = .ok es) : ∃ after, Named used es after := by
  induction states generalizing used es with
  | nil => cases h; exact ⟨used, .nil used⟩
  | cons state rest ih =>
    obtain ⟨key, -, h⟩ := Outcome.bind_ok h
    obtain ⟨ps, -, h⟩ := Outcome.bind_ok h
    obtain ⟨es', hrest, h⟩ := Outcome.bind_ok h
    cases h
    obtain ⟨after, hnamed⟩ := ih hrest
    have hstate : Lettered "State".toList := by simp [Lettered, Text.isLettered]
    exact ⟨after, .reserve (Naming.pascal_lettered hstate ps) (fun _ => rfl) (stateEntry_plain hs _) hnamed⟩

/-- The default story, and behind it all others under names that are taken one after the other. -/
theorem entries_named (hs : s.Plain) {b : Blueprint} (h : entries s b = .ok es) :
    ∃ others after, es = defaultEntry s :: others ∧ Named ["Default", "meta"] others after := by
  obtain ⟨shown, -, h⟩ := Outcome.bind_ok h
  obtain ⟨⟨variants, used⟩, hvariants, h⟩ := Outcome.bind_ok h
  obtain ⟨⟨accessible, used'⟩, haccessible, h⟩ := Outcome.bind_ok h
  obtain ⟨states, hstates, h⟩ := Outcome.bind_ok h
  cases h
  obtain ⟨after, hnamed⟩ := stateEntries_named hs hstates
  exact ⟨_, after, by simp, ((variantEntries_named hs hvariants).append
    (accessibilityEntry_named hs haccessible)).append hnamed⟩

end Kinds

/-! ## The file -/

theorem rules_inner (b : Blueprint) : ∀ rule ∈ accessibilityRules b, Inner
    (Script.indent 5 ++ "\x7b id: " ++ Script.literal rule ++ ", enabled: true \x7d,") := by
  intro rule _
  have hindent : (Script.indent 5).toList = ' ' :: (Script.indent 4).toList ++ [' '] := rfl
  have hrule := Text.onOneLine_literal rule
  refine ⟨?_, ?_⟩
  · unfold OnOneLine at hrule ⊢
    simp [hrule, show Script.indent 5 = "          " from rfl]
  · simp only [String.toList_append, hindent, List.cons_append]
    exact bound?_blank _

theorem argumentTypes_inner {ps : List Parameter} (h : ∀ p ∈ ps, Lettered p.name.toList) :
    ∀ line ∈ argumentTypes ps, Inner line := by
  have hopening : Inner "  argTypes: \x7b" := ⟨by simp [OnOneLine], bound?_blank _⟩
  have hclosing : Inner "  \x7d," := ⟨by simp [OnOneLine], bound?_blank _⟩
  unfold argumentTypes
  dsimp only
  split
  · simp
  simp only [List.forall_mem_append, List.forall_mem_singleton]
  refine ⟨⟨hopening, fun line hline => ?_⟩, hclosing⟩
  obtain ⟨p, hp, rfl⟩ := List.mem_map.1 hline
  have hname := Text.onOneLine_lettered (h p (List.mem_of_mem_filter hp))
  have hvalues : OnOneLine (", ".intercalate (p.values.map (Script.literal ·.shown))) := by
    refine Text.onOneLine_intercalate (by simp [OnOneLine]) fun value hvalue => ?_
    obtain ⟨d, -, rfl⟩ := List.mem_map.1 hvalue
    exact Text.onOneLine_literal _
  refine inner_argument ?_
  unfold OnOneLine at hname hvalues ⊢
  simpa [hname] using hvalues

theorem header_onOneLine {name : String} (hname : Lettered name.toList) (b : Blueprint)
    {ps : List Parameter} (hps : ∀ p ∈ ps, Lettered p.name.toList) :
    ∀ line ∈ header name b ps, OnOneLine line := by
  have hone := Text.onOneLine_lettered hname
  have hrules := fun line hline => (List.forall_mem_map.2 (rules_inner b) line hline).1
  have htypes := fun line hline => (argumentTypes_inner hps line hline).1
  have htitle := Text.onOneLine_literal ("Components/" ++ name)
  have habout := Text.onOneLine_literal (name ++ " component generated from Figma.")
  unfold header
  simp only [List.forall_mem_append]
  refine ⟨⟨⟨⟨?_, hrules⟩, ?_⟩, htypes⟩, ?_⟩
  all_goals
    unfold OnOneLine at hone htitle habout ⊢
    simp [hone, htitle, habout]

theorem header_bound {name : String} (hname : Lettered name.toList) (b : Blueprint)
    {ps : List Parameter} (hps : ∀ p ∈ ps, Lettered p.name.toList) :
    (header name b ps).filterMap (fun s => bound? s.toList) = [name, "meta"] := by
  have hrules := List.filterMap_eq_nil_iff.2 fun line hline =>
    (List.forall_mem_map.2 (rules_inner b) line hline).2
  have htypes := List.filterMap_eq_nil_iff.2 fun line hline => (argumentTypes_inner hps line hline).2
  have himport := takeWhile_lettered hname (c := ' ') rfl
    ("\x7d from './".toList ++ (name.toList ++ "';".toList))
  unfold header
  simp only [List.filterMap_append, hrules, htypes]
  simpa [bound?, binders, Text.dropPrefix?, Text.isLettered] using himport

/-- The name of a component is lettered, and it is not that of the meta data, which begins with a small
letter. -/
theorem componentName_ok {title : Datum} {name : String}
    (h : Component.componentName title = .ok name) : Lettered name.toList ∧ name ≠ "meta" := by
  obtain ⟨ps, -, h⟩ := Outcome.bind_ok h
  cases h
  refine ⟨Naming.pascal_lettered (by simp [Lettered, Text.isLettered]) ps, fun he => ?_⟩
  have hlarge := Naming.pascal_large
    (show Naming.BeginsLarge "Component".toList by simp [Naming.BeginsLarge, Text.isSmallAscii]) ps
  rw [he] at hlarge
  exact absurd (hlarge 'm' rfl) (by decide)

theorem contentName_lettered {ps : List Parameter} (hps : ∀ p ∈ ps, Lettered p.name.toList)
    {content : String} (h : contentName ps = .ok content) : Lettered content.toList := by
  obtain ⟨label, hlabel, h⟩ := Outcome.bind_ok h
  cases h
  cases label with
  | none => simp [Lettered, Text.isLettered]
  | some p => exact hps p (List.mem_of_mem_filter (Component.mem_of_firstLabel hlabel))

/-- What the file of the stories binds: the component, the meta data, and the stories. -/
theorem boundNames_text {name text content : String} {b : Blueprint} {ps : List Parameter}
    {es : List Entry} (hname : Lettered name.toList) (hps : ∀ p ∈ ps, Lettered p.name.toList)
    (hcontent : contentName ps = .ok content) (hes : entries ⟨name, ps, content⟩ b = .ok es)
    (ht : Story.text name b ps = .ok text) : boundNames text = name :: "meta" :: es.map Entry.name := by
  unfold Story.text at ht
  rw [hcontent, Outcome.ok_bind, hes] at ht
  cases ht
  have hs : Subject.Plain ⟨name, ps, content⟩ := ⟨contentName_lettered hps hcontent, hps⟩
  obtain ⟨others, after, rfl, hnamed⟩ := entries_named hs hes
  have hplain := List.forall_mem_cons.2 ⟨defaultEntry_plain hs, hnamed.plain⟩
  rw [boundNames_lines (by simp [header]) (List.forall_mem_append.2
    ⟨header_onOneLine hname b hps, Entry.onOneLine_all hplain⟩), List.filterMap_append,
    header_bound hname b hps, Entry.bound_all hplain]
  rfl

/-- The stories of a component bind the name of the component, the meta data, and a name per story.
Those of the stories and of the meta data are distinct, so a name is bound twice exactly if a story is
called like the component. -/
theorem boundNames_nodup_iff {title outline interaction : Datum} {b : Blueprint}
    {name text : String} {handlesKeys : Bool} (hname : Component.componentName title = .ok name)
    (hb : Blueprint.read outline interaction = .ok b)
    (ht : Story.text name b (Component.parameters b handlesKeys) = .ok text) :
    ∃ content es, contentName (Component.parameters b handlesKeys) = .ok content ∧
      entries ⟨name, Component.parameters b handlesKeys, content⟩ b = .ok es ∧
      boundNames text = name :: "meta" :: es.map Entry.name ∧
      ("meta" :: es.map Entry.name).Nodup ∧
      ((boundNames text).Nodup ↔ name ∉ es.map Entry.name) := by
  have hps := Component.parameters_lettered hb handlesKeys
  obtain ⟨hlettered, hmeta⟩ := componentName_ok hname
  obtain ⟨content, hcontent, h⟩ := Outcome.bind_ok ht
  obtain ⟨es, hes, -⟩ := Outcome.bind_ok h
  obtain ⟨others, after, rfl, hnamed⟩ :=
    entries_named ⟨contentName_lettered hps hcontent, hps⟩ hes
  have hbound : boundNames text = name :: "meta" :: "Default" :: others.map Entry.name :=
    boundNames_text hlettered hps hcontent hes ht
  obtain ⟨hnodup, hfree⟩ := hnamed.distinct
  have hdistinct : ("meta" :: "Default" :: others.map Entry.name).Nodup := by
    have hmeta : "meta" ∉ others.map Entry.name := fun hm => hfree _ hm (by simp)
    have hdefault : "Default" ∉ others.map Entry.name := fun hm => hfree _ hm (by simp)
    exact List.nodup_cons.2 ⟨List.not_mem_cons_of_ne_of_not_mem (by decide) hmeta,
      List.nodup_cons.2 ⟨hdefault, hnodup⟩⟩
  refine ⟨content, _, hcontent, hes, hbound, hdistinct, ?_⟩
  rw [hbound, List.nodup_cons, and_iff_left hdistinct, List.mem_cons, not_or, and_iff_right hmeta]
  rfl

/-! ## A component that is called like a story -/

/-- What the stories of the outline of a layer bind under a title. -/
def sampleNames (title : String) : Outcome (List String) := do
  let name ← Component.componentName (.text title)
  let interaction ← Interaction.build Component.selectOutline
    (Component.selectVerdict.toDatum Archetype.Features.none [])
  let b ← Blueprint.read Component.selectOutline interaction
  let ps := Component.parameters b false
  let es ← entries ⟨name, ps, ← contentName ps⟩ b
  return name :: "meta" :: es.map Entry.name

theorem sampleNames_ok {title : String} {names : List String}
    (h : (sampleNames title).toOption = some names) : ∃ name interaction b text,
      Component.componentName (.text title) = .ok name ∧
      Interaction.build Component.selectOutline
        (Component.selectVerdict.toDatum Archetype.Features.none []) = .ok interaction ∧
      Blueprint.read Component.selectOutline interaction = .ok b ∧
      Story.text name b (Component.parameters b false) = .ok text ∧ boundNames text = names := by
  cases hnames : sampleNames title with
  | error e => rw [hnames] at h; cases h
  | ok found =>
    rw [hnames] at h
    cases h
    obtain ⟨name, hname, hnames⟩ := Outcome.bind_ok hnames
    obtain ⟨interaction, hbuild, hnames⟩ := Outcome.bind_ok hnames
    obtain ⟨b, hread, hnames⟩ := Outcome.bind_ok hnames
    obtain ⟨content, hcontent, hnames⟩ := Outcome.bind_ok hnames
    obtain ⟨es, hes, hnames⟩ := Outcome.bind_ok hnames
    have htext : ∃ text, Story.text name b (Component.parameters b false) = .ok text := by
      unfold Story.text
      rw [hcontent, Outcome.ok_bind, hes]
      exact ⟨_, rfl⟩
    obtain ⟨text, htext⟩ := htext
    have hbound := boundNames_text (componentName_ok hname).1
      (Component.parameters_lettered hread false) hcontent hes htext
    exact ⟨name, interaction, b, text, hname, hbuild, hread, htext,
      hbound.trans (Except.ok.inj hnames)⟩

/-- Under a title of its own, the component is told apart from its stories. -/
theorem boundNames_select : ∃ name interaction b text,
    Component.componentName (.text "Select") = .ok name ∧
    Interaction.build Component.selectOutline
      (Component.selectVerdict.toDatum Archetype.Features.none []) = .ok interaction ∧
    Blueprint.read Component.selectOutline interaction = .ok b ∧
    Story.text name b (Component.parameters b false) = .ok text ∧
    boundNames text = ["Select", "meta", "Default"] ∧
    ∃ es : List Entry, boundNames text = name :: "meta" :: es.map Entry.name ∧
      name ∉ es.map Entry.name := by
  have hrun : (sampleNames "Select").toOption = some ["Select", "meta", "Default"] := by
    decide +kernel
  obtain ⟨name, interaction, b, text, hname, hbuild, hread, htext, hnames⟩ := sampleNames_ok hrun
  obtain ⟨content, es, -, -, hbound, -, hiff⟩ := boundNames_nodup_iff hname hread htext
  exact ⟨name, interaction, b, text, hname, hbuild, hread, htext, hnames, es, hbound,
    hiff.1 (by rw [hnames]; decide)⟩

/-- A component that is called Default is imported and exported under one name. -/
theorem boundNames_default : ∃ outline intelligence interaction b text,
    Outline.ofDatum Component.selectLayer ⟨.text "", .text "", .null⟩ = .ok outline ∧
    Archetype.classify outline = .ok intelligence ∧
    Interaction.build outline intelligence = .ok interaction ∧
    Component.componentName (.text "Default") = .ok "Default" ∧
    Blueprint.read outline interaction = .ok b ∧
    Story.text "Default" b (Component.parameters b false) = .ok text ∧
    boundNames text = ["Default", "meta", "Default"] ∧ ¬ (boundNames text).Nodup := by
  have hrun : (sampleNames "Default").toOption = some ["Default", "meta", "Default"] := by
    decide +kernel
  obtain ⟨name, interaction, b, text, hname, hbuild, hread, htext, hnames⟩ := sampleNames_ok hrun
  have hdefault : name = "Default" := by
    have : Component.componentName (.text "Default") = .ok "Default" := by rfl
    exact Except.ok.inj (hname.symm.trans this)
  subst hdefault
  exact ⟨Component.selectOutline, _, interaction, b, text, Component.selectOutline_made,
    Component.selectOutline_classified, hbuild, hname, hread, htext, hnames, by rw [hnames]; decide⟩

end Maquette.Story
