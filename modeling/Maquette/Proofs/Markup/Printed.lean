/-
Markup as it is printed, and read back. Whatever text stands in an attribute, in a literal or in the
text of an element, what is printed reads as one element with the attributes and the children that it
was made of: the text goes to the place where it cannot be misread. Lines and their indentation are
layout, so an element reads the same at every level.
-/
import Maquette.Markup.Basic
import Maquette.Proofs.Css.Printed
import Maquette.Proofs.Datum
import Maquette.Proofs.Decimal.Integral
import Maquette.Proofs.Markup.Reading
import Maquette.Proofs.Naming.Lettered
import Maquette.Proofs.Outcome

namespace Maquette.Reader

/-! ## Texts in code -/

/-- A text in single quotes is closed, whatever it holds. -/
theorem closed_literal (s : String) : Closed (Script.literal s).toList := by
  rw [Script.toList_literal]
  refine closed_quoted (.inr rfl) (fun c brackets => ?_) _
  unfold Script.literalChar
  split_ifs with hslash hquote hfeed hreturn
  · rfl
  · rfl
  · rfl
  · rfl
  · simp [Within.step, hslash, hquote, hfeed, hreturn]

/-- The number of a control character is written in characters that stand in a text for themselves. -/
theorem control_harmless : ∀ n < 32, (hex 4 n).toList.all
    (fun c => !(c == '"' || c == '\\' || c == '\n' || c == '\r')) = true := by decide +kernel

/-- Characters that stand between quotation marks for themselves. -/
theorem foldlM_quoted {mark : Char} {cs : List Char} (hmark : mark ∉ cs)
    (h : ∀ c ∈ cs, c ≠ '\\' ∧ c ≠ '\n' ∧ c ≠ '\r') (brackets : List Char) :
    cs.foldlM Within.step (.quoted mark false brackets) = some (.quoted mark false brackets) := by
  induction cs with
  | nil => rfl
  | cons c cs ih =>
    obtain ⟨⟨hslash, hfeed, hreturn⟩, hcs⟩ := List.forall_mem_cons.1 h
    rw [List.mem_cons, not_or] at hmark
    have hstep : Within.step (.quoted mark false brackets) c = some (.quoted mark false brackets) := by
      simp [Within.step, Ne.symm hmark.1, hslash, hfeed, hreturn]
    rw [List.foldlM_cons, hstep, Option.bind_eq_bind, Option.bind_some, ih hmark.2 hcs]

/-- A text in double quotes is closed, whatever it holds. -/
theorem closed_jsonText (s : String) : Closed (jsonText s).toList := by
  rw [jsonText, String.toList_ofList, List.cons_append]
  refine closed_quoted (.inl rfl) (fun c brackets => ?_) _
  unfold jsonChar
  split_ifs with hquote hslash hfeed hreturn htab hback hform hcontrol
  · rfl
  · rfl
  · rfl
  · rfl
  · rfl
  · rfl
  · rfl
  · have hchars : ∀ e ∈ (hex 4 c.toNat).toList, e ≠ '"' ∧ e ≠ '\\' ∧ e ≠ '\n' ∧ e ≠ '\r' := by
      simpa [and_assoc] using control_harmless c.toNat hcontrol
    have hmark : "\\u".toList.foldlM Within.step (.quoted '"' false brackets) =
        some (.quoted '"' false brackets) := rfl
    rw [String.toList_append, List.foldlM_append, hmark, Option.bind_eq_bind, Option.bind_some,
      foldlM_quoted (fun h => (hchars _ h).1 rfl) (fun e he => (hchars e he).2)]
  · simp [Within.step, hslash, hquote, hfeed, hreturn]

theorem isPlain_of_lettered {c : Char} (h : Text.isLettered c = true) : isPlain c = true := by
  have hne : ∀ e : Char, Text.isLettered e = false → c ≠ e := fun e he hce => by
    rw [hce, he] at h
    cases h
  simp only [isPlain, Bool.not_eq_true', Bool.or_eq_false_iff, beq_eq_false_iff_ne]
  exact ⟨⟨⟨⟨⟨⟨⟨⟨⟨hne _ rfl, hne _ rfl⟩, hne _ rfl⟩, hne _ rfl⟩, hne _ rfl⟩, hne _ rfl⟩, hne _ rfl⟩,
    hne _ rfl⟩, hne _ rfl⟩, hne _ rfl⟩

theorem closed_lettered {cs : List Char} (h : Naming.Lettered cs) : Closed cs :=
  closed_plain fun c hc => isPlain_of_lettered (h c hc)

theorem closed_numerals {cs : List Char} (h : Decimal.AreNumerals cs) : Closed cs := by
  refine closed_plain fun c hc => ?_
  rcases Bool.or_eq_true_iff.1 (List.all_eq_true.1 h c hc) with hc | hc
  · exact isPlain_of_lettered (Text.isLettered_of_isDigit hc)
  · have hmarks : ∀ e ∈ ['-', '+', '.', 'e', 'i', 'n', 'f', 'a'], isPlain e = true := by
      simp [isPlain]
    exact hmarks c (by simpa using hc)

/-- Closed codes with a mark between each two. -/
theorem closed_intercalate {sep : String} (hsep : Closed sep.toList) {pieces : List String}
    (h : ∀ s ∈ pieces, Closed s.toList) : Closed (sep.intercalate pieces).toList := by
  induction pieces with
  | nil => exact Closed.nil
  | cons s pieces ih =>
    obtain ⟨hs, hpieces⟩ := List.forall_mem_cons.1 h
    cases pieces with
    | nil => rwa [String.intercalate_singleton]
    | cons next pieces =>
      rw [String.intercalate_cons_cons, String.toList_append, String.toList_append]
      exact (hs.append hsep).append (ih hpieces)

theorem closed_comma : Closed ", ".toList := closed_plain (by simp [isPlain])

theorem closed_jsonFloat (x : Float) : Closed (Datum.jsonFloat x).toList := by
  unfold Datum.jsonFloat
  split
  · exact closed_plain (by simp [isPlain])
  · unfold Decimal.signed
    split <;> exact closed_plain (by simp [isPlain])
  · exact closed_numerals (Decimal.areNumerals_shown x)

mutual

/-- Data on one line are closed. -/
theorem closed_jsonLine : ∀ d : Datum, Closed d.jsonLine.toList
  | .null => closed_plain (by simp [Datum.jsonLine, isPlain])
  | .bool b => closed_plain (by cases b <;> simp [Datum.jsonLine, isPlain])
  | .int n => closed_numerals (Decimal.areNumerals_int n)
  | .float x => closed_jsonFloat x
  | .text s => closed_jsonText s
  | .list items => by
    have hitems := closed_intercalate closed_comma (closed_jsonLineItems items)
    have hline := hitems.bracketed (show ('[', ']') ∈ _ by simp)
    rw [Datum.jsonLine, String.toList_append, String.toList_append]
    exact hline
  | .record fields => by
    have hfields := closed_intercalate closed_comma (closed_jsonLineFields fields)
    have hline := hfields.bracketed (show ('\x7b', '\x7d') ∈ _ by simp)
    rw [Datum.jsonLine, String.toList_append, String.toList_append]
    exact hline

theorem closed_jsonLineItems : ∀ items : List Datum, ∀ s ∈ Datum.jsonLineItems items, Closed s.toList
  | [] => by simp [Datum.jsonLineItems]
  | x :: rest => List.forall_mem_cons.2 ⟨closed_jsonLine x, closed_jsonLineItems rest⟩

theorem closed_jsonLineFields : ∀ fields : List (String × Datum),
    ∀ s ∈ Datum.jsonLineFields fields, Closed s.toList
  | [] => by simp [Datum.jsonLineFields]
  | (k, v) :: rest => by
    have hmark : Closed ": ".toList := closed_plain (by simp [isPlain])
    refine List.forall_mem_cons.2 ⟨?_, closed_jsonLineFields rest⟩
    rw [String.toList_append, String.toList_append]
    exact ((closed_jsonText k).append hmark).append (closed_jsonLine v)

end

end Maquette.Reader

namespace Maquette.Markup

open Reader (Closed Dialect Frame Tree Value component isLayout isName isNameChar run run_step run_text
  run_trans)

/-! ## Code -/

namespace Code

theorem toList_text (c : Code) : c.text.toList = c.flatMap fun p => p.text.toList := by
  rw [text, String.toList_join, List.flatMap_map]

theorem toList_append (c d : Code) : (c ++ d).text.toList = c.text.toList ++ d.text.toList := by
  rw [toList_text, toList_text, toList_text, List.flatMap_append]

theorem toList_cons (p : Piece) (c : Code) :
    (text (p :: c)).toList = p.text.toList ++ c.text.toList := by
  rw [toList_text, toList_text, List.flatMap_cons]

theorem toList_braced (c : Code) : c.braced.text.toList = '\x7b' :: (c.text.toList ++ ['\x7d']) := by
  simp [braced, toList_text, Piece.text]

theorem text_append (c d : Code) : (c ++ d).text = c.text ++ d.text := by
  rw [← String.toList_inj, toList_append, String.toList_append]

theorem text_raw (s : String) : text [.raw s] = s := by simp [text, Piece.text]

theorem text_between (mark : String) (cs : List Code) :
    (between mark cs).text = mark.intercalate (cs.map text) := by
  induction cs with
  | nil => rfl
  | cons c cs ih =>
    cases cs with
    | nil => rw [between, List.map_singleton, String.intercalate_singleton]
    | cons d cs =>
      rw [between, text_append, text_append, ih, text_raw]
      · simp only [List.map_cons, String.intercalate_cons_cons, String.append_assoc]
      · simp

/-- Code that is closed. -/
def IsClosed (c : Code) : Prop := Closed c.text.toList

theorem IsClosed.append {c d : Code} (hc : c.IsClosed) (hd : d.IsClosed) : (c ++ d).IsClosed := by
  rw [IsClosed, toList_append]
  exact Closed.append hc hd

theorem isClosed_of {c : Code} (h : ∀ p ∈ c, Closed p.text.toList) : c.IsClosed := by
  induction c with
  | nil => exact Closed.nil
  | cons p c ih =>
    obtain ⟨hp, hc⟩ := List.forall_mem_cons.1 h
    rw [IsClosed, toList_cons]
    exact hp.append (ih hc)

theorem isClosed_between {mark : String} (hmark : Closed mark.toList) {cs : List Code}
    (h : ∀ c ∈ cs, c.IsClosed) : (between mark cs).IsClosed := by
  induction cs with
  | nil => exact Closed.nil
  | cons c cs ih =>
    obtain ⟨hc, hcs⟩ := List.forall_mem_cons.1 h
    cases cs with
    | nil => exact hc
    | cons next cs =>
      have hraw : IsClosed [.raw mark] := isClosed_of (List.forall_mem_singleton.2 hmark)
      exact (hc.append hraw).append (ih hcs)

end Code

/-- A value in code is closed. -/
theorem Piece.closed_ofDatum {d : Datum} {p : Piece} (h : Piece.ofDatum d = .ok p) :
    Closed p.text.toList := by
  cases d with
  | bool b => cases h; cases b <;> exact Reader.closed_lettered (by simp [Piece.text, Naming.Lettered, Text.isLettered])
  | int n =>
    obtain ⟨text, htext, h⟩ := Outcome.bind_ok h
    obtain ⟨-, -, htext⟩ := Outcome.bind_ok htext
    cases h
    cases htext
    exact Reader.closed_numerals (Decimal.areNumerals_int n)
  | float x =>
    cases h
    exact Reader.closed_numerals (Decimal.areNumerals_plainFloat x)
  | _ => cases h; exact Reader.closed_literal _

/-- A style is closed, whatever its values are. -/
theorem Code.isClosed_style {fields : List (String × Datum)} {c : Code}
    (hkeys : ∀ row ∈ fields, Closed row.1.toList) (h : Code.style fields = .ok c) : c.IsClosed := by
  have hmark : ∀ {s : String}, Closed s.toList → Code.IsClosed [.raw s] := fun hs =>
    isClosed_of (List.forall_mem_singleton.2 hs)
  have hcolon : Closed ": ".toList := Reader.closed_plain (by simp [Reader.isPlain])
  obtain ⟨items, hitems, h⟩ := Outcome.bind_ok h
  have hclosed : ∀ item ∈ items, Code.IsClosed item := by
    intro item hitem
    obtain ⟨⟨k, v⟩, hrow, hv⟩ := Outcome.mem_mapM hitems item hitem
    obtain ⟨p, hp, hv⟩ := Outcome.bind_ok hv
    cases hv
    have hkey : Closed (k ++ ": ").toList := by
      rw [String.toList_append]
      exact (hkeys _ hrow).append hcolon
    exact isClosed_of (List.forall_mem_cons.2 ⟨hkey, List.forall_mem_singleton.2 (Piece.closed_ofDatum hp)⟩)
  have hinner := isClosed_between Reader.closed_comma hclosed
  have hspace : Closed " ".toList := Reader.closed_plain (by simp [Reader.isPlain])
  cases h
  split
  · have hbraces := Closed.nil.bracketed (show ('\x7b', '\x7d') ∈ _ by simp)
    simpa [IsClosed, toList_text, Piece.text] using hbraces
  · have hbraces := ((hspace.append hinner).append hspace).bracketed (show ('\x7b', '\x7d') ∈ _ by simp)
    rw [IsClosed, toList_append, toList_append]
    simpa [toList_text, Piece.text] using hbraces

/-! ## Attributes -/

namespace Attribute

/-- What an attribute is read with. -/
def value : Attribute → Value
  | text _ v => if needsLiteral v then .code (Script.literal v) else .text v
  | flag _ => .absent
  | code _ c => .code c.text

theorem text_code (name : String) (c : Code) :
    (code name c).toCode.text = name ++ "=\x7b" ++ c.text ++ "\x7d" := by
  rw [toCode, Code.text_append, Code.text_raw, Code.braced, Code.text_append, Code.text_append,
    Code.text_raw, Code.text_raw]
  refine String.toList_injective ?_
  simp

/-- An attribute that has a proper name and a value, and no code in it but closed one. -/
def IsSound : Attribute → Prop
  | text name _ => isName name.toList = true
  | flag _ => False
  | code name c => isName name.toList = true ∧ c.IsClosed

theorem reads_code {name : String} (hname : isName name.toList = true) {c : Code} (hc : c.IsClosed) :
    Reader.ReadsAttribute component (Code.text ([.raw (name ++ "=")] ++ c.braced)).toList name.toList
      (.code c.text) := by
  have hreads := Reader.readsAttribute_code (d := component) rfl hname hc
  rw [String.ofList_toList] at hreads
  have htext : (Code.text ([.raw (name ++ "=")] ++ c.braced)).toList =
      name.toList ++ '=' :: '\x7b' :: (c.text.toList ++ ['\x7d']) := by
    rw [Code.toList_append, Code.toList_braced]
    simp [Code.toList_text, Piece.text]
  rwa [htext]

/-- A sound attribute is read as it is meant: a text that holds a quotation mark or a line feed stands
in a literal, so no text ends its attribute. -/
theorem reads {a : Attribute} (h : a.IsSound) :
    Reader.ReadsAttribute component a.toCode.text.toList a.name.toList a.value := by
  cases a with
  | flag name => cases h
  | code name c => exact reads_code h.1 h.2
  | text name v =>
    by_cases hv : needsLiteral v = true
    · have hliteral : Code.IsClosed [.literal v] :=
        Code.isClosed_of (List.forall_mem_singleton.2 (Reader.closed_literal v))
      have htext : Code.text [.literal v] = Script.literal v := by simp [Code.text, Piece.text]
      simp only [toCode, value, if_pos hv]
      exact htext ▸ reads_code h hliteral
    · have hquote : '"' ∉ v.toList := fun hm => hv (List.any_eq_true.2 ⟨_, hm, by simp⟩)
      have hreads := Reader.readsAttribute_text (d := component) h hquote rfl
      rw [String.ofList_toList] at hreads
      simp only [toCode, value, if_neg hv]
      show Reader.ReadsAttribute component _ name.toList _
      simpa [Code.toList_text, Piece.text] using hreads

theorem isSound_ofDatum {name : String} (hname : isName name.toList = true) {d : Datum} {a : Attribute}
    (h : ofDatum name d = .ok a) : a.IsSound := by
  have hraw : ∀ {s : String}, Closed s.toList → IsSound (code name [.raw s]) := fun hs =>
    ⟨hname, Code.isClosed_of (List.forall_mem_singleton.2 hs)⟩
  cases d with
  | bool b => cases h; exact hraw (by cases b <;> exact Reader.closed_lettered (by simp [Naming.Lettered, Text.isLettered]))
  | int n =>
    obtain ⟨text, htext, h⟩ := Outcome.bind_ok h
    obtain ⟨-, -, htext⟩ := Outcome.bind_ok htext
    cases h
    cases htext
    exact hraw (Reader.closed_numerals (Decimal.areNumerals_int n))
  | float x =>
    cases h
    exact hraw (Reader.closed_numerals (Decimal.areNumerals_plainFloat x))
  | _ => cases h; exact hname

end Attribute

/-- The attributes that an element is read with. -/
def valuesOf (as : List Attribute) : List (String × Value) := as.map fun a => (a.name, a.value)

/-- The value of an attribute behind others of other names. -/
theorem lookup_valuesOf {name : String} {as bs : List Attribute} (h : ∀ a ∈ as, a.name ≠ name) :
    (valuesOf (as ++ bs)).lookup name = (valuesOf bs).lookup name := by
  have hnone : (valuesOf as).lookup name = none := by
    rw [List.lookup_eq_none_iff]
    intro row hrow
    obtain ⟨a, ha, rfl⟩ := List.mem_map.1 hrow
    exact bne_iff_ne.2 (h a ha).symm
  rw [valuesOf, List.map_append, List.lookup_append, ← valuesOf, hnone, Option.none_or, ← valuesOf]

/-! ## Lines -/

section Lines

variable {stack : List Frame} {nodes text : List Tree} {cs : List Char}

theorem mem_indent {level : Int} {c : Char} (h : c ∈ (Script.indent level).toList) : c = ' ' := by
  rw [Script.indent, Text.times, String.toList_join] at h
  obtain ⟨s, hs, hc⟩ := List.mem_flatMap.1 h
  rw [List.eq_of_mem_replicate hs] at hc
  simpa using hc

/-- The end of a line and the indentation of the next one are layout. -/
theorem run_indent (level : Int) : ∃ begun, component.content? begun = some [] ∧
    ∀ stack nodes cs, run component ⟨stack, nodes, .content []⟩
        ('\n' :: ((Script.indent level).toList ++ cs)) =
      run component ⟨stack, nodes, .content begun⟩ cs := by
  have hblank : ∀ c ∈ '\n' :: (Script.indent level).toList, c = '\n' ∨ c = ' ' := fun c hc =>
    (List.mem_cons.1 hc).imp id mem_indent
  refine ⟨'\n' :: (Script.indent level).toList, ?_, fun stack nodes cs => ?_⟩
  · have hlayout : isLayout ('\n' :: (Script.indent level).toList) = true := by
      rw [isLayout, Bool.and_eq_true, List.all_eq_true]
      exact ⟨fun c hc => by rcases hblank c hc with rfl | rfl <;> rfl, by simp⟩
    rw [Dialect.content?, if_pos (.inr ⟨rfl, hlayout⟩)]
  · rw [← List.cons_append]
    refine run_trans (run_text (fun c hc => ?_) [])
    rcases hblank c hc with rfl | rfl <;> simp

theorem toList_opening (tag : String) (as : List Attribute) :
    (opening (.plain tag) as).text.toList =
      '<' :: (tag.toList ++ as.flatMap fun a => ' ' :: a.toCode.text.toList) := by
  simp [opening, Tag.plain, Tag.code, attributesCode, Code.toList_text, List.flatMap_assoc, Piece.text]

/-- The opening of a tag is read up to the mark that ends it. -/
theorem run_opening (stack : List Frame) (nodes : List Tree) {begun : List Char}
    (ht : component.content? begun = some text) {tag : String} (htag : isName tag.toList = true)
    {as : List Attribute} (has : ∀ a ∈ as, a.IsSound) {c : Char} (hc : isNameChar c = false) :
    ∃ spaced, ∀ cs, run component ⟨stack, nodes, .content begun⟩
        ((opening (.plain tag) as).text.toList ++ c :: cs) =
      run component ⟨stack, nodes ++ text, .between ⟨tag, valuesOf as⟩ spaced⟩ (c :: cs) := by
  obtain ⟨spaced, hattributes⟩ := Reader.run_attributes stack (nodes ++ text)
    (fun a ha => Attribute.reads (has a ha)) ⟨tag, []⟩ false
  refine ⟨spaced, fun cs => ?_⟩
  -- behind the name of the tag stands the blank before an attribute, or the mark
  have hnext : ∃ e rest, (as.flatMap fun a => ' ' :: a.toCode.text.toList) ++ c :: cs = e :: rest ∧
      isNameChar e = false := by
    cases as with
    | nil => exact ⟨c, cs, rfl, hc⟩
    | cons a as => exact ⟨' ', _, rfl, rfl⟩
  obtain ⟨e, rest, hrest, he⟩ := hnext
  rw [toList_opening, List.cons_append, List.append_assoc, hrest, Reader.run_tag ht htag he, ← hrest,
    String.ofList_toList, run_trans hattributes, List.nil_append]
  simp only [String.ofList_toList]
  rfl

end Lines

/-! ## Elements -/

/-- Markup that reads as one node, at every level and behind whatever was read. -/
def ReadsAs (m : Markup) (t : Tree) : Prop :=
  ∀ level stack nodes, run component ⟨stack, nodes, .content []⟩
      (Css.onNewLines ((m.lines level).map Line.text)) = some ⟨stack, nodes ++ [t], .content []⟩

/-- Code between two tags that reads as some nodes, the last of which may be a text. -/
def ReadsWithin (c : Code) (ts : List Tree) : Prop :=
  ∃ before begun last, ts = before ++ last ∧ component.content? begun = some last ∧
    ∀ stack nodes, run component ⟨stack, nodes, .content []⟩ c.text.toList =
      some ⟨stack, nodes ++ before, .content begun⟩

/-- What the text of an element is read as. -/
def textNodes (s : String) : List Tree :=
  if s.isEmpty then [] else if needsExpression s then [.code (jsonText s)] else [.text s]

theorem readsWithin_expr {c : Code} (hc : c.IsClosed) : ReadsWithin c.braced [.code c.text] := by
  refine ⟨[.code c.text], [], [], rfl, rfl, fun stack nodes => ?_⟩
  rw [Code.toList_braced, Reader.run_expression rfl rfl hc, List.append_nil, String.ofList_toList]

theorem readsWithin_text (s : String) : ReadsWithin (textCode s) (textNodes s) := by
  unfold textCode textNodes
  split_ifs with hempty hexpr
  · exact ⟨[], [], [], rfl, rfl, fun stack nodes => by rw [List.append_nil]; rfl⟩
  · have hquoted : Code.IsClosed [.quoted s] :=
      Code.isClosed_of (List.forall_mem_singleton.2 (Reader.closed_jsonText s))
    have htext : Code.text [.quoted s] = jsonText s := by simp [Code.text, Piece.text]
    exact htext ▸ readsWithin_expr hquoted
  · -- a text that stands for itself has no marks and no line feed in it
    have hmarks : ∀ c ∈ s.toList, c ≠ '<' ∧ c ≠ '>' ∧ c ≠ '\x7b' ∧ c ≠ '\x7d' ∧ c ≠ '\n' := by
      intro c hc
      have hany := (Bool.or_eq_false_iff.1 (Bool.not_eq_true _ ▸ hexpr)).1
      have hnot := List.any_eq_false.1 hany c hc
      simp only [Bool.or_eq_true, decide_eq_true_eq, not_or] at hnot
      tauto
    have hlayout : isLayout s.toList = false := by
      rw [isLayout, Bool.and_eq_false_iff]
      exact .inr (by simpa using fun hm => (hmarks _ hm).2.2.2.2 rfl)
    have hne : s.toList ≠ [] := by simpa using hempty
    have htext : Code.text [.raw s] = s := by simp [Code.text, Piece.text]
    refine ⟨[], s.toList, [.text s], rfl, ?_, fun stack nodes => ?_⟩
    · rw [Dialect.content?, if_neg (by simp [hne, hlayout])]
      exact congrArg (fun s => some [Tree.text s]) String.ofList_toList
    · rw [htext, List.append_nil]
      exact run_text (fun c hc => by have := hmarks c hc; tauto) []

section Elements

variable {tag : String} {as : List Attribute}

theorem readsAs_empty (layout : Layout) (hl : layout = .inline ∨ ∃ n, layout = .block n)
    (htag : isName tag.toList = true) (has : ∀ a ∈ as, a.IsSound) :
    ReadsAs (element layout (.plain tag) as []) (.element tag (valuesOf as) []) := by
  intro level stack nodes
  have hlines : (element layout (.plain tag) as []).lines level =
      [⟨level, opening (.plain tag) as ++ [.raw " />"]⟩] := by
    rcases hl with rfl | ⟨n, rfl⟩ <;> simp [lines, toCode]
  obtain ⟨begun, hbegun, hindent⟩ := run_indent level
  obtain ⟨spaced, hopening⟩ := run_opening stack nodes hbegun htag has
    (show isNameChar ' ' = false from rfl)
  have htext : Css.onNewLines (((element layout (.plain tag) as []).lines level).map Line.text) =
      '\n' :: ((Script.indent level).toList ++ ((opening (.plain tag) as).text.toList ++
        ' ' :: ['/', '>'])) := by
    rw [hlines]
    simp [Css.onNewLines, Line.text, Code.toList_text, Piece.text]
  rw [htext, hindent, hopening, (Reader.run_ending _ _).2, List.append_nil]

theorem readsAs_inlined (htag : isName tag.toList = true) (has : ∀ a ∈ as, a.IsSound)
    {children : List Markup} (hne : children ≠ []) {ts : List Tree}
    (h : ReadsWithin (allCode children) ts) :
    ReadsAs (inlined tag as children) (.element tag (valuesOf as) ts) := by
  intro level stack nodes
  obtain ⟨before, begun', last, rfl, hlast, hwithin⟩ := h
  obtain ⟨begun, hbegun, hindent⟩ := run_indent level
  obtain ⟨spaced, hopening⟩ := run_opening stack nodes hbegun htag has
    (show isNameChar '>' = false from rfl)
  have htext : Css.onNewLines (((inlined tag as children).lines level).map Line.text) =
      '\n' :: ((Script.indent level).toList ++ ((opening (.plain tag) as).text.toList ++
        '>' :: ((allCode children).text.toList ++ '<' :: '/' :: (tag.toList ++ ['>'])))) := by
    have hsome : children.isEmpty = false := by simpa using hne
    simp [inlined, lines, toCode, hsome, closing, Tag.plain, Tag.code, Css.onNewLines, Line.text,
      Code.toList_text, Piece.text]
  rw [htext, hindent, hopening, Reader.run_opened, run_trans (hwithin _ _), List.nil_append,
    Reader.run_closing hlast htag, List.append_nil]

theorem readsAs_expr {c : Code} (hc : c.IsClosed) : ReadsAs (expr c) (.code c.text) := by
  intro level stack nodes
  obtain ⟨begun, hbegun, hindent⟩ := run_indent level
  have htext : Css.onNewLines (((expr c).lines level).map Line.text) =
      '\n' :: ((Script.indent level).toList ++ '\x7b' :: (c.text.toList ++ ['\x7d'])) := by
    rw [← Code.toList_braced]
    simp [lines, Css.onNewLines, Line.text]
  rw [htext, hindent, Reader.run_expression rfl hbegun hc, List.append_nil, String.ofList_toList]

/-- Markup under each other is read one piece after the other. -/
theorem run_allLines {children : List Markup} {ts : List Tree} (h : List.Forall₂ ReadsAs children ts)
    (level : Int) (stack : List Frame) (nodes : List Tree) :
    run component ⟨stack, nodes, .content []⟩
        (Css.onNewLines ((allLines level children).map Line.text)) =
      some ⟨stack, nodes ++ ts, .content []⟩ := by
  induction h generalizing nodes with
  | nil => rw [List.append_nil]; rfl
  | cons hm _ ih =>
    rw [allLines, List.map_append, Css.onNewLines_append, run_trans (hm level stack nodes), ih,
      List.append_assoc, List.singleton_append]

theorem readsAs_block (htag : isName tag.toList = true) (has : ∀ a ∈ as, a.IsSound) (step : Nat)
    {children : List Markup} {ts : List Tree} (h : List.Forall₂ ReadsAs children ts) :
    ReadsAs (element (.block step) (.plain tag) as children) (.element tag (valuesOf as) ts) := by
  by_cases hne : children = []
  · subst hne
    cases h
    exact readsAs_empty _ (.inr ⟨step, rfl⟩) htag has
  intro level stack nodes
  obtain ⟨begun, hbegun, hindent⟩ := run_indent level
  obtain ⟨spaced, hopening⟩ := run_opening stack nodes hbegun htag has
    (show isNameChar '>' = false from rfl)
  have htext : Css.onNewLines
        (((element (.block step) (.plain tag) as children).lines level).map Line.text) =
      '\n' :: ((Script.indent level).toList ++ ((opening (.plain tag) as).text.toList ++
        '>' :: (Css.onNewLines ((allLines (level + step) children).map Line.text) ++
          '\n' :: ((Script.indent level).toList ++ '<' :: '/' :: (tag.toList ++ ['>']))))) := by
    have hsome : children.isEmpty = false := by simpa using hne
    simp [lines, hsome, closing, Tag.plain, Tag.code, Css.onNewLines, Line.text, Code.toList_text,
      Piece.text]
  rw [htext, hindent, hopening, Reader.run_opened, run_trans (run_allLines h _ _ _), List.nil_append,
    hindent, Reader.run_closing hbegun htag, List.append_nil, List.append_nil]

end Elements

/-- What markup reads as that stands on lines of its own. -/
theorem read_block {m : Markup} {t : Tree} (h : m.ReadsAs t) (level : Int) :
    Reader.read component ("\n" ++ Line.block (m.lines level)) = some [t] := by
  have hlines : ("\n" ++ Line.block (m.lines level)).toList =
      Css.onNewLines ((m.lines level).map Line.text) := by
    obtain ⟨line, lines, hcons⟩ : ∃ line lines, m.lines level = line :: lines := by
      refine List.exists_cons_of_ne_nil fun hnil => ?_
      have hread := h level [] []
      rw [hnil] at hread
      cases hread
    rw [hcons, List.map_cons, ← Css.toList_lines]
    simp [Line.block]
  rw [Reader.read, hlines, h level [] [], List.nil_append]
  rfl

end Maquette.Markup
