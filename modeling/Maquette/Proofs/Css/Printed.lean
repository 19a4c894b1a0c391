/-
Style sheets as they are printed, and read back. A sheet is a list of remarks and of blocks, one for
the root and one for each theme, whose lines declare a property or are remarks. What is printed is
read as these blocks exactly if the name of each theme can stand between quotation marks and each
value is contained; so one text that is not spoils the sheet, and only such a text does.

The proof reads one line after the other, and one block after the other: a remark does not matter to
what follows it, and a value that is not contained is read as a shorter or a longer one.
-/
import Maquette.Proofs.Css.Reading

namespace Maquette.Css

/-! ## Printing -/

/-- A line of a block. -/
inductive Line where
  | declaration (property value : String)
  | remark (s : String)

namespace Line

def text : Line → String
  | declaration property value => "  " ++ property ++ ": " ++ value ++ ";"
  | remark s => "  " ++ comment s

def declarations : Line → List Declaration
  | declaration property value => [(property, value)]
  | remark _ => []

/-- The value of the line, if it has one, is contained. -/
def IsContained : Line → Prop
  | declaration _ value => Css.IsContained value
  | remark _ => True

end Line

/-- What is declared for the root, or under a theme. -/
structure Block where
  theme : Option String
  lines : List Line

namespace Block

def selector (b : Block) : Selector := b.theme.elim .root .theme

def heading (b : Block) : String :=
  b.theme.elim ":root" fun name => "[data-theme=\"" ++ name ++ "\"]"

/-- The lines of a block, an empty one before it. -/
def text (b : Block) : List String :=
  ["", b.heading ++ " \x7b"] ++ b.lines.map Line.text ++ ["\x7d"]

/-- What a block is meant to be read as. -/
def rule (b : Block) : Rule := ⟨b.selector, b.lines.flatMap Line.declarations⟩

/-- The texts in a block are such that it is read as it is meant. -/
def IsContained (b : Block) : Prop :=
  (∀ name ∈ b.theme, IsQuotable name) ∧ ∀ line ∈ b.lines, line.IsContained

end Block

/-- A style sheet: remarks, then blocks. -/
def printed (remarks : List String) (blocks : List Block) : String :=
  Text.lines (remarks.map comment ++ blocks.flatMap Block.text) ++ "\n"

/-- A character of the property names that are printed. -/
def isPropertyChar (c : Char) : Bool := isSegmentChar c || c == '-'

def IsProperty (s : String) : Prop := s ≠ "" ∧ ∀ c ∈ s.toList, isPropertyChar c = true

/-- The line declares a property by its name, if it declares one. -/
def Line.HasProperty : Line → Prop
  | declaration property _ => IsProperty property
  | remark _ => True

/-! ## Characters without a meaning -/

/-- A character that means something to a reader of code. -/
def isMark (c : Char) : Bool := ['\x7b', '\x7d', ';', '"', '\'', '\\', '/'].contains c

theorem isMark_of_property {c : Char} (h : isPropertyChar c = true) :
    isMark c = false ∧ isSpace c = false ∧ c ≠ ':' := by
  refine ⟨?_, ?_, ?_⟩
  · rw [Bool.eq_false_iff]
    intro hc
    simp only [isMark, List.contains_eq_mem, decide_eq_true_eq, List.mem_cons, List.not_mem_nil,
      or_false] at hc
    rcases hc with rfl | rfl | rfl | rfl | rfl | rfl | rfl <;> exact absurd h (by decide)
  · rw [Bool.eq_false_iff]
    intro hc
    simp only [isSpace, isLineBreak, Bool.or_eq_true, beq_iff_eq] at hc
    rcases hc with (rfl | rfl) | (rfl | rfl) | rfl <;> exact absurd h (by decide)
  · rintro rfl
    exact absurd h (by decide)

theorem unmarked_of_all {text : List Char} (h : text.all (!isMark ·) = true) :
    ∀ c ∈ text, isMark c = false := by
  simpa using h

section Unmarked

variable {text : List Char} (h : ∀ c ∈ text, isMark c = false)
include h

/-- In code, a text without marks leaves the reader where it stands. -/
theorem item_unmarked (depth : Nat) : item.walk (.code, depth) text = some (.code, depth) := by
  induction text with
  | nil => rfl
  | cons c text ih =>
    obtain ⟨hc, htext⟩ := List.forall_mem_cons.1 h
    simp only [isMark, List.contains_eq_mem, decide_eq_false_iff_not, List.mem_cons,
      List.not_mem_nil, or_false, not_or] at hc
    refine Scan.walk_cons.2 ⟨by simp [item, hc], ?_⟩
    have hnext : item.next (.code, depth) c = (.code, depth) := by
      simp [item, Within.next, Within.behind, Within.isCode, hc]
    rw [hnext]
    exact ih htext

theorem isContained_of_unmarked {s : String} (hs : s.toList = text) : IsContained s :=
  ⟨.code, by rw [hs, item_unmarked h], rfl⟩

end Unmarked

/-- A text in quotation marks is read as code reads it. -/
theorem heading_quotation {text : List Char} {escape : Bool}
    (h : quotation.walk false text = some escape) :
    heading.walk (.quoted '"' false) text = some (.quoted '"' escape) := by
  refine Scan.walk_map (f := Within.quoted '"') ?_ h
  intro escape c hstop
  refine ⟨rfl, ?_⟩
  cases escape with
  | true => rfl
  | false =>
    -- within one line the only way out is the quotation mark
    have hc : ¬ (c = '"' ∨ isLineBreak c = true) := by simpa [quotation] using hstop
    show Within.next (.quoted '"' false) c = _
    rw [Within.next, if_neg hc]
    rfl

/-! ## Declarations -/

/-- What stands in a line in front of the value. -/
def Line.start (property : String) : List Char := ' ' :: ' ' :: property.toList ++ [':', ' ']

theorem item_start {property : String} (h : IsProperty property) :
    item.walk (.code, 0) (Line.start property) = some (.code, 0) := by
  refine item_unmarked ?_ 0
  have hproperty : ∀ c ∈ property.toList, isMark c = false := fun c hc =>
    (isMark_of_property (h.2 c hc)).1
  simp only [Line.start, List.cons_append, List.forall_mem_cons, List.forall_mem_append]
  refine ⟨by decide, by decide, hproperty, by decide, by decide, by simp⟩

/-- Whatever follows its start, a line declares its property as that. -/
theorem declarationsOf_start {property : String} (h : IsProperty property) (value : List Char) :
    declarationsOf (Line.start property ++ value) = [(property, String.ofList value)] := by
  obtain ⟨c, rest, hproperty⟩ : ∃ c rest, property.toList = c :: rest := by
    cases hp : property.toList with
    | nil => exact absurd (String.toList_eq_nil_iff.1 hp) h.1
    | cons c rest => exact ⟨c, rest, rfl⟩
  obtain ⟨hmark, hspace, -⟩ := isMark_of_property (h.2 c (by rw [hproperty]; exact List.mem_cons_self))
  have hslash : c ≠ '/' := by
    rintro rfl; exact absurd hmark (by decide)
  have hlead : lead .code (Line.start property ++ value) = property.toList ++ ':' :: ' ' :: value := by
    have hblank : isSpace ' ' = true := by decide
    simp [Line.start, lead, hblank, hproperty, hspace, hslash]
  have hcolon : ':' ∉ property.toList := fun hmem => (isMark_of_property (h.2 _ hmem)).2.2 rfl
  rw [declarationsOf, hlead, Text.cut?_append hcolon]
  simp

/-! ## Lines -/

/-- Lines, each on a new one. -/
def onNewLines (lines : List String) : List Char := lines.flatMap fun line => '\n' :: line.toList

theorem onNewLines_append (a b : List String) : onNewLines (a ++ b) = onNewLines a ++ onNewLines b :=
  List.flatMap_append

theorem onNewLines_cons (line : String) (lines : List String) :
    onNewLines (line :: lines) = '\n' :: line.toList ++ onNewLines lines := rfl

theorem toList_lines (line : String) (lines : List String) :
    '\n' :: (Text.lines (line :: lines)).toList = onNewLines (line :: lines) := by
  induction lines generalizing line with
  | nil => simp [Text.lines, onNewLines]
  | cons next lines ih =>
    have hcons : Text.lines (line :: next :: lines) = line ++ "\n" ++ Text.lines (next :: lines) :=
      String.intercalate_cons_cons
    rw [hcons, onNewLines_cons, ← ih]
    simp

theorem leads_break : Leads ['\n'] := leads_space (by decide)

/-- A remark in a block does not matter to what follows. -/
theorem blockFrom_remark (s : String) (rest : List Char) :
    blockFrom (.code, 0) [] ('\n' :: (Line.remark s).text.toList ++ rest) =
      blockFrom (.code, 0) [] rest := by
  have hspace : Leads [' '] := leads_space (by decide)
  have hleads : Leads (['\n'] ++ [' '] ++ [' '] ++ (comment s).toList) :=
    ((leads_break.append hspace).append hspace).append (leads_comment s)
  have hwalk : item.walk (.code, 0) (['\n'] ++ [' '] ++ [' '] ++ (comment s).toList) =
      some (.code, 0) :=
    Scan.walk_append rfl (item_comment s 0)
  have hline : '\n' :: (Line.remark s).text.toList =
      ['\n'] ++ [' '] ++ [' '] ++ (comment s).toList := by
    simp [Line.text]
  rw [hline, blockFrom_walk hwalk, List.nil_append, ← List.append_nil (_ ++ _), blockFrom_lead hleads]

/-- A declaration is read up to the end of what is taken for its value; if its value is contained,
that is the semicolon of the line. -/
theorem blockFrom_declaration {property : String} (hp : IsProperty property) (value : String)
    (rest : List Char) :
    let block := blockFrom (.code, 0) [] ('\n' :: (Line.declaration property value).text.toList ++ rest)
    (∃ others, block.1 =
      (property, String.ofList (item.taken (.code, 0) (value.toList ++ ';' :: rest))) :: others) ∧
    (IsContained value → block =
      ((property, value) :: (blockFrom (.code, 0) [] rest).1, (blockFrom (.code, 0) [] rest).2)) := by
  have hline : '\n' :: (Line.declaration property value).text.toList ++ rest =
      ['\n'] ++ (Line.start property ++ (value.toList ++ ';' :: rest)) := by
    simp [Line.text, Line.start]
  have hbreak : item.walk (.code, 0) ['\n'] = some (.code, 0) := rfl
  have hstart : blockFrom (.code, 0) [] ('\n' :: (Line.declaration property value).text.toList ++ rest) =
      blockFrom (.code, 0) (Line.start property) (value.toList ++ ';' :: rest) := by
    rw [hline, blockFrom_walk hbreak, List.nil_append, ← List.append_nil ['\n'],
      blockFrom_lead leads_break, blockFrom_walk (item_start hp), List.nil_append]
  simp only [hstart]
  constructor
  · obtain ⟨others, h⟩ := blockFrom_first (.code, 0) (Line.start property) (value.toList ++ ';' :: rest)
    exact ⟨others, by rw [h, declarationsOf_start hp]; rfl⟩
  · rintro ⟨w, hwalk, hw⟩
    have hstop : item.stop (w, 0) ';' = true := by simp [item, hw]
    rw [blockFrom_walk hwalk, blockFrom, if_pos hstop, if_pos rfl, declarationsOf_start hp,
      String.ofList_toList]
    rfl

/-- The lines of a block are read as they are meant exactly if they are contained, and then what
follows the block is read as if nothing stood before it. -/
theorem blockFrom_lines {lines : List Line} (hp : ∀ line ∈ lines, line.HasProperty)
    (rest : List Char) :
    let block := blockFrom (.code, 0) [] (onNewLines (lines.map Line.text) ++ '\n' :: '\x7d' :: rest)
    (block.1 = lines.flatMap Line.declarations ↔ ∀ line ∈ lines, line.IsContained) ∧
      ((∀ line ∈ lines, line.IsContained) → block.2 = rulesFrom .code [] rest) := by
  induction lines with
  | nil =>
    have hend : blockFrom (.code, 0) [] ('\n' :: '\x7d' :: rest) =
        (declarationsOf ['\n'], rulesFrom .code [] rest) := rfl
    have hnothing : declarationsOf ['\n'] = [] := by decide
    simp [onNewLines, hend, hnothing]
  | cons line lines ih =>
    obtain ⟨hline, hlines⟩ := List.forall_mem_cons.1 hp
    obtain ⟨hread, hrest⟩ := ih hlines
    rw [List.map_cons, onNewLines_cons, List.append_assoc]
    generalize onNewLines (lines.map Line.text) ++ '\n' :: '\x7d' :: rest = others at hread hrest ⊢
    cases line with
    | remark s =>
      rw [blockFrom_remark]
      simpa [Line.declarations, Line.IsContained] using And.intro hread hrest
    | declaration property value =>
      obtain ⟨⟨declared, hfirst⟩, hwhole⟩ := blockFrom_declaration hline value others
      simp only [List.flatMap_cons, Line.declarations, List.forall_mem_cons, Line.IsContained]
      constructor
      · constructor
        · -- the value that is read is the one that was printed only if it is contained
          intro h
          rw [hfirst] at h
          obtain ⟨hhead, htail⟩ := List.cons.inj h
          have htaken : item.taken (.code, 0) (value.toList ++ ';' :: others) = value.toList :=
            (String.toList_ofList (l := item.taken _ _)).symm.trans
              (congrArg String.toList (Prod.mk.inj hhead).2)
          have hvalue : Css.IsContained value := isContained_iff.1 htaken
          rw [hwhole hvalue] at hfirst
          exact ⟨hvalue, hread.1 ((List.cons.inj hfirst).2.trans htail)⟩
        · rintro ⟨hvalue, hothers⟩
          rw [hwhole hvalue, hread.2 hothers]
          rfl
      · rintro ⟨hvalue, hothers⟩
        rw [hwhole hvalue]
        exact hrest hothers

/-! ## Headings -/

/-- A theme's heading as it stands in the text. -/
theorem toList_heading (name : String) :
    (("[data-theme=\"" ++ name ++ "\"]") ++ " ").toList =
      themeStart ++ (name.toList ++ ['"', ']']) ++ [' '] := by
  rw [String.toList_append, String.toList_append, String.toList_append, List.append_assoc themeStart,
    List.append_assoc name.toList, List.append_assoc, List.append_assoc]
  rfl

theorem heading_walk {b : Block} (h : ∀ name ∈ b.theme, IsQuotable name) :
    heading.walk .code (b.heading ++ " ").toList = some .code := by
  obtain ⟨theme, lines⟩ := b
  cases theme with
  | none => exact (by decide : heading.walk .code (":root" ++ " ").toList = some .code)
  | some name =>
    have hname : quotation.walk false name.toList = some false := h name rfl
    have hstart : heading.walk .code themeStart = some (.quoted '"' false) := by decide
    have hend : heading.walk (.quoted '"' false) ['"', ']'] = some .code := by decide
    have hspace : heading.walk .code [' '] = some .code := by decide
    show heading.walk .code (("[data-theme=\"" ++ name ++ "\"]") ++ " ").toList = _
    rw [toList_heading]
    exact Scan.walk_append
      (Scan.walk_append hstart (Scan.walk_append (heading_quotation hname) hend)) hspace

theorem selectorOf_heading {b : Block} (h : ∀ name ∈ b.theme, IsQuotable name) :
    selectorOf (b.heading ++ " ").toList = b.selector := by
  obtain ⟨theme, lines⟩ := b
  cases theme with
  | none => exact (by decide : selectorOf (":root" ++ " ").toList = .root)
  | some name =>
    have hname : quotation.walk false name.toList = some false := h name rfl
    have htaken : quotation.taken false (name.toList ++ ['"', ']']) = name.toList :=
      Scan.taken_eq_iff.2 ⟨false, hname, rfl⟩
    have hlead : ∀ rest, lead .code (themeStart ++ rest) = themeStart ++ rest := fun _ => rfl
    have hend : Text.dropEnd isSpace (themeStart ++ (name.toList ++ ['"', ']']) ++ [' ']) =
        themeStart ++ (name.toList ++ ['"', ']']) := by
      simp [Text.dropEnd, isSpace, isLineBreak]
    have hdrop : Text.dropPrefix? themeStart (themeStart ++ (name.toList ++ ['"', ']'])) =
        some (name.toList ++ ['"', ']']) := Text.dropPrefix?_eq_some.2 rfl
    have hroot : ¬ themeStart ++ (name.toList ++ ['"', ']']) = ":root".toList := fun heq =>
      absurd (Option.some.inj (congrArg List.head? heq) : '[' = ':') (by decide)
    show selectorOf (("[data-theme=\"" ++ name ++ "\"]") ++ " ").toList = .theme name
    unfold selectorOf
    rw [toList_heading, List.append_assoc, hlead, ← List.append_assoc]
    simp only [hend, if_neg hroot, hdrop, htaken, if_true, String.ofList_toList]

/-! ## Blocks -/

/-- A line break in front of a rule does not matter. -/
theorem rulesFrom_break (rest : List Char) :
    rulesFrom .code [] ('\n' :: rest) = rulesFrom .code [] rest := by
  have hread : rulesFrom .code [] ('\n' :: rest) = rulesFrom .code ['\n'] rest := rfl
  rw [hread, ← List.append_nil ['\n'], rulesFrom_lead leads_break]

/-- A block that was opened by a heading that is read as it is meant. -/
theorem rulesFrom_heading {b : Block} (h : ∀ name ∈ b.theme, IsQuotable name) (rest : List Char) :
    let block := blockFrom (.code, 0) [] rest
    rulesFrom .code [] ((b.heading ++ " ").toList ++ '\x7b' :: rest) =
      ⟨b.selector, block.1⟩ :: block.2 := by
  rw [rulesFrom_walk (heading_walk h), List.nil_append, rulesFrom, selectorOf_heading h]
  rfl

/-- A heading is read as one of a theme only if the name of the theme can stand between quotation
marks. -/
theorem isQuotable_of_rule {b : Block} {cs : List Char} {others : List Rule}
    (h : rulesFrom .code [] cs = b.rule :: others) : ∀ name ∈ b.theme, IsQuotable name := by
  obtain ⟨text, htext⟩ := rulesFrom_first h
  rintro name hname
  have hselector : b.selector = .theme name := by
    rw [Block.selector, Option.mem_def.1 hname]; rfl
  exact isQuotable_of_selector (htext.symm.trans hselector)

/-- Blocks are read as they are meant exactly if their texts are contained. -/
theorem rulesFrom_blocks {blocks : List Block}
    (hp : ∀ b ∈ blocks, ∀ line ∈ b.lines, line.HasProperty) :
    rulesFrom .code [] (onNewLines (blocks.flatMap Block.text) ++ ['\n']) = blocks.map Block.rule ↔
      ∀ b ∈ blocks, b.IsContained := by
  induction blocks with
  | nil => simp [onNewLines, rulesFrom, heading]
  | cons b blocks ih =>
    obtain ⟨hb, hblocks⟩ := List.forall_mem_cons.1 hp
    have htext : onNewLines ((b :: blocks).flatMap Block.text) ++ ['\n'] =
        '\n' :: '\n' :: ((b.heading ++ " ").toList ++ '\x7b' :: (onNewLines (b.lines.map Line.text) ++
          '\n' :: '\x7d' :: (onNewLines (blocks.flatMap Block.text) ++ ['\n']))) := by
      simp [Block.text, onNewLines]
    rw [htext, rulesFrom_break, rulesFrom_break, List.forall_mem_cons, List.map_cons, ← ih hblocks]
    obtain ⟨hlines, hrest⟩ :=
      blockFrom_lines hb (onNewLines (blocks.flatMap Block.text) ++ ['\n'])
    constructor
    · intro h
      have hname := isQuotable_of_rule h
      rw [rulesFrom_heading hname] at h
      obtain ⟨hrule, hothers⟩ := List.cons.inj h
      have hcontained := hlines.1 (congrArg Rule.declarations hrule)
      exact ⟨⟨hname, hcontained⟩, by rw [← hrest hcontained]; exact hothers⟩
    · rintro ⟨⟨hname, hcontained⟩, hothers⟩
      rw [rulesFrom_heading hname, hlines.2 hcontained, hrest hcontained, hothers]
      rfl

/-- Remarks in front of the blocks do not matter. -/
theorem rulesFrom_remarks (remarks : List String) (rest : List Char) :
    rulesFrom .code [] (onNewLines (remarks.map comment) ++ rest) = rulesFrom .code [] rest := by
  induction remarks with
  | nil => rfl
  | cons s remarks ih =>
    rw [List.map_cons, onNewLines_cons, List.append_assoc, List.cons_append, rulesFrom_break,
      rulesFrom_walk (heading_comment s), List.nil_append, ← List.append_nil (comment s).toList,
      rulesFrom_lead (leads_comment s), ih]

/-- Whether a text begins on a new line does not matter. -/
theorem rulesFrom_lines (lines : List String) (rest : List Char) :
    rulesFrom .code [] ((Text.lines lines).toList ++ rest) =
      rulesFrom .code [] (onNewLines lines ++ rest) := by
  cases lines with
  | nil => rfl
  | cons line lines =>
    rw [← toList_lines, List.cons_append, rulesFrom_break]

/-- What is printed is read as its blocks exactly if their texts are contained. -/
theorem read_printed_iff (remarks : List String) {blocks : List Block}
    (hp : ∀ b ∈ blocks, ∀ line ∈ b.lines, line.HasProperty) :
    read (printed remarks blocks) = blocks.map Block.rule ↔ ∀ b ∈ blocks, b.IsContained := by
  have hend : ("\n" : String).toList = ['\n'] := rfl
  rw [read, printed, String.toList_append, rulesFrom_lines, onNewLines_append, List.append_assoc,
    rulesFrom_remarks, hend, rulesFrom_blocks hp]

end Maquette.Css
