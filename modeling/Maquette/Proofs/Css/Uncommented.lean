/-
Style sheets of rules and comments, one after the other. When the comments of a sheet are taken out,
its rules are left as they are, and a reader sees the same rules with and without the comments. A
comment is taken out as a whole if no star in it stands in front of a slash; then nothing that it says
can end it, or end the block that it stands in.
-/
import Maquette.Proofs.Css.Printed

namespace Maquette.Css

/-! ## Taking comments out -/

/-- What is left of one more character: nothing of a comment. A slash is held back until it is clear
that it begins none. -/
def Within.left : Within → Char → List Char
  | comment _, _ => []
  | slash, c => if c = '*' then [] else if c = '/' then ['/'] else ['/', c]
  | code, c => if c = '/' then [] else [c]
  | _, c => [c]

/-- What is left of a text when its comments are taken out. -/
def bare (w : Within) : List Char → List Char
  | [] => if w = .slash then ['/'] else []
  | c :: cs => w.left c ++ bare (w.next c) cs

/-- A style sheet without its comments. -/
def uncommented (s : String) : String := String.ofList (bare .code s.toList)

example : uncommented "a/**/:b /* \" */\x7b c: \"/* */\"; d: 1//* \x7d */2 \x7d" =
    "a:b \x7b c: \"/* */\"; d: 1/2 \x7d" := by decide +kernel

theorem bare_commentary {text : List Char} {star star' : Bool}
    (h : commentary.walk star text = some star') (rest : List Char) :
    bare (.comment star) (text ++ rest) = bare (.comment star') rest := by
  induction text generalizing star with
  | nil => cases h; rfl
  | cons c text ih =>
    obtain ⟨hstop, h⟩ := Scan.walk_cons.1 h
    rw [List.cons_append, bare, next_comment hstop]
    exact ih h

theorem bare_enclosed {text : List Char} (h : IsCommentary text) (rest : List Char) :
    bare .code ("/*".toList ++ text ++ "*/".toList ++ rest) = bare .code rest := by
  obtain ⟨star, h⟩ := h
  have hend : bare (.comment star) ("*/".toList ++ rest) = bare .code rest := by
    simp [bare, Within.left, Within.next]
  rw [List.append_assoc, List.append_assoc]
  exact (bare_commentary h _).trans hend

/-- A character with which code may go over to something else: to a comment or to a text in quotation
marks. -/
def isOpening (c : Char) : Bool := ['/', '\\', '"', '\''].contains c

theorem isOpening_of_unmarked {c : Char} (h : isMark c = false) : isOpening c = false := by
  simp only [isMark, List.contains_eq_mem, decide_eq_false_iff_not, List.mem_cons, List.not_mem_nil,
    or_false, not_or] at h
  simp [isOpening, h]

theorem next_code {c : Char} (h : isOpening c = false) : Within.next .code c = .code := by
  simp only [isOpening, List.contains_eq_mem, decide_eq_false_iff_not, List.mem_cons,
    List.not_mem_nil, or_false, not_or] at h
  simp [Within.next, Within.behind, h]

theorem bare_code (text : List Char) (h : ∀ c ∈ text, isOpening c = false) (rest : List Char) :
    bare .code (text ++ rest) = text ++ bare .code rest := by
  induction text with
  | nil => rfl
  | cons c text ih =>
    obtain ⟨hc, htext⟩ := List.forall_mem_cons.1 h
    have hslash : c ≠ '/' := by
      rintro rfl
      exact absurd hc (by decide)
    have hleft : Within.left .code c = [c] := if_neg hslash
    rw [List.cons_append, bare, next_code hc, hleft, ih htext]
    rfl

/-- Lines without a star in front of a slash go on in a comment, each on a new line. -/
theorem isCommentary_onNewLines {first : List Char} (hfirst : IsCommentary first) (texts : List String) :
    IsCommentary (first ++ onNewLines (texts.map Script.harmless)) := by
  have hlines : ∀ star, ∃ star', commentary.walk star (onNewLines (texts.map Script.harmless)) = some star' := by
    induction texts with
    | nil => exact fun star => ⟨star, rfl⟩
    | cons s texts ih =>
      intro star
      obtain ⟨star₁, hline⟩ := commentary_spaced s.toList false (by simp)
      obtain ⟨star₂, hrest⟩ := ih star₁
      have hbreak : commentary.stop star '\n' = false := by simp [commentary]
      refine ⟨star₂, ?_⟩
      rw [List.map_cons, onNewLines_cons, List.cons_append, Script.harmless, String.toList_ofList]
      exact Scan.walk_cons.2 ⟨hbreak, Scan.walk_append hline hrest⟩
  obtain ⟨star, hstar⟩ := hfirst
  obtain ⟨star', hrest⟩ := hlines star
  exact ⟨star', Scan.walk_append hstar hrest⟩

/-! ## Parts of a sheet -/

/-- What a part of a sheet is: what is left of it without comments, and its rules, wherever it stands
between other parts. -/
structure Reads (text left : String) (rules : List Rule) : Prop where
  left : ∀ rest, bare .code (text.toList ++ rest) = left.toList ++ bare .code rest
  rules : ∀ rest, rulesFrom .code [] (text.toList ++ rest) = rules ++ rulesFrom .code [] rest

namespace Reads

variable {text text' left left' : String} {rules rules' : List Rule}

theorem append (h : Reads text left rules) (h' : Reads text' left' rules') :
    Reads (text ++ text') (left ++ left') (rules ++ rules') where
  left rest := by
    rw [String.toList_append, String.toList_append, List.append_assoc, h.left, h'.left,
      List.append_assoc]
  rules rest := by
    rw [String.toList_append, List.append_assoc, h.rules, h'.rules, List.append_assoc]

/-- A comment leaves nothing and is no rule. -/
theorem enclosed {body : List Char} (h : IsCommentary body)
    (htext : text.toList = "/*".toList ++ body ++ "*/".toList) : Reads text "" [] where
  left rest := by
    rw [htext]
    exact bare_enclosed h rest
  rules rest := by
    rw [htext, rulesFrom_walk (heading_enclosed h), List.nil_append, ← List.append_nil (_ ++ _),
      rulesFrom_lead (leads_enclosed h)]
    rfl

theorem comment (s : String) : Reads (comment s) "" [] :=
  enclosed (isCommentary_spaced s.toList) (comment_toList s)

/-- A line break is left and is no rule. -/
theorem lineBreak : Reads "\n" "\n" [] where
  left rest := bare_code ['\n'] (by simp [isOpening]) rest
  rules rest := rulesFrom_break rest

/-- A sheet is all of its parts. -/
theorem read_eq (h : Reads text left rules) : uncommented text = left ∧ read text = rules := by
  constructor
  · have hleft := h.left []
    rw [List.append_nil] at hleft
    rw [uncommented, hleft]
    simp [bare]
  · have hrules := h.rules []
    rw [List.append_nil] at hrules
    rw [read, hrules]
    simp [rulesFrom]

end Reads

/-- Parts of a sheet one after the other: what is left of each, and all rules. -/
inductive ReadEach : List String → List String → List Rule → Prop
  | nil : ReadEach [] [] []
  | cons {text left : String} {rules rules' : List Rule} {texts lefts : List String}
      (first : Reads text left rules) (others : ReadEach texts lefts rules') :
      ReadEach (text :: texts) (left :: lefts) (rules ++ rules')

namespace ReadEach

variable {texts texts' lefts lefts' : List String} {rules rules' : List Rule}

theorem single {text left : String} (h : Reads text left rules) : ReadEach [text] [left] rules := by
  simpa using cons h nil

theorem append (h : ReadEach texts lefts rules) (h' : ReadEach texts' lefts' rules') :
    ReadEach (texts ++ texts') (lefts ++ lefts') (rules ++ rules') := by
  induction h with
  | nil => exact h'
  | cons first _ ih =>
    rw [List.append_assoc]
    exact .cons first ih

theorem map {α : Type} {text left : α → String} {rule : α → Rule} {xs : List α}
    (h : ∀ x ∈ xs, Reads (text x) (left x) [rule x]) :
    ReadEach (xs.map text) (xs.map left) (xs.map rule) := by
  induction xs with
  | nil => exact .nil
  | cons x xs ih =>
    obtain ⟨hx, hxs⟩ := List.forall_mem_cons.1 h
    exact .cons hx (ih hxs)

/-- Parts that are joined by something that is no rule. -/
theorem intercalate {sep : String} (hsep : Reads sep sep []) (h : ReadEach texts lefts rules)
    (hne : texts ≠ []) : Reads (sep.intercalate texts) (sep.intercalate lefts) rules := by
  induction h with
  | nil => exact absurd rfl hne
  | @cons text left rules rules' texts lefts first others ih =>
    cases others with
    | nil => simpa using first
    | cons next others =>
      rw [String.intercalate_cons_cons, String.intercalate_cons_cons]
      simpa using (first.append hsep).append (ih (List.cons_ne_nil _ _))

end ReadEach

/-! ## Selectors -/

theorem heading_unmarked {text : List Char} (h : ∀ c ∈ text, isMark c = false) :
    heading.walk .code text = some .code := by
  induction text with
  | nil => rfl
  | cons c text ih =>
    obtain ⟨hc, htext⟩ := List.forall_mem_cons.1 h
    have hopening := isOpening_of_unmarked hc
    have hbrace : c ≠ '\x7b' := by
      rintro rfl
      cases hc
    refine Scan.walk_cons.2 ⟨by simp [heading, hbrace], ?_⟩
    have hnext : heading.next .code c = .code := next_code hopening
    rw [hnext]
    exact ih htext

/-- A part of a selector that leaves a reader in code, as it is. -/
structure IsNeutral (text : List Char) : Prop where
  read : heading.walk .code text = some .code
  left : ∀ rest, bare .code (text ++ rest) = text ++ bare .code rest
  braces : '\x7b' ∉ text ∧ '\x7d' ∉ text

theorem IsNeutral.append {a b : List Char} (ha : IsNeutral a) (hb : IsNeutral b) : IsNeutral (a ++ b) where
  read := Scan.walk_append ha.read hb.read
  left rest := by rw [List.append_assoc, ha.left, hb.left, List.append_assoc]
  braces := by simp [ha.braces, hb.braces]

theorem IsNeutral.of_unmarked {text : List Char} (h : ∀ c ∈ text, isMark c = false) : IsNeutral text where
  read := heading_unmarked h
  left := bare_code _ fun c hc => isOpening_of_unmarked (h c hc)
  braces := ⟨fun hc => absurd (h _ hc) (by decide), fun hc => absurd (h _ hc) (by decide)⟩

/-- A selector that begins with a class, ends without a space, and that a reader of code takes as it is. -/
structure IsClassed (selector : String) : Prop extends IsNeutral selector.toList where
  starts : selector.toList.head? = some '.'
  ends : ∀ c ∈ selector.toList.getLast?, isSpace c = false

section Selectors

variable {selector : String}

/-- A selector of classes is read out of the text in front of a block. -/
theorem IsClassed.selectorOf (h : IsClassed selector) :
    selectorOf (selector.toList ++ [' ']) = .other selector := by
  obtain ⟨rest, hrest⟩ := List.head?_eq_some_iff.1 h.starts
  have hlead : lead .code (selector.toList ++ [' ']) = selector.toList ++ [' '] := by
    rw [hrest]
    rfl
  have hend : Text.dropEnd isSpace (selector.toList ++ [' ']) = selector.toList := by
    rw [Text.dropEnd, List.reverse_append, List.reverse_singleton, List.singleton_append,
      List.dropWhile_cons_of_pos rfl]
    cases hlast : selector.toList.reverse with
    | nil => rw [hrest] at hlast; simp at hlast
    | cons c cs =>
      have hc : isSpace c = false := h.ends c (by rw [List.getLast?_eq_head?_reverse, hlast]; rfl)
      rw [List.dropWhile_cons_of_neg (by simp [hc]), ← hlast, List.reverse_reverse]
  have hroot : selector.toList ≠ ":root".toList := by
    rw [hrest]
    simp
  have htheme : Text.dropPrefix? themeStart selector.toList = none := by
    rw [hrest]
    rfl
  unfold Css.selectorOf
  simp only [hlead, hend, if_neg hroot, htheme, String.ofList_toList]

end Selectors

/-! ## Rules -/

/-- What is left of a rule: a blank line stands where a comment was. -/
def bareBlock (selector : String) (declarations : List Declaration) (noted : Bool) : String :=
  Text.lines <|
    [selector ++ " \x7b"] ++ (if noted then ["  "] else []) ++
    declarations.map (fun (property, value) => "  " ++ property ++ ": " ++ value ++ ";") ++ ["\x7d"]

/-- What is left of a line. -/
def Line.left : Line → String
  | declaration property value => (declaration property value).text
  | remark _ => "  "

/-- The lines of a rule behind its selector. -/
def linesOf (note : Option String) (declarations : List Declaration) : List Line :=
  (note.map Line.remark).toList ++ declarations.map fun (property, value) => .declaration property value

section Rules

variable (selector : String) (declarations : List Declaration) (note : Option String)

theorem toList_linesOf (first : String) (lines : List String) :
    (Text.lines (first :: (lines ++ ["\x7d"]))).toList =
      first.toList ++ (onNewLines lines ++ ['\n', '\x7d']) := by
  have h := toList_lines first (lines ++ ["\x7d"])
  rw [onNewLines_cons, List.cons_append] at h
  rw [(List.cons.inj h).2, onNewLines_append]
  rfl

theorem block_toList : (block selector declarations note 0).toList =
    selector.toList ++ [' ', '\x7b'] ++
      (onNewLines ((linesOf note declarations).map Line.text) ++ ['\n', '\x7d']) := by
  have hindent : Script.indent 0 = "" ∧ Script.indent 1 = "  " := ⟨rfl, rfl⟩
  have hlines : block selector declarations note 0 =
      Text.lines ((selector ++ " \x7b") :: ((linesOf note declarations).map Line.text ++ ["\x7d"])) := by
    rw [block, hindent.1, hindent.2]
    cases note <;> simp [linesOf, Line.text, Function.comp_def]
  rw [hlines, toList_linesOf, String.toList_append]
  rfl

theorem bareBlock_toList : (bareBlock selector declarations note.isSome).toList =
    selector.toList ++ [' ', '\x7b'] ++
      (onNewLines ((linesOf note declarations).map Line.left) ++ ['\n', '\x7d']) := by
  have hlines : bareBlock selector declarations note.isSome =
      Text.lines ((selector ++ " \x7b") :: ((linesOf note declarations).map Line.left ++ ["\x7d"])) := by
    rw [bareBlock]
    cases note <;> simp [linesOf, Line.text, Line.left, Function.comp_def]
  rw [hlines, toList_linesOf, String.toList_append]
  rfl

end Rules

/-- A declaration that is read as it is printed: its value has no mark of code in it. -/
def Declaration.IsPlain (d : Declaration) : Prop := IsProperty d.1 ∧ ∀ c ∈ d.2.toList, isMark c = false

/-- A line whose declaration is plain, if it has one. -/
def Line.IsPlain : Line → Prop
  | declaration property value => Declaration.IsPlain (property, value)
  | remark _ => True

namespace Line.IsPlain

variable {line : Line}

theorem hasProperty (h : line.IsPlain) : line.HasProperty := by
  cases line with
  | declaration property value => exact h.1
  | remark s => trivial

theorem isContained (h : line.IsPlain) : line.IsContained := by
  cases line with
  | declaration property value => exact isContained_of_unmarked h.2 rfl
  | remark s => trivial

/-- What is left of a plain line has no mark but the semicolon of its declaration. -/
theorem left (h : line.IsPlain) : ∀ c ∈ line.left.toList, c = ';' ∨ isMark c = false := by
  intro c hc
  cases line with
  | remark s =>
    have hblank : "  ".toList.all (!isMark ·) = true := rfl
    exact .inr (unmarked_of_all hblank c hc)
  | declaration property value =>
    simp only [Line.left, Line.text, String.toList_append, List.mem_append] at hc
    rcases hc with (((hc | hc) | hc) | hc) | hc
    · exact .inr (unmarked_of_all (by rfl) c hc)
    · exact .inr (isMark_of_property (h.1.2 c hc)).1
    · exact .inr (unmarked_of_all (by rfl) c hc)
    · exact .inr (h.2 c hc)
    · exact .inl (List.mem_singleton.1 hc)

/-- A comment is taken out of its line, and a declaration is left. -/
theorem bare (h : line.IsPlain) (rest : List Char) :
    Css.bare .code ('\n' :: (line.text.toList ++ rest)) =
      '\n' :: (line.left.toList ++ Css.bare .code rest) := by
  cases line with
  | declaration property value =>
    refine bare_code ('\n' :: (declaration property value).text.toList) ?_ rest
    refine List.forall_mem_cons.2 ⟨rfl, fun c hc => ?_⟩
    rcases left h c hc with rfl | hc
    · rfl
    · exact isOpening_of_unmarked hc
  | remark s =>
    have hblank : ∀ rest, Css.bare .code ('\n' :: ' ' :: ' ' :: rest) =
        '\n' :: ' ' :: ' ' :: Css.bare .code rest :=
      bare_code ['\n', ' ', ' '] (by simp [isOpening])
    have htext : (remark s).text.toList = ' ' :: ' ' :: (comment s).toList := by simp [Line.text]
    have hcomment : Css.bare .code ((comment s).toList ++ rest) = Css.bare .code rest :=
      (Reads.comment s).left rest
    have hleft : (remark s).left.toList = [' ', ' '] := by simp [Line.left]
    rw [htext, List.cons_append, List.cons_append, hblank, hcomment, hleft]
    rfl

end Line.IsPlain

theorem bare_lines {lines : List Line} (h : ∀ line ∈ lines, line.IsPlain) (rest : List Char) :
    bare .code (onNewLines (lines.map Line.text) ++ rest) =
      onNewLines (lines.map Line.left) ++ bare .code rest := by
  induction lines with
  | nil => rfl
  | cons line lines ih =>
    obtain ⟨hline, hlines⟩ := List.forall_mem_cons.1 h
    simp only [List.map_cons, onNewLines_cons, List.cons_append, List.append_assoc]
    rw [hline.bare, ih hlines]

section Plain

variable {selector : String} {declarations : List Declaration}

theorem linesOf_plain (h : ∀ d ∈ declarations, Declaration.IsPlain d) (note : Option String) :
    ∀ line ∈ linesOf note declarations, line.IsPlain := by
  refine List.forall_mem_append.2 ⟨fun line hline => ?_, List.forall_mem_map.2 h⟩
  obtain ⟨s, -, rfl⟩ := Option.map_eq_some_iff.1 (Option.mem_toList.1 hline)
  trivial

/-- A rule of plain declarations is read as it is printed, and only its comment is taken out of it. -/
theorem reads_block (hs : IsClassed selector) (h : ∀ d ∈ declarations, Declaration.IsPlain d)
    (note : Option String) : Reads (block selector declarations note 0)
      (bareBlock selector declarations note.isSome) [⟨.other selector, declarations⟩] where
  left rest := by
    have hopen : ∀ rest, bare .code ([' ', '\x7b'] ++ rest) = [' ', '\x7b'] ++ bare .code rest :=
      bare_code _ (by simp [isOpening])
    have hclose : ∀ rest, bare .code (['\n', '\x7d'] ++ rest) = ['\n', '\x7d'] ++ bare .code rest :=
      bare_code _ (by simp [isOpening])
    simp only [block_toList, bareBlock_toList, List.append_assoc, hs.left]
    rw [hopen, bare_lines (linesOf_plain h note), hclose]
  rules rest := by
    have hlines := linesOf_plain h note
    have hdeclared : (linesOf note declarations).flatMap Line.declarations = declarations := by
      cases note <;> simp [linesOf, Line.declarations, List.flatMap_map]
    obtain ⟨hread, hrest⟩ := blockFrom_lines (fun line hline => (hlines line hline).hasProperty) rest
    have hcontained := fun line hline => (hlines line hline).isContained
    have hblock : (block selector declarations note 0).toList ++ rest =
        (selector.toList ++ [' ']) ++ '\x7b' ::
          (onNewLines ((linesOf note declarations).map Line.text) ++ '\n' :: '\x7d' :: rest) := by
      simp [block_toList]
    have hblank : heading.walk .code [' '] = some .code := rfl
    have hstop : heading.stop .code '\x7b' = true := rfl
    rw [hblock, rulesFrom_walk (Scan.walk_append hs.read hblank), List.nil_append, rulesFrom,
      if_pos hstop, hs.selectorOf]
    dsimp only
    rw [hread.2 hcontained, hrest hcontained, hdeclared]
    rfl

/-- What is left of a rule has one brace that opens it and one that closes it. -/
theorem braces_bareBlock (hs : IsClassed selector) (h : ∀ d ∈ declarations, Declaration.IsPlain d) (noted : Bool) :
    (bareBlock selector declarations noted).toList.count '\x7b' = 1 ∧
      (bareBlock selector declarations noted).toList.count '\x7d' = 1 := by
  obtain ⟨note, rfl⟩ : ∃ note : Option String, noted = note.isSome := by
    cases noted with
    | false => exact ⟨none, rfl⟩
    | true => exact ⟨some "", rfl⟩
  have hlines : ∀ c ∈ onNewLines ((linesOf note declarations).map Line.left), c ≠ '\x7b' ∧ c ≠ '\x7d' := by
    intro c hc
    simp only [onNewLines, List.flatMap_map, List.mem_flatMap, List.mem_cons] at hc
    obtain ⟨line, hline, rfl | hc⟩ := hc
    · decide
    · rcases (linesOf_plain h note line hline).left c hc with rfl | hc
      · decide
      · constructor <;> rintro rfl <;> cases hc
  have hopen := List.count_eq_zero.2 fun hc => (hlines _ hc).1 rfl
  have hclose := List.count_eq_zero.2 fun hc => (hlines _ hc).2 rfl
  rw [bareBlock_toList]
  simp only [List.count_append, List.count_eq_zero.2 hs.braces.1, List.count_eq_zero.2 hs.braces.2,
    hopen, hclose]
  decide

end Plain

end Maquette.Css
