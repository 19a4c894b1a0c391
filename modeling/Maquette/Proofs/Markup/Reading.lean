/-
Markup as it is read, one character after the other: elements with their attributes, texts, and code in
braces. A reader keeps the elements that are open, and every closing tag has to name the innermost one.
Code is read up to the brace that closes it, past the texts and brackets in it. The markup of a
component has code in it and texts as they are written; vector markup has texts with entities.
-/
import Maquette.Proofs.Script.Literal

namespace Maquette.Reader

/-! ## Code -/

/-- What a character of code stands in: brackets that are open, the innermost first, each by the one
that closes it; or a text between quotation marks within them, right behind a backslash or not. -/
inductive Within where
  | code (brackets : List Char)
  | quoted (mark : Char) (escape : Bool) (brackets : List Char)
  deriving DecidableEq, Repr

/-- Behind one more character of code. Brackets close in the order in which they were opened, and a text
ends on its line. Comments and templates are not read. -/
def Within.step : Within → Char → Option Within
  | code brackets, c =>
    if c = '"' ∨ c = '\'' then some (quoted c false brackets)
    else if c = '\x7b' then some (code ('\x7d' :: brackets))
    else if c = '(' then some (code (')' :: brackets))
    else if c = '[' then some (code (']' :: brackets))
    else if c = '\x7d' ∨ c = ')' ∨ c = ']' then
      if brackets.head? = some c then some (code brackets.tail) else none
    else if c = '/' ∨ c = '\x60' then none
    else some (code brackets)
  | quoted mark true brackets, _ => some (quoted mark false brackets)
  | quoted mark false brackets, c =>
    if c = mark then some (code brackets)
    else if c = '\\' then some (quoted mark true brackets)
    else if c = '\n' ∨ c = '\r' then none
    else some (quoted mark false brackets)

/-! ## Trees -/

/-- The value of an attribute. -/
inductive Value where
  | absent
  | text (s : String)
  | code (s : String)
  deriving DecidableEq, Repr

/-- What is read: texts and code as they are meant, and elements with what stands in them. -/
inductive Tree where
  | text (s : String)
  | code (s : String)
  | element (tag : String) (attributes : List (String × Value)) (children : List Tree)
  deriving Repr

def Tree.isElement : Tree → Bool
  | element .. => true
  | _ => false

/-- A kind of markup: whether it has code in braces, and what its texts mean. -/
structure Dialect where
  hasCode : Bool
  meaning? : String → Option String

/-- The markup of a component. -/
def component : Dialect := ⟨true, some⟩

/-- Vector markup. -/
def vector : Dialect := ⟨false, Script.resolve?⟩

theorem meaning_vector (s : String) : vector.meaning? s = Script.resolve? s := rfl

/-! ## States -/

/-- A tag that was begun. -/
structure Opening where
  tag : String
  attributes : List (String × Value)

def Opening.add (o : Opening) (name : List Char) (v : Value) : Opening :=
  { o with attributes := o.attributes ++ [(String.ofList name, v)] }

/-- An element that is open, and what was read before it. -/
structure Frame where
  opening : Opening
  before : List Tree

/-- Where the next character stands. -/
inductive Place where
  /-- In a text, which may be empty so far. -/
  | content (begun : List Char)
  | code (w : Within) (begun : List Char)
  /-- Behind the bracket that begins a tag. -/
  | bracket
  | tag (name : List Char)
  | closing (name : List Char)
  /-- In a tag, behind its name or a value; with a blank before an attribute can begin. -/
  | between (o : Opening) (spaced : Bool)
  | attribute (o : Opening) (name : List Char)
  | value (o : Opening) (name : List Char)
  | quoted (o : Opening) (name begun : List Char)
  | coded (o : Opening) (name : List Char) (w : Within) (begun : List Char)
  /-- Behind the slash of a tag that closes itself. -/
  | ending (o : Opening)

/-- The elements that are open, what was read within the innermost one, and the place of the next
character. -/
structure State where
  stack : List Frame
  nodes : List Tree
  place : Place

/-! ## Steps -/

def isBlank (c : Char) : Bool := c == ' ' || c == '\n' || c == '\t' || c == '\r'

def isNameChar (c : Char) : Bool := c.isAlphanum || c == '-' || c == '_' || c == ':' || c == '.'

/-- Blanks over the end of a line, which only lay out code. -/
def isLayout (begun : List Char) : Bool := begun.all isBlank && begun.contains '\n'

/-- The text between two tags, if there is any. -/
def Dialect.content? (d : Dialect) (begun : List Char) : Option (List Tree) :=
  if begun = [] ∨ d.hasCode = true ∧ isLayout begun = true then some []
  else (d.meaning? (String.ofList begun)).map fun s => [.text s]

section Step

variable (d : Dialect) (s : State) (c : Char)

/-- On in a tag, behind its name or an attribute. -/
def onward (o : Opening) (spaced : Bool) : Option State :=
  if isBlank c then some { s with place := .between o true }
  else if c = '/' then some { s with place := .ending o }
  else if c = '>' then some ⟨⟨o, s.nodes⟩ :: s.stack, [], .content []⟩
  else if spaced && c.isAlpha then some { s with place := .attribute o [c] }
  else none

/-- The end of an element that was opened with the same name. -/
def close (name : String) : Option State :=
  match s.stack with
  | [] => none
  | frame :: stack =>
    if name = frame.opening.tag then
      some ⟨stack, frame.before ++ [.element name frame.opening.attributes s.nodes], .content []⟩
    else none

/-- Behind one more character. -/
def step : Option State :=
  match s.place with
  | .content begun =>
    if c = '<' then (d.content? begun).map fun text => ⟨s.stack, s.nodes ++ text, .bracket⟩
    else if d.hasCode ∧ c = '\x7b' then
      (d.content? begun).map fun text => ⟨s.stack, s.nodes ++ text, .code (.code []) []⟩
    else if c = '>' ∨ d.hasCode ∧ c = '\x7d' then none
    else some { s with place := .content (begun ++ [c]) }
  | .code w begun =>
    if w = .code [] ∧ c = '\x7d' then
      some ⟨s.stack, s.nodes ++ [.code (String.ofList begun)], .content []⟩
    else (w.step c).map fun w => { s with place := .code w (begun ++ [c]) }
  | .bracket =>
    if c = '/' then some { s with place := .closing [] }
    else if c.isAlpha then some { s with place := .tag [c] }
    else none
  | .tag name =>
    if isNameChar c then some { s with place := .tag (name ++ [c]) }
    else onward s c ⟨String.ofList name, []⟩ false
  | .closing name =>
    if isNameChar c then some { s with place := .closing (name ++ [c]) }
    else if c = '>' then close s (String.ofList name)
    else none
  | .between o spaced => onward s c o spaced
  | .attribute o name =>
    if isNameChar c then some { s with place := .attribute o (name ++ [c]) }
    else if c = '=' then some { s with place := .value o name }
    else onward s c (o.add name .absent) false
  | .value o name =>
    if c = '"' then some { s with place := .quoted o name [] }
    else if d.hasCode ∧ c = '\x7b' then some { s with place := .coded o name (.code []) [] }
    else none
  | .quoted o name begun =>
    if c = '"' then (d.meaning? (String.ofList begun)).map fun v =>
      { s with place := .between (o.add name (.text v)) false }
    else some { s with place := .quoted o name (begun ++ [c]) }
  | .coded o name w begun =>
    if w = .code [] ∧ c = '\x7d' then
      some { s with place := .between (o.add name (.code (String.ofList begun))) false }
    else (w.step c).map fun w => { s with place := .coded o name w (begun ++ [c]) }
  | .ending o =>
    if c = '>' then
      some ⟨s.stack, s.nodes ++ [.element o.tag o.attributes []], .content []⟩
    else none

end Step

/-! ## Reading -/

def run (d : Dialect) (s : State) (cs : List Char) : Option State := cs.foldlM (step d) s

/-- What a text reads as; none if a tag or code is left open, or an element is closed that is not. -/
def read (d : Dialect) (s : String) : Option (List Tree) :=
  match run d ⟨[], [], .content []⟩ s.toList with
  | some ⟨[], nodes, .content begun⟩ => (d.content? begun).map (nodes ++ ·)
  | _ => none

example : read component "<a b=\"c\" d=\x7b'\x7d'\x7d>\n  <e />\n  \x7bf\x7d\n</a>" =
    some [.element "a" [("b", .text "c"), ("d", .code "'\x7d'")] [.element "e" [] [], .code "f"]] := by
  rfl

example : read vector "<a b=\"&lt;\">&amp;</a>" =
    some [.element "a" [("b", .text "<")] [.text "&"]] := by
  rfl

section Run

variable {d : Dialect} {s t : State} {stack : List Frame} {nodes text : List Tree} {a b cs : List Char}

theorem run_append (d : Dialect) (s : State) (a b : List Char) :
    run d s (a ++ b) = (run d s a).bind fun s => run d s b := by
  rw [run, List.foldlM_append]; rfl

theorem run_cons (d : Dialect) (s : State) (c : Char) (cs : List Char) :
    run d s (c :: cs) = (step d s c).bind fun s => run d s cs := by
  rw [run, List.foldlM_cons]; rfl

/-- Reading goes on from where it came to. -/
theorem run_trans (h : run d s a = some t) : run d s (a ++ b) = run d t b := by
  rw [run_append, h, Option.bind_some]

theorem run_step {c : Char} (h : step d s c = some t) : run d s (c :: cs) = run d t cs := by
  rw [run_cons, h, Option.bind_some]

/-! ## Closed code -/

/-- Code in which every text and bracket that is opened is closed, and nothing else. -/
def Closed (cs : List Char) : Prop :=
  ∀ brackets, cs.foldlM Within.step (.code brackets) = some (.code brackets)

theorem Closed.nil : Closed [] := fun _ => rfl

theorem Closed.append (ha : Closed a) (hb : Closed b) : Closed (a ++ b) := by
  intro brackets
  rw [List.foldlM_append, ha, Option.bind_eq_bind, Option.bind_some, hb]

/-- A character that neither opens nor closes anything. -/
def isPlain (c : Char) : Bool :=
  !(c == '"' || c == '\'' || c == '\x7b' || c == '\x7d' || c == '(' || c == ')' || c == '[' || c == ']' ||
    c == '/' || c == '\x60')

theorem closed_plain (h : ∀ c ∈ cs, isPlain c = true) : Closed cs := by
  intro brackets
  induction cs with
  | nil => rfl
  | cons c cs ih =>
    obtain ⟨hc, hcs⟩ := List.forall_mem_cons.1 h
    have hstep : Within.step (.code brackets) c = some (.code brackets) := by
      simp_all [isPlain, Within.step]
    rw [List.foldlM_cons, hstep, Option.bind_eq_bind, Option.bind_some, ih hcs]

/-- A text between quotation marks each of whose characters stays between them. -/
theorem closed_quoted {mark : Char} (hmark : mark = '"' ∨ mark = '\'') {f : Char → List Char}
    (hf : ∀ c brackets, (f c).foldlM Within.step (.quoted mark false brackets) =
      some (.quoted mark false brackets)) (cs : List Char) :
    Closed (mark :: (cs.flatMap f ++ [mark])) := by
  have hchars : ∀ brackets, (cs.flatMap f).foldlM Within.step (.quoted mark false brackets) =
      some (.quoted mark false brackets) := by
    intro brackets
    induction cs with
    | nil => rfl
    | cons c cs ih =>
      rw [List.flatMap_cons, List.foldlM_append, hf, Option.bind_eq_bind, Option.bind_some, ih]
  intro brackets
  have hopen : Within.step (.code brackets) mark = some (.quoted mark false brackets) := by
    rw [Within.step, if_pos hmark]
  rw [List.foldlM_cons, hopen, Option.bind_eq_bind, Option.bind_some, List.foldlM_append, hchars]
  simp [Within.step]

/-- Closed code between brackets. -/
theorem Closed.bracketed {opening closing : Char} (h : Closed cs)
    (hb : (opening, closing) ∈ [('\x7b', '\x7d'), ('(', ')'), ('[', ']')]) :
    Closed (opening :: (cs ++ [closing])) := by
  intro brackets
  have hsteps : Within.step (.code brackets) opening = some (.code (closing :: brackets)) ∧
      Within.step (.code (closing :: brackets)) closing = some (.code brackets) := by
    simp only [List.mem_cons, List.not_mem_nil, or_false, Prod.mk.injEq] at hb
    rcases hb with ⟨rfl, rfl⟩ | ⟨rfl, rfl⟩ | ⟨rfl, rfl⟩ <;> simp [Within.step]
  obtain ⟨hopen, hclose⟩ := hsteps
  rw [List.foldlM_cons, hopen, Option.bind_eq_bind, Option.bind_some, List.foldlM_append, h]
  simp [hclose]

/-! ## Code in braces -/

/-- Code that is not closed at a brace. -/
theorem step_ne_close {w w' : Within} {c : Char} (h : w.step c = some w') :
    ¬ (w = .code [] ∧ c = '\x7d') := by
  rintro ⟨rfl, rfl⟩
  cases h

/-- Characters that are put to what was begun, in whatever place. -/
theorem run_while (d : Dialect) (stack : List Frame) (nodes : List Tree) (place : List Char → Place)
    {p : Char → Prop}
    (hplace : ∀ begun c, p c →
      step d ⟨stack, nodes, place begun⟩ c = some ⟨stack, nodes, place (begun ++ [c])⟩)
    (h : ∀ c ∈ cs, p c) (begun : List Char) :
    run d ⟨stack, nodes, place begun⟩ cs = some ⟨stack, nodes, place (begun ++ cs)⟩ := by
  induction cs generalizing begun with
  | nil => rw [List.append_nil]; rfl
  | cons c cs ih =>
    obtain ⟨hc, hcs⟩ := List.forall_mem_cons.1 h
    rw [run_step (hplace begun c hc), ih hcs, List.append_assoc, List.singleton_append]

/-- Code is read on as long as no brace closes it, in whatever place. -/
theorem run_within (place : Within → List Char → Place)
    (hplace : ∀ w begun c, ¬ (w = .code [] ∧ c = '\x7d') →
      step d ⟨stack, nodes, place w begun⟩ c =
        (w.step c).map fun w => ⟨stack, nodes, place w (begun ++ [c])⟩)
    {w w' : Within} {begun : List Char} (h : cs.foldlM Within.step w = some w') :
    run d ⟨stack, nodes, place w begun⟩ cs = some ⟨stack, nodes, place w' (begun ++ cs)⟩ := by
  induction cs generalizing w begun with
  | nil => cases h; rw [List.append_nil]; rfl
  | cons c cs ih =>
    rw [List.foldlM_cons] at h
    obtain ⟨w₁, hw, h⟩ := Option.bind_eq_some_iff.1 h
    have hstep := hplace w begun c (step_ne_close hw)
    rw [hw, Option.map_some] at hstep
    rw [run_step hstep, ih h, List.append_assoc, List.singleton_append]

/-- Closed code in braces is read as such, behind a text that is read. -/
theorem run_expression (hd : d.hasCode = true) {begun : List Char} (ht : d.content? begun = some text)
    (hc : Closed cs) : run d ⟨stack, nodes, .content begun⟩ ('\x7b' :: (cs ++ ['\x7d'])) =
      some ⟨stack, nodes ++ text ++ [.code (String.ofList cs)], .content []⟩ := by
  have hopen : step d ⟨stack, nodes, .content begun⟩ '\x7b' =
      some ⟨stack, nodes ++ text, .code (.code []) []⟩ := by
    simp [step, hd, ht]
  rw [run_step hopen, run_trans (run_within .code (fun _ _ _ h => if_neg h) (hc []))]
  simp [run, step]

/-! ## Attributes -/

/-- A name of letters, digits and the marks that names can have, a letter first. -/
def isName : List Char → Bool
  | [] => false
  | c :: cs => c.isAlpha && cs.all isNameChar

/-- A text that is read as an attribute. -/
def ReadsAttribute (d : Dialect) (cs : List Char) (name : List Char) (v : Value) : Prop :=
  ∀ stack nodes o spaced, run d ⟨stack, nodes, .between o spaced⟩ (' ' :: cs) =
    some ⟨stack, nodes, .between (o.add name v) false⟩

/-- A letter begins nothing in a tag but a name. -/
theorem isAlpha_spec {c : Char} (h : c.isAlpha = true) :
    isBlank c = false ∧ c ≠ '/' ∧ c ≠ '>' ∧ isNameChar c = true := by
  have hne : ∀ e : Char, e.isAlpha = false → c ≠ e := fun e he hce => by
    rw [hce, he] at h
    cases h
  refine ⟨?_, hne _ rfl, hne _ rfl, ?_⟩
  · simp [isBlank, hne ' ' rfl, hne '\n' rfl, hne '\t' rfl, hne '\r' rfl]
  · simp [isNameChar, Char.isAlphanum, h]

/-- The name of an attribute is read up to the mark behind it. -/
theorem run_name {o : Opening} {spaced : Bool} {name : List Char} (hname : isName name = true) :
    run d ⟨stack, nodes, .between o spaced⟩ (' ' :: (name ++ '=' :: cs)) =
      run d ⟨stack, nodes, .value o name⟩ cs := by
  cases name with
  | nil => cases hname
  | cons c name =>
    obtain ⟨hc, hrest⟩ := Bool.and_eq_true_iff.1 hname
    obtain ⟨hblank, hslash, hend, -⟩ := isAlpha_spec hc
    have hspace : step d ⟨stack, nodes, .between o spaced⟩ ' ' =
        some ⟨stack, nodes, .between o true⟩ := rfl
    have hfirst : step d ⟨stack, nodes, .between o true⟩ c = some ⟨stack, nodes, .attribute o [c]⟩ := by
      simp [step, onward, hblank, hslash, hend, hc]
    have hmark : step d ⟨stack, nodes, .attribute o (c :: name)⟩ '=' =
        some ⟨stack, nodes, .value o (c :: name)⟩ := rfl
    have hname := run_while d stack nodes (.attribute o)
      (fun begun c (hc : isNameChar c = true) => if_pos hc) (List.all_eq_true.1 hrest) [c]
    rw [run_step hspace, List.cons_append, run_step hfirst, run_trans hname, List.singleton_append,
      run_step hmark]

theorem readsAttribute_text {name value : List Char} {v : String} (hname : isName name = true)
    (hquote : '"' ∉ value) (hv : d.meaning? (String.ofList value) = some v) :
    ReadsAttribute d (name ++ '=' :: '"' :: (value ++ ['"'])) name (.text v) := by
  intro stack nodes o spaced
  have hopen : step d ⟨stack, nodes, .value o name⟩ '"' = some ⟨stack, nodes, .quoted o name []⟩ := rfl
  have hvalue := run_while d stack nodes (.quoted o name)
    (fun begun c (hc : c ≠ '"') => if_neg hc) (fun c hc he => hquote (he ▸ hc)) []
  have hclose : step d ⟨stack, nodes, .quoted o name value⟩ '"' =
      some ⟨stack, nodes, .between (o.add name (.text v)) false⟩ := by
    simp [step, hv]
  rw [run_name hname, run_step hopen, run_trans hvalue, List.nil_append, run_step hclose]
  rfl

theorem readsAttribute_code (hd : d.hasCode = true) {name : List Char} (hname : isName name = true)
    (hc : Closed cs) :
    ReadsAttribute d (name ++ '=' :: '\x7b' :: (cs ++ ['\x7d'])) name (.code (String.ofList cs)) := by
  intro stack nodes o spaced
  have hopen : step d ⟨stack, nodes, .value o name⟩ '\x7b' =
      some ⟨stack, nodes, .coded o name (.code []) []⟩ := by
    simp [step, hd]
  have hclose : step d ⟨stack, nodes, .coded o name (.code []) cs⟩ '\x7d' =
      some ⟨stack, nodes, .between (o.add name (.code (String.ofList cs))) false⟩ := rfl
  rw [run_name hname, run_step hopen, run_trans (run_within (.coded o name) (fun _ _ _ h => if_neg h)
    (hc [])), List.nil_append, run_step hclose]
  rfl

/-- Attributes are read one after the other. -/
theorem run_attributes (stack : List Frame) (nodes : List Tree) {α : Type}
    {print name : α → List Char} {value : α → Value} {as : List α}
    (h : ∀ a ∈ as, ReadsAttribute d (print a) (name a) (value a)) (o : Opening) (spaced : Bool) :
    ∃ spaced', run d ⟨stack, nodes, .between o spaced⟩ (as.flatMap fun a => ' ' :: print a) =
      some ⟨stack, nodes, .between
        ⟨o.tag, o.attributes ++ as.map fun a => (String.ofList (name a), value a)⟩ spaced'⟩ := by
  induction as generalizing o spaced with
  | nil => exact ⟨spaced, by rw [List.map_nil, List.append_nil]; rfl⟩
  | cons a as ih =>
    obtain ⟨ha, has⟩ := List.forall_mem_cons.1 h
    obtain ⟨spaced', hrest⟩ := ih has (o.add (name a) (value a)) false
    refine ⟨spaced', ?_⟩
    rw [List.flatMap_cons, run_trans (ha stack nodes o spaced), hrest, Opening.add]
    simp

/-! ## Elements -/

/-- The name of a tag is read up to what stands behind it. -/
theorem run_tag {begun tag : List Char} (ht : d.content? begun = some text) (htag : isName tag = true)
    {c : Char} (hc : isNameChar c = false) :
    run d ⟨stack, nodes, .content begun⟩ ('<' :: (tag ++ c :: cs)) =
      run d ⟨stack, nodes ++ text, .between ⟨String.ofList tag, []⟩ false⟩ (c :: cs) := by
  cases tag with
  | nil => cases htag
  | cons e tag =>
    obtain ⟨he, hrest⟩ := Bool.and_eq_true_iff.1 htag
    have hopen : step d ⟨stack, nodes, .content begun⟩ '<' = some ⟨stack, nodes ++ text, .bracket⟩ := by
      simp [step, ht]
    have hfirst : step d ⟨stack, nodes ++ text, .bracket⟩ e =
        some ⟨stack, nodes ++ text, .tag [e]⟩ := by
      simp [step, (isAlpha_spec he).2.1, he]
    have hname := run_while d stack (nodes ++ text) .tag
      (fun begun c (hc : isNameChar c = true) => if_pos hc) (List.all_eq_true.1 hrest) [e]
    have hlast : step d ⟨stack, nodes ++ text, .tag (e :: tag)⟩ c =
        step d ⟨stack, nodes ++ text, .between ⟨String.ofList (e :: tag), []⟩ false⟩ c := by
      simp [step, hc, onward]
    rw [run_step hopen, List.cons_append, run_step hfirst, run_trans hname, List.singleton_append,
      run_cons, hlast, ← run_cons]

/-- A tag that closes itself, with a blank before its slash or without. -/
theorem run_ending (o : Opening) (spaced : Bool) :
    run d ⟨stack, nodes, .between o spaced⟩ ['/', '>'] =
        some ⟨stack, nodes ++ [.element o.tag o.attributes []], .content []⟩ ∧
      run d ⟨stack, nodes, .between o spaced⟩ [' ', '/', '>'] =
        some ⟨stack, nodes ++ [.element o.tag o.attributes []], .content []⟩ := ⟨rfl, rfl⟩

theorem run_opened (o : Opening) (spaced : Bool) :
    run d ⟨stack, nodes, .between o spaced⟩ ('>' :: cs) =
      run d ⟨⟨o, nodes⟩ :: stack, [], .content []⟩ cs := rfl

/-- The closing tag of the innermost element. -/
theorem run_closing {begun : List Char} (ht : d.content? begun = some text) {tag : String}
    (htag : isName tag.toList = true) (before : List Tree) (attributes : List (String × Value)) :
    run d ⟨⟨⟨tag, attributes⟩, before⟩ :: stack, nodes, .content begun⟩
        ('<' :: '/' :: (tag.toList ++ ['>'])) =
      some ⟨stack, before ++ [.element tag attributes (nodes ++ text)], .content []⟩ := by
  have hchars : ∀ c ∈ tag.toList, isNameChar c = true := by
    cases hcs : tag.toList with
    | nil => simp
    | cons e cs =>
      rw [hcs] at htag
      obtain ⟨he, hrest⟩ := Bool.and_eq_true_iff.1 htag
      exact List.forall_mem_cons.2 ⟨(isAlpha_spec he).2.2.2, List.all_eq_true.1 hrest⟩
  obtain ⟨frames, hframe⟩ : ∃ frames : List Frame, frames = ⟨⟨tag, attributes⟩, before⟩ :: stack :=
    ⟨_, rfl⟩
  rw [← hframe]
  have hopen : step d ⟨frames, nodes, .content begun⟩ '<' = some ⟨frames, nodes ++ text, .bracket⟩ := by
    simp [step, ht]
  have hslash : step d ⟨frames, nodes ++ text, .bracket⟩ '/' =
      some ⟨frames, nodes ++ text, .closing []⟩ := rfl
  have hname := run_while d frames (nodes ++ text) .closing
    (fun begun c (hc : isNameChar c = true) => if_pos hc) hchars []
  rw [run_step hopen, run_step hslash, run_trans hname, List.nil_append, hframe]
  simp [run, step, close, isNameChar]

/-- A text is read as itself up to a tag or code. -/
theorem run_text (hcs : ∀ c ∈ cs, c ≠ '<' ∧ c ≠ '>' ∧ (d.hasCode = true → c ≠ '\x7b' ∧ c ≠ '\x7d'))
    (begun : List Char) :
    run d ⟨stack, nodes, .content begun⟩ cs = some ⟨stack, nodes, .content (begun ++ cs)⟩ := by
  refine run_while d stack nodes .content (fun begun c hc => ?_) hcs begun
  obtain ⟨hless, hgreater, hbrace⟩ := hc
  have hopen : ¬ (d.hasCode = true ∧ c = '\x7b') := fun h => (hbrace h.1).1 h.2
  have hclose : ¬ (d.hasCode = true ∧ c = '\x7d') := fun h => (hbrace h.1).2 h.2
  simp only [step, if_neg hless, if_neg hopen, hgreater, hclose, or_self, if_false]

end Run

end Maquette.Reader
