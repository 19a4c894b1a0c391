/-
Style sheets as they are read: comments, texts in quotation marks, blocks in braces, and declarations
that end with semicolons. Every text is read as some sheet. A mark counts where it stands in code and
not in a comment, between quotation marks or behind a backslash, so a text that is put into a sheet
can change how all that follows is read. It does not when it is contained: read as part of a value, it
ends nothing and leaves nothing open.
-/
import Maquette.Css
import Maquette.Proofs.Text

namespace Maquette.Css

/-! ## Scanning -/

/-- A way to go through a text: the characters it stops at, and how its state goes on. -/
structure Scan (σ : Type) where
  stop : σ → Char → Bool
  next : σ → Char → σ

namespace Scan

variable {σ : Type} (m : Scan σ)

/-- The state behind a text that the scan does not stop in. -/
def walk : σ → List Char → Option σ
  | s, [] => some s
  | s, c :: cs => if m.stop s c then none else walk (m.next s c) cs

/-- The characters before the first one that the scan stops at. -/
def taken : σ → List Char → List Char
  | _, [] => []
  | s, c :: cs => if m.stop s c then [] else c :: taken (m.next s c) cs

variable {m} {s s' : σ}

theorem walk_cons {c : Char} {cs : List Char} :
    m.walk s (c :: cs) = some s' ↔ m.stop s c = false ∧ m.walk (m.next s c) cs = some s' := by
  rw [walk]
  split <;> simp_all

theorem walk_append {a b : List Char} {s'' : σ} (ha : m.walk s a = some s')
    (hb : m.walk s' b = some s'') : m.walk s (a ++ b) = some s'' := by
  induction a generalizing s with
  | nil => cases ha; exact hb
  | cons c a ih =>
    obtain ⟨hstop, ha⟩ := walk_cons.1 ha
    exact walk_cons.2 ⟨hstop, ih ha⟩

/-- A scan that goes along with another one goes on where this one does. -/
theorem walk_map {τ : Type} {m' : Scan τ} {f : σ → τ}
    (hf : ∀ s c, m.stop s c = false → m'.stop (f s) c = false ∧ m'.next (f s) c = f (m.next s c))
    {cs : List Char} (h : m.walk s cs = some s') : m'.walk (f s) cs = some (f s') := by
  induction cs generalizing s with
  | nil => cases h; rfl
  | cons c cs ih =>
    obtain ⟨hstop, h⟩ := walk_cons.1 h
    obtain ⟨hstop', hnext⟩ := hf s c hstop
    exact walk_cons.2 ⟨hstop', by rw [hnext]; exact ih h⟩

/-- A text in front of a mark is taken as a whole exactly if the scan stops at the mark and not
before it. -/
theorem taken_eq_iff {v : List Char} {mark : Char} {rest : List Char} :
    m.taken s (v ++ mark :: rest) = v ↔ ∃ s', m.walk s v = some s' ∧ m.stop s' mark = true := by
  induction v generalizing s with
  | nil => simp [taken, walk]
  | cons c v ih =>
    rw [List.cons_append, taken, walk]
    split
    · simp
    · rw [List.cons.injEq, and_iff_right rfl, ih]

end Scan

/-! ## Where a reader stands -/

def isLineBreak (c : Char) : Bool := c == '\n' || c == '\r' || c == '\x0c'

def isSpace (c : Char) : Bool := c == ' ' || c == '\t' || isLineBreak c

/-- What the next character belongs to. -/
inductive Within where
  | code
  /-- Behind a slash, which may begin a comment. -/
  | slash
  /-- Behind a backslash, which takes its meaning from the next character. -/
  | escape
  /-- In a comment, right behind a star of it or not. -/
  | comment (star : Bool)
  /-- Between quotation marks, right behind a backslash or not. -/
  | quoted (mark : Char) (escape : Bool)
  deriving DecidableEq, Repr

namespace Within

/-- Whether marks count. -/
def isCode : Within → Bool
  | code => true
  | slash => true
  | _ => false

/-- Behind a character of code. -/
def behind (c : Char) : Within :=
  if c = '/' then slash
  else if c = '\\' then escape
  else if c = '"' ∨ c = '\'' then quoted c false
  else code

/-- Behind one more character. A line break ends a text in quotation marks that was not closed. -/
def next : Within → Char → Within
  | code, c => behind c
  | slash, c => if c = '*' then comment false else behind c
  | escape, _ => code
  | comment star, c => if star ∧ c = '/' then code else comment (c == '*')
  | quoted mark true, _ => quoted mark false
  | quoted mark false, c => if c = mark ∨ isLineBreak c then code else quoted mark (c == '\\')

end Within

/-- A text in double quotation marks; the state is whether a backslash stands before. -/
def quotation : Scan Bool where
  stop escape c := !escape && (c == '"' || isLineBreak c)
  next escape c := !escape && c == '\\'

/-- A selector, up to the brace that opens its block. -/
def heading : Scan Within where
  stop w c := w.isCode && c == '\x7b'
  next := Within.next

/-- An item of a block, up to a semicolon or the brace that closes the block; the state counts the
blocks that are open within the item. -/
def item : Scan (Within × Nat) where
  stop p c := p.1.isCode && p.2 == 0 && (c == ';' || c == '\x7d')
  next p c := (p.1.next c,
    if !p.1.isCode then p.2 else if c = '\x7b' then p.2 + 1 else if c = '\x7d' then p.2 - 1 else p.2)

/-! ## Parts of a sheet -/

/-- What a block is about. -/
inductive Selector where
  | root
  /-- All within an element that has a theme of this name; the name as it is written. -/
  | theme (name : String)
  | other (text : String)
  deriving DecidableEq, Repr

/-- A selector and what is declared for it. -/
structure Rule where
  selector : Selector
  declarations : List Declaration
  deriving DecidableEq, Repr

/-- Without the spaces and comments in front. -/
def lead : Within → List Char → List Char
  | .slash, [] => ['/']
  | _, [] => []
  | .slash, c :: cs => if c = '*' then lead (.comment false) cs else '/' :: c :: cs
  | .comment star, c :: cs => lead (Within.next (.comment star) c) cs
  | _, c :: cs =>
    if isSpace c then lead .code cs else if c = '/' then lead .slash cs else c :: cs

/-- What the selector of a theme begins with. -/
def themeStart : List Char := "[data-theme=\"".toList

/-- A selector out of the text in front of a block. -/
def selectorOf (text : List Char) : Selector :=
  let text := Text.dropEnd isSpace (lead .code text)
  if text = ":root".toList then .root
  else
    match Text.dropPrefix? themeStart text with
    | some rest =>
      let name := quotation.taken false rest
      if rest = name ++ ['"', ']'] then .theme (String.ofList name) else .other (String.ofList text)
    | none => .other (String.ofList text)

/-- A declaration out of an item of a block: its property, and its value behind the colon and one
space. An item without a colon declares nothing. -/
def declarationsOf (text : List Char) : List Declaration :=
  match Text.cut? ':' (lead .code text) with
  | some (property, ' ' :: value) => [(String.ofList property, String.ofList value)]
  | some (property, value) => [(String.ofList property, String.ofList value)]
  | none => []

/-! ## Reading -/

mutual

/-- The rules in a text, when a selector was begun. -/
def rulesFrom (w : Within) (begun : List Char) : List Char → List Rule
  | [] => []
  | c :: cs =>
    if heading.stop w c then
      let block := blockFrom (.code, 0) [] cs
      ⟨selectorOf begun, block.1⟩ :: block.2
    else rulesFrom (heading.next w c) (begun ++ [c]) cs

/-- The declarations of a block and the rules behind it, when an item was begun. -/
def blockFrom (p : Within × Nat) (begun : List Char) : List Char → List Declaration × List Rule
  | [] => (declarationsOf begun, [])
  | c :: cs =>
    if item.stop p c then
      if c = ';' then
        let block := blockFrom (.code, 0) [] cs
        (declarationsOf begun ++ block.1, block.2)
      else (declarationsOf begun, rulesFrom .code [] cs)
    else blockFrom (item.next p c) (begun ++ [c]) cs

end

/-- The rules of a style sheet. -/
def read (s : String) : List Rule := rulesFrom .code [] s.toList

example : read ("/* a */ :root \x7b\n  /* ; */\n  --a: b;c:\x7d" ++
      "[data-theme=\"x\"]\x7b--a: \";\"\x7d") =
    [⟨.root, [("--a", "b"), ("c", "")]⟩, ⟨.theme "x", [("--a", "\";\"")]⟩] := by
  decide +kernel

/-! ## Reading on -/

section ReadingOn

variable {w w' : Within} {p p' : Within × Nat} {begun text cs rest : List Char}

theorem rulesFrom_walk (h : heading.walk w text = some w') :
    rulesFrom w begun (text ++ rest) = rulesFrom w' (begun ++ text) rest := by
  induction text generalizing w begun with
  | nil => cases h; simp
  | cons c text ih =>
    obtain ⟨hstop, h⟩ := Scan.walk_cons.1 h
    rw [List.cons_append, rulesFrom, hstop, if_neg Bool.false_ne_true, ih h, List.append_assoc]
    rfl

theorem blockFrom_walk (h : item.walk p text = some p') :
    blockFrom p begun (text ++ rest) = blockFrom p' (begun ++ text) rest := by
  -- each character that is read moves from the text to what was begun
  induction text generalizing p begun with
  | nil => cases h; simp
  | cons c text ih =>
    obtain ⟨hstop, h⟩ := Scan.walk_cons.1 h
    rw [List.cons_append, blockFrom, hstop, if_neg Bool.false_ne_true, ih h, List.append_assoc]
    rfl

/-- The first item of a block is what is taken up to its end. -/
theorem blockFrom_first (p : Within × Nat) (begun cs : List Char) :
    ∃ others, (blockFrom p begun cs).1 = declarationsOf (begun ++ item.taken p cs) ++ others := by
  induction cs generalizing p begun with
  | nil => exact ⟨[], by simp [blockFrom, Scan.taken]⟩
  | cons c cs ih =>
    rw [blockFrom, Scan.taken]
    split
    · rw [List.append_nil]
      split
      · exact ⟨_, rfl⟩
      · exact ⟨[], by simp⟩
    · obtain ⟨others, h⟩ := ih (item.next p c) (begun ++ [c])
      exact ⟨others, by rw [h, List.append_assoc]; rfl⟩

/-- The first rule has a selector that was read out of some text. -/
theorem rulesFrom_first {r : Rule} {others : List Rule} (h : rulesFrom w begun cs = r :: others) :
    ∃ text, r.selector = selectorOf text := by
  induction cs generalizing w begun with
  | nil => cases h
  | cons c cs ih =>
    rw [rulesFrom] at h
    split at h
    · cases h; exact ⟨begun, rfl⟩
    · exact ih h

end ReadingOn

/-! ## What stands in front -/

/-- A text that does not matter in front of a selector or of an item. -/
def Leads (text : List Char) : Prop := ∀ rest, lead .code (text ++ rest) = lead .code rest

section Leading

variable {text begun cs : List Char}

theorem Leads.append {a b : List Char} (ha : Leads a) (hb : Leads b) : Leads (a ++ b) := by
  intro rest
  rw [List.append_assoc, ha, hb]

theorem leads_space {c : Char} (h : isSpace c = true) : Leads [c] := by
  intro rest
  simp [lead, h]

theorem Leads.selectorOf (h : Leads text) : selectorOf (text ++ begun) = selectorOf begun := by
  unfold Css.selectorOf; rw [h]

theorem Leads.declarationsOf (h : Leads text) :
    declarationsOf (text ++ begun) = declarationsOf begun := by
  unfold Css.declarationsOf; rw [h]

theorem rulesFrom_lead (h : Leads text) (w : Within) :
    rulesFrom w (text ++ begun) cs = rulesFrom w begun cs := by
  induction cs generalizing w begun with
  | nil => rfl
  | cons c cs ih => rw [rulesFrom, rulesFrom, h.selectorOf, List.append_assoc, ih]

theorem blockFrom_lead (h : Leads text) (p : Within × Nat) :
    blockFrom p (text ++ begun) cs = blockFrom p begun cs := by
  induction cs generalizing p begun with
  | nil => rw [blockFrom, blockFrom, h.declarationsOf]
  | cons c cs ih => rw [blockFrom, blockFrom, h.declarationsOf, List.append_assoc, ih]

end Leading

/-! ## Comments -/

/-- The inside of a comment; the state is whether a star stands before. -/
def commentary : Scan Bool where
  stop star c := star && c == '/'
  next _ c := c == '*'

/-- A reader stays in a comment until a star and a slash. -/
theorem next_comment {star : Bool} {c : Char} (h : commentary.stop star c = false) :
    Within.next (.comment star) c = .comment (c == '*') := by
  have : ¬ (star = true ∧ c = '/') := by
    rintro ⟨rfl, rfl⟩; cases h
  rw [Within.next, if_neg this]

section Commentary

variable {text : List Char} {star star' : Bool}

theorem item_commentary (h : commentary.walk star text = some star') (depth : Nat) :
    item.walk (.comment star, depth) text = some (.comment star', depth) := by
  refine Scan.walk_map (f := fun star => (Within.comment star, depth)) ?_ h
  intro star c hstop
  refine ⟨rfl, ?_⟩
  show (Within.next (.comment star) c, _) = _
  rw [next_comment hstop]; rfl

theorem heading_commentary (h : commentary.walk star text = some star') :
    heading.walk (.comment star) text = some (.comment star') :=
  Scan.walk_map (f := Within.comment) (fun _ _ hstop => ⟨rfl, next_comment hstop⟩) h

theorem lead_commentary (h : commentary.walk star text = some star') (rest : List Char) :
    lead (.comment star) (text ++ rest) = lead (.comment star') rest := by
  induction text generalizing star with
  | nil => cases h; rfl
  | cons c text ih =>
    obtain ⟨hstop, h⟩ := Scan.walk_cons.1 h
    rw [List.cons_append, lead, next_comment hstop]
    exact ih h

end Commentary

/-- A text with a space in each star and slash ends no comment. -/
theorem commentary_spaced (text : List Char) (star : Bool)
    (hstar : star = true → text.head? ≠ some '/') :
    ∃ star', commentary.walk star (Script.spaced text) = some star' := by
  induction text using Script.spaced.induct generalizing star with
  | case1 rest ih =>
    -- a star and a slash, now with a space between them
    obtain ⟨star', h⟩ := ih false (by simp)
    refine ⟨star', ?_⟩
    rw [Script.spaced]
    exact Scan.walk_cons.2 ⟨by simp [commentary], Scan.walk_cons.2 ⟨rfl, Scan.walk_cons.2 ⟨rfl, h⟩⟩⟩
  | case2 c rest hne ih =>
    obtain ⟨star', h⟩ := ih (c == '*') fun hc hhead => by
      obtain ⟨tail, rfl⟩ := List.head?_eq_some_iff.1 hhead
      exact hne tail (by simpa using hc) rfl
    have hstop : commentary.stop star c = false := by
      cases star with
      | false => rfl
      | true =>
        have : c ≠ '/' := fun hc => hstar rfl (by rw [hc]; rfl)
        simpa [commentary] using this
    refine ⟨star', ?_⟩
    rw [Script.spaced.eq_2 c rest hne]
    exact Scan.walk_cons.2 ⟨hstop, h⟩
  | case3 => exact ⟨star, rfl⟩

/-- A text that can stand between the two ends of a comment. -/
def IsCommentary (text : List Char) : Prop := ∃ star, commentary.walk false text = some star

section Enclosed

variable {text : List Char}

/-- A comment is read as one. -/
theorem item_enclosed (h : IsCommentary text) (depth : Nat) :
    item.walk (.code, depth) ("/*".toList ++ text ++ "*/".toList) = some (.code, depth) := by
  obtain ⟨star, h⟩ := h
  have hstart : item.walk (.code, depth) "/*".toList = some (.comment false, depth) := by
    simp [Scan.walk, item, Within.isCode, Within.next, Within.behind]
  have hend : item.walk (.comment star, depth) "*/".toList = some (.code, depth) := by
    simp [Scan.walk, item, Within.isCode, Within.next]
  exact Scan.walk_append (Scan.walk_append hstart (item_commentary h depth)) hend

theorem heading_enclosed (h : IsCommentary text) :
    heading.walk .code ("/*".toList ++ text ++ "*/".toList) = some .code := by
  obtain ⟨star, h⟩ := h
  have hstart : heading.walk .code "/*".toList = some (.comment false) := by
    simp [Scan.walk, heading, Within.isCode, Within.next, Within.behind]
  have hend : heading.walk (.comment star) "*/".toList = some .code := by
    simp [Scan.walk, heading, Within.isCode, Within.next]
  exact Scan.walk_append (Scan.walk_append hstart (heading_commentary h)) hend

theorem leads_enclosed (h : IsCommentary text) : Leads ("/*".toList ++ text ++ "*/".toList) := by
  intro rest
  obtain ⟨star, h⟩ := h
  have hstart : ∀ rest, lead .code ("/*".toList ++ rest) = lead (.comment false) rest := by
    intro rest
    simp [lead, isSpace, isLineBreak]
  have hend : lead (.comment star) ("*/".toList ++ rest) = lead .code rest := by
    simp [lead, Within.next]
  rw [List.append_assoc, List.append_assoc, hstart, lead_commentary h, hend]

end Enclosed

/-- A text in which every star and slash is spaced, and a blank on both sides. -/
theorem isCommentary_spaced (text : List Char) : IsCommentary (' ' :: Script.spaced text ++ [' ']) := by
  obtain ⟨star, h⟩ := commentary_spaced text false (by simp)
  exact ⟨false, Scan.walk_append (Scan.walk_cons.2 ⟨rfl, h⟩) (by simp [Scan.walk, commentary])⟩

theorem comment_toList (s : String) :
    (comment s).toList = "/*".toList ++ (' ' :: Script.spaced s.toList ++ [' ']) ++ "*/".toList := by
  simp [comment, Script.harmless]

/-- A comment is read as one, whatever its text. -/
theorem item_comment (s : String) (depth : Nat) :
    item.walk (.code, depth) (comment s).toList = some (.code, depth) := by
  rw [comment_toList]
  exact item_enclosed (isCommentary_spaced _) depth

theorem heading_comment (s : String) : heading.walk .code (comment s).toList = some .code := by
  rw [comment_toList]
  exact heading_enclosed (isCommentary_spaced _)

theorem leads_comment (s : String) : Leads (comment s).toList := by
  rw [comment_toList]
  exact leads_enclosed (isCommentary_spaced _)

/-! ## Contained texts -/

/-- A text that can be the value of a declaration: it ends no item, and what it opens it closes. -/
def IsContained (s : String) : Prop :=
  ∃ w, item.walk (.code, 0) s.toList = some (w, 0) ∧ w.isCode = true

/-- A text that can stand between double quotation marks. -/
def IsQuotable (s : String) : Prop := quotation.walk false s.toList = some false

instance (s : String) : Decidable (IsQuotable s) := inferInstanceAs (Decidable (_ = _))

instance (s : String) : Decidable (IsContained s) :=
  match h : item.walk (.code, 0) s.toList with
  | some (w, 0) =>
    if hw : w.isCode = true then .isTrue ⟨w, h, hw⟩
    else .isFalse fun ⟨_, h', hw'⟩ => by
      rw [h] at h'; cases h'; exact hw hw'
  | some (_, _ + 1) => .isFalse fun ⟨_, h', _⟩ => by rw [h] at h'; cases h'
  | none => .isFalse fun ⟨_, h', _⟩ => by rw [h] at h'; cases h'

/-- A text is contained exactly if it is what is taken up to a semicolon behind it. -/
theorem isContained_iff {s : String} {rest : List Char} :
    item.taken (.code, 0) (s.toList ++ ';' :: rest) = s.toList ↔ IsContained s := by
  rw [Scan.taken_eq_iff]
  constructor
  · rintro ⟨⟨w, depth⟩, h, hstop⟩
    simp only [item, beq_self_eq_true, Bool.true_or, Bool.and_true, Bool.and_eq_true,
      beq_iff_eq] at hstop
    obtain ⟨hw, rfl⟩ := hstop
    exact ⟨w, h, hw⟩
  · rintro ⟨w, h, hw⟩
    exact ⟨_, h, by simp [item, hw]⟩

/-- The name of a theme that was read can stand between quotation marks. -/
theorem isQuotable_of_selector {text : List Char} {name : String}
    (h : selectorOf text = .theme name) : IsQuotable name := by
  unfold selectorOf at h
  simp only at h
  split at h
  · cases h
  split at h
  · rename_i rest _
    generalize hname : quotation.taken false rest = taken at h
    split at h
    · rename_i hrest
      cases h
      rw [hrest] at hname
      -- the name ends at the quotation mark, so no backslash stands before that
      obtain ⟨escape, hwalk, hstop⟩ := Scan.taken_eq_iff.1 hname
      have : escape = false := by simpa [quotation] using hstop
      rw [IsQuotable, String.toList_ofList, hwalk, this]
    · cases h
  · cases h

end Maquette.Css
