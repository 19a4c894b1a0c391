/-
What a style sheet means under a theme: the value in force of a property is the last one that is
declared for the theme, or else the last one for the root. And a condition on texts that is easily told
and enough for them to be contained and to stand between quotation marks.
-/
import Maquette.Proofs.Css.Printed

namespace Maquette.Css

/-! ## Values in force -/

/-- The values that declarations give to a property, in order. -/
def valuesOf (property : String) (declarations : List Declaration) : List String :=
  declarations.filterMap fun d => if d.1 = property then some d.2 else none

/-- The values that a property is declared with for a selector, in order. -/
def declared (rules : List Rule) (selector : Selector) (property : String) : List String :=
  (rules.filter (·.selector = selector)).flatMap fun r => valuesOf property r.declarations

/-- The value of a property under a theme. -/
def inForce (rules : List Rule) (theme property : String) : Option String :=
  (declared rules (.theme theme) property).getLast?.or (declared rules .root property).getLast?

example : inForce [⟨.root, [("--a", "x"), ("--b", "y")]⟩, ⟨.theme "dark", [("--a", "z")]⟩]
    "dark" "--a" = some "z" := by decide

theorem valuesOf_absent {property : String} {declarations : List Declaration}
    (h : ∀ d ∈ declarations, d.1 ≠ property) : valuesOf property declarations = [] := by
  rw [valuesOf, List.filterMap_eq_nil_iff]
  intro d hd
  rw [if_neg (h d hd)]

/-- A property that is declared once has this one value. -/
theorem valuesOf_once {declarations : List Declaration} (hnd : (declarations.map (·.1)).Nodup)
    {d : Declaration} (hd : d ∈ declarations) : valuesOf d.1 declarations = [d.2] := by
  induction declarations with
  | nil => cases hd
  | cons first rest ih =>
    obtain ⟨hfirst, hrest⟩ := List.nodup_cons.1 hnd
    rw [valuesOf, List.filterMap_cons]
    rcases List.mem_cons.1 hd with rfl | hd
    · have habsent : valuesOf d.1 rest = [] :=
        valuesOf_absent fun e he heq => hfirst (List.mem_map.2 ⟨e, he, heq⟩)
      rw [if_pos rfl]
      exact congrArg (d.2 :: ·) habsent
    · have hne : first.1 ≠ d.1 := fun heq => hfirst (List.mem_map.2 ⟨d, hd, heq.symm⟩)
      rw [if_neg hne]
      exact ih hrest hd

section Themes

variable {root : List Declaration} {themes : List String} {overrides : String → List Declaration}

/-- A sheet with one block for the root and blocks for some themes. -/
def themed (root : List Declaration) (themes : List String)
    (overrides : String → List Declaration) : List Rule :=
  ⟨.root, root⟩ :: themes.map fun name => ⟨.theme name, overrides name⟩

theorem declared_root (property : String) :
    declared (themed root themes overrides) .root property = valuesOf property root := by
  have hthemes : (themes.map fun name => Rule.mk (.theme name) (overrides name)).filter
      (·.selector = .root) = [] := by
    rw [List.filter_eq_nil_iff]
    intro r hr
    obtain ⟨name, -, rfl⟩ := List.mem_map.1 hr
    simp
  rw [declared, themed, List.filter_cons_of_pos (by simp), hthemes]
  simp

theorem declared_theme (hnd : themes.Nodup) (name property : String) :
    declared (themed root themes overrides) (.theme name) property =
      if name ∈ themes then valuesOf property (overrides name) else [] := by
  rw [declared, themed, List.filter_cons_of_neg (by simp)]
  induction themes with
  | nil => rfl
  | cons first rest ih =>
    obtain ⟨hfirst, hrest⟩ := List.nodup_cons.1 hnd
    rw [List.map_cons]
    by_cases hname : first = name
    · -- no other block is about this theme
      subst hname
      rw [List.filter_cons_of_pos (by simp), List.flatMap_cons, ih hrest, if_neg hfirst,
        if_pos List.mem_cons_self, List.append_nil]
    · have hmem : name ∈ first :: rest ↔ name ∈ rest := by
        rw [List.mem_cons, or_iff_right (Ne.symm hname)]
      rw [List.filter_cons_of_neg (by simpa using hname), ih hrest]
      simp only [hmem]

/-- The value in force is that of the theme if it has one. -/
theorem inForce_themed (hnd : themes.Nodup) (name property : String) :
    inForce (themed root themes overrides) name property =
      (if name ∈ themes then valuesOf property (overrides name) else []).getLast?.or
        (valuesOf property root).getLast? := by
  rw [inForce, declared_root, declared_theme hnd]

end Themes

/-! ## Plain texts -/

/-- A character that is no semicolon, brace, quotation mark, backslash or line break. -/
def isPlainChar (c : Char) : Bool := (!isMark c || c == '/') && !isLineBreak c

theorem isPlainChar_spec {c : Char} (h : isPlainChar c = true) : isLineBreak c = false ∧
    c ≠ '\x7b' ∧ c ≠ '\x7d' ∧ c ≠ ';' ∧ c ≠ '"' ∧ c ≠ '\'' ∧ c ≠ '\\' := by
  refine ⟨?_, ?_, ?_, ?_, ?_, ?_, ?_⟩
  · rw [isPlainChar, Bool.and_eq_true, Bool.not_eq_true'] at h
    exact h.2
  all_goals
    rintro rfl
    exact absurd h (by decide)

/-- A text of such characters, without the marks of comments. -/
structure IsPlain (s : String) : Prop where
  chars : s.toList.all isPlainChar = true
  opening : Text.has s "/*" = false
  closing : Text.has s "*/" = false

instance (s : String) : Decidable (IsPlain s) :=
  decidable_of_iff
    (s.toList.all isPlainChar = true ∧ Text.has s "/*" = false ∧ Text.has s "*/" = false)
    ⟨fun ⟨chars, opening, closing⟩ => ⟨chars, opening, closing⟩,
      fun h => ⟨h.chars, h.opening, h.closing⟩⟩

/-- Behind a slash, a text that begins no comment is read as one without slashes is. -/
theorem item_plain {cs : List Char} (hchars : cs.all isPlainChar = true)
    (hopening : Text.occursIn ['/', '*'] cs = false) {w : Within} (hw : w = .code ∨
      w = .slash ∧ cs.head? ≠ some '*') :
    ∃ w', item.walk (w, 0) cs = some (w', 0) ∧ w'.isCode = true := by
  have hcode : w.isCode = true := by rcases hw with rfl | ⟨rfl, -⟩ <;> rfl
  induction cs generalizing w with
  | nil => exact ⟨w, rfl, hcode⟩
  | cons c cs ih =>
    rw [List.all_cons, Bool.and_eq_true] at hchars
    obtain ⟨hc, hcs⟩ := hchars
    rw [Text.occursIn, Bool.or_eq_false_iff] at hopening
    obtain ⟨hstart, hlater⟩ := hopening
    obtain ⟨-, hmarks⟩ := isPlainChar_spec hc
    have hnext : item.next (w, 0) c = (if c = '/' then .slash else .code, 0) := by
      have hbehind : Within.behind c = if c = '/' then .slash else .code := by
        simp [Within.behind, hmarks]
      rcases hw with rfl | ⟨rfl, hhead⟩
      · simp [item, Within.next, Within.isCode, hbehind, hmarks]
      · have hstar : c ≠ '*' := fun heq => hhead (by rw [heq]; rfl)
        simp [item, Within.next, Within.isCode, hbehind, hmarks, hstar]
    have hrest : (if c = '/' then Within.slash else .code) = .code ∨
        (if c = '/' then Within.slash else .code) = .slash ∧ cs.head? ≠ some '*' := by
      by_cases hslash : c = '/'
      · refine .inr ⟨if_pos hslash, fun hhead => ?_⟩
        obtain ⟨tail, rfl⟩ := List.head?_eq_some_iff.1 hhead
        rw [hslash] at hstart
        exact absurd hstart (by simp [Text.dropPrefix?])
      · exact .inl (if_neg hslash)
    obtain ⟨w', hwalk, hw'⟩ := ih hcs hlater hrest (by split <;> rfl)
    refine ⟨w', Scan.walk_cons.2 ⟨by simp [item, hmarks], ?_⟩, hw'⟩
    rw [hnext]
    exact hwalk

theorem IsPlain.isContained {s : String} (h : IsPlain s) : IsContained s :=
  item_plain h.chars h.opening (.inl rfl)

theorem IsPlain.isQuotable {s : String} (h : IsPlain s) : IsQuotable s := by
  unfold IsQuotable
  have hchars := h.chars
  generalize s.toList = cs at hchars
  induction cs with
  | nil => rfl
  | cons c cs ih =>
    rw [List.all_cons, Bool.and_eq_true] at hchars
    obtain ⟨hc, hcs⟩ := hchars
    obtain ⟨hline, hmarks⟩ := isPlainChar_spec hc
    refine Scan.walk_cons.2 ⟨by simp [quotation, hmarks, hline], ?_⟩
    have hnext : quotation.next false c = false := by simp [quotation, hmarks]
    rw [hnext]
    exact ih hcs

end Maquette.Css
