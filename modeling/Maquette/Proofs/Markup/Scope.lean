/-
The names that markup uses. They do not depend on how it is laid out over lines, and markup stays
within the names that are known when its codes and the markup inside of it do.
-/
import Maquette.Proofs.Outcome
import Maquette.Markup.Basic

namespace Maquette.Markup

/-! ## Code -/

namespace Code

@[simp] theorem refs_nil : refs [] = [] := rfl

@[simp] theorem refs_raw (s : String) (c : Code) : refs (.raw s :: c) = refs c := rfl

@[simp] theorem refs_ref (name : String) (c : Code) : refs (.ref name :: c) = name :: refs c := rfl

@[simp] theorem refs_bind (name : String) (c : Code) : refs (.bind name :: c) = refs c := rfl

@[simp] theorem refs_literal (s : String) (c : Code) : refs (.literal s :: c) = refs c := rfl

@[simp] theorem refs_quoted (s : String) (c : Code) : refs (.quoted s :: c) = refs c := rfl

@[simp] theorem refs_append (c d : Code) : refs (c ++ d) = refs c ++ refs d :=
  List.filterMap_append

@[simp] theorem refs_braced (c : Code) : refs c.braced = refs c := by simp [braced]

@[simp] theorem binds_nil : binds [] = [] := rfl

@[simp] theorem binds_raw (s : String) (c : Code) : binds (.raw s :: c) = binds c := rfl

@[simp] theorem binds_ref (name : String) (c : Code) : binds (.ref name :: c) = binds c := rfl

@[simp] theorem binds_bind (name : String) (c : Code) :
    binds (.bind name :: c) = name :: binds c := rfl

@[simp] theorem binds_literal (s : String) (c : Code) : binds (.literal s :: c) = binds c := rfl

@[simp] theorem binds_quoted (s : String) (c : Code) : binds (.quoted s :: c) = binds c := rfl

@[simp] theorem binds_append (c d : Code) : binds (c ++ d) = binds c ++ binds d :=
  List.filterMap_append

/-- A literal uses no names. -/
theorem refs_ofDatum {d : Datum} {p : Piece} (h : Piece.ofDatum d = .ok p) (c : Code) :
    refs (p :: c) = refs c := by
  unfold Piece.ofDatum at h
  split at h
  · cases h; rfl
  · obtain ⟨_, -, h⟩ := Outcome.bind_ok h
    cases h; rfl
  · obtain ⟨_, -, h⟩ := Outcome.bind_ok h
    cases h; rfl
  · cases h; rfl

/-- All names that code uses are known. -/
def Scoped (known : String → Prop) (c : Code) : Prop := ∀ name ∈ c.refs, known name

theorem scoped_ref {known : String → Prop} {name : String} (h : known name) :
    Scoped known [.ref name] := by
  simpa [Scoped] using h

theorem scoped_append {known : String → Prop} {c d : Code} :
    Scoped known (c ++ d) ↔ Scoped known c ∧ Scoped known d := by
  simp only [Scoped, refs_append, List.forall_mem_append]

theorem scoped_between {known : String → Prop} (mark : String) :
    ∀ {cs : List Code}, (∀ c ∈ cs, Scoped known c) → Scoped known (between mark cs)
  | [], _ => by simp [between, Scoped]
  | [c], h => h c List.mem_cons_self
  | c :: d :: cs, h => by
    rw [between, scoped_append, scoped_append]
    · exact ⟨⟨h c List.mem_cons_self, by simp [Scoped]⟩,
        scoped_between mark fun e he => h e (List.mem_cons_of_mem _ he)⟩
    · simp

/-- Codes with a mark between them use the names of each of them. -/
theorem mem_refs_between {mark name : String} :
    ∀ {cs : List Code} {c : Code}, c ∈ cs → name ∈ c.refs → name ∈ (between mark cs).refs
  | [_], _, hc, hn => by rwa [List.mem_singleton.1 hc] at hn
  | d :: e :: cs, c, hc, hn => by
    rw [between, refs_append, refs_append, List.mem_append, List.mem_append]
    · rcases List.mem_cons.1 hc with rfl | hc
      · exact .inl (.inl hn)
      · exact .inr (mem_refs_between hc hn)
    · simp

end Code

/-! ## Lines -/

namespace Line

@[simp] theorem refs_nil : refs [] = [] := rfl

@[simp] theorem refs_cons (l : Line) (ls : List Line) : refs (l :: ls) = l.code.refs ++ refs ls := rfl

@[simp] theorem refs_append (ls ms : List Line) : refs (ls ++ ms) = refs ls ++ refs ms :=
  List.flatMap_append

@[simp] theorem binds_words (level : Int) (s : String) : (words level s).code.binds = [] := rfl

@[simp] theorem binds_blank : blank.code.binds = [] := rfl

@[simp] theorem refs_words (level : Int) (s : String) : (words level s).code.refs = [] := rfl

@[simp] theorem refs_blank : blank.code.refs = [] := rfl

@[simp] theorem binds_nil : binds [] = [] := rfl

@[simp] theorem binds_cons (l : Line) (ls : List Line) :
    binds (l :: ls) = l.code.binds ++ binds ls := rfl

@[simp] theorem binds_append (ls ms : List Line) : binds (ls ++ ms) = binds ls ++ binds ms :=
  List.flatMap_append

end Line

/-! ## Elements -/

@[simp] theorem Attribute.refs_text (name value : String) :
    (Attribute.text name value).toCode.refs = [] := by
  rw [Attribute.toCode]; split <;> rfl

@[simp] theorem Attribute.refs_flag (name : String) : (Attribute.flag name).toCode.refs = [] := rfl

@[simp] theorem Attribute.refs_code (name : String) (value : Code) :
    (Attribute.code name value).toCode.refs = value.refs := by
  simp [Attribute.toCode]

/-- A typed attribute uses no names. -/
theorem Attribute.refs_ofDatum {name : String} {d : Datum} {a : Attribute}
    (h : Attribute.ofDatum name d = .ok a) : a.toCode.refs = [] := by
  unfold Attribute.ofDatum at h
  split at h
  · cases h; rfl
  · obtain ⟨_, -, h⟩ := Outcome.bind_ok h
    cases h; rfl
  · obtain ⟨_, -, h⟩ := Outcome.bind_ok h
    cases h; rfl
  · cases h; exact refs_text _ _

@[simp] theorem refs_textCode (s : String) : (textCode s).refs = [] := by
  unfold textCode
  split
  · rfl
  · split <;> rfl

@[simp] theorem refs_plain (name : String) : (Tag.plain name).code.refs = [] := rfl

@[simp] theorem refs_closing (tag : Tag) : (closing tag).refs = tag.code.refs := by simp [closing]

/-- The names that attributes use. -/
def attributeNames (attributes : List Attribute) : List String :=
  attributes.flatMap fun a => a.toCode.refs

theorem refs_attributesCode (attributes : List Attribute) :
    (attributesCode attributes).refs = attributeNames attributes := by
  unfold attributesCode
  induction attributes with
  | nil => rfl
  | cons a rest ih =>
    rw [List.flatMap_cons, Code.refs_append, ih]
    rfl

@[simp] theorem refs_opening (tag : Tag) (attributes : List Attribute) :
    (opening tag attributes).refs = tag.code.refs ++ attributeNames attributes := by
  simp [opening, refs_attributesCode]

/-- The lines of attributes use the names of the attributes. -/
theorem refs_attributeLines (level : Int) (attributes : List Attribute) :
    Line.refs (attributes.map fun a => ⟨level, a.toCode⟩) = attributeNames attributes := by
  rw [Line.refs, List.flatMap_map]
  rfl

/-! ## Layout -/

mutual

/-- The names that markup uses, from its front to its end. -/
def names : Markup → List String
  | .text _ => []
  | .expr c => c.refs
  | .element _ tag attributes children =>
    tag.code.refs ++ attributeNames attributes ++
      if children.isEmpty then [] else allNames children ++ tag.code.refs
  | .guarded name child => name :: names child

def allNames : List Markup → List String
  | [] => []
  | m :: rest => names m ++ allNames rest

end

mutual

theorem refs_toCode (m : Markup) : m.toCode.refs = m.names := by
  cases m with
  | text s => exact refs_textCode s
  | expr c => exact Code.refs_braced c
  | element layout tag attributes children =>
    rw [toCode, names]
    cases children with
    | nil => simp
    | cons m rest =>
      rw [if_neg (by simp), if_neg (by simp)]
      simp only [Code.refs_append, refs_opening, refs_allCode (m :: rest), refs_closing]
      simp
  | guarded name child =>
    rw [toCode, names]
    simp [refs_toCode child]

theorem refs_allCode (ms : List Markup) : (allCode ms).refs = allNames ms := by
  match ms with
  | [] => rfl
  | m :: rest => rw [allCode, allNames, Code.refs_append, refs_toCode m, refs_allCode rest]

end

mutual

/-- Laid out over lines at any level, markup uses the same names. -/
theorem refs_lines (level : Int) (m : Markup) : Line.refs (m.lines level) = m.names := by
  match m with
  | .text s => simp [lines, names]
  | .expr c => simp [lines, names]
  | .element .inline tag attributes children =>
    rw [lines, Line.refs_cons, Line.refs_nil, List.append_nil, refs_toCode]
  | .element (.block step) tag attributes children =>
    rw [lines, names]
    -- an element without children has no closing tag
    cases children with
    | nil => simp
    | cons m rest =>
      rw [if_neg (by simp), if_neg (by simp)]
      simp only [Line.refs_append, Line.refs_cons, Line.refs_nil, refs_allLines _ (m :: rest)]
      simp
  | .element (.spread step) tag attributes children =>
    rw [lines, names]
    cases children with
    | nil => simp [refs_attributeLines]
    | cons m rest =>
      rw [if_neg (by simp), if_neg (by simp)]
      simp only [Line.refs_append, Line.refs_cons, Line.refs_nil, refs_allLines _ (m :: rest),
        refs_attributeLines]
      simp
  | .guarded name child =>
    rw [lines]
    split
    · rw [names]
      simp [refs_lines (level + 1) child]
    · rw [Line.refs_cons, Line.refs_nil, List.append_nil, refs_toCode]

theorem refs_allLines (level : Int) (ms : List Markup) :
    Line.refs (allLines level ms) = allNames ms := by
  match ms with
  | [] => rfl
  | m :: rest => rw [allLines, allNames, Line.refs_append, refs_lines level m, refs_allLines level rest]

end

theorem refs_eq (ms : List Markup) : refs ms = allNames ms := refs_allLines 0 ms

/-! ## Known names -/

/-- All names that markup uses are known. -/
def Scoped (known : String → Prop) (m : Markup) : Prop := ∀ name ∈ m.names, known name

section Scoped

variable {known : String → Prop}

theorem mem_allNames {ms : List Markup} {name : String} :
    name ∈ allNames ms ↔ ∃ m ∈ ms, name ∈ m.names := by
  induction ms with
  | nil => simp [allNames]
  | cons m rest ih => simp [allNames, ih]

theorem scoped_attribute (name value : String) : (Attribute.text name value).toCode.Scoped known := by
  simp [Code.Scoped]

theorem scoped_codeAttribute (name : String) {c : Code} (h : c.Scoped known) :
    (Attribute.code name c).toCode.Scoped known := by
  simpa [Code.Scoped] using h

theorem scoped_plain (name : String) : (Tag.plain name).code.Scoped known := by
  simp [Code.Scoped]

theorem scoped_text (s : String) : Scoped known (.text s) := by simp [Scoped, names]

theorem scoped_expr {c : Code} (h : c.Scoped known) : Scoped known (.expr c) := by
  rw [Scoped, names]; exact h

theorem scoped_guarded {name : String} {child : Markup} (h : known name) (hc : Scoped known child) :
    Scoped known (.guarded name child) := by
  rw [Scoped, names]; exact List.forall_mem_cons.2 ⟨h, hc⟩

theorem scoped_element {layout : Layout} {tag : Tag} {attributes : List Attribute}
    {children : List Markup} (ht : tag.code.Scoped known)
    (ha : ∀ a ∈ attributes, a.toCode.Scoped known) (hc : ∀ m ∈ children, Scoped known m) :
    Scoped known (.element layout tag attributes children) := by
  intro name hname
  rw [names, List.mem_append, List.mem_append] at hname
  rcases hname with (hname | hname) | hname
  · exact ht name hname
  · obtain ⟨a, ham, hname⟩ := List.mem_flatMap.1 hname
    exact ha a ham name hname
  · split at hname
    · cases hname
    · rcases List.mem_append.1 hname with hname | hname
      · obtain ⟨m, hm, hname⟩ := mem_allNames.1 hname
        exact hc m hm name hname
      · exact ht name hname

end Scoped

end Maquette.Markup
