/-
The class list of an element, evaluated from the code that gathers it: a list of texts and names, some of
which count only if a name has a value. A text is guarded by its own value as well, so an empty one lets
nothing through. Templates put the value of a name between words, or what the helper for class names
makes of it.
-/
import Maquette.Css
import Maquette.Proofs.Naming.Lettered
import Maquette.Proofs.Script.Literal

namespace Maquette.Script

open Naming (Lettered)
open Text (isLettered)

/-! ## Values -/

/-- What names stand for: a text, or nothing. -/
abbrev Scope := String → Option String

/-- Whether a value lets through what it guards. -/
def isGiven (value : Option String) : Bool := value.any (!·.isEmpty)

/-- A value as a text. -/
def written (value : Option String) : String := value.getD "undefined"

/-- The lines that define the helper for class names. -/
def helperLines : List String :=
  ["const toClassName = (value: string) =>",
   "  value.toLowerCase().replace(/[^a-z0-9]+/g, '-').replace(/^-+|-+$/g, '') || 'x';", ""]

/-- What the helper does: a text in small letters, with a hyphen for every run of other characters than
letters and digits; without the hyphens in front, without those at the end, and a letter for nothing. -/
def slug (s : String) : String :=
  let fused := Text.fuse (!Css.isSegmentChar ·) '-' false (Text.lower s).toList
  let bare := Text.dropEnd (· == '-') (fused.dropWhile (· == '-'))
  if bare.isEmpty then "x" else String.ofList bare

/-- The helper that lines define. -/
def helper? (lines : List String) : Option (String → String) :=
  if lines = helperLines then some slug else none

/-- The helper makes of a value the part of a class name that style sheets have for it. -/
theorem slug_eq (s : String) : slug s = Css.segment s := by
  unfold slug Css.segment Text.trim
  dsimp only
  cases Text.dropEnd _ _ <;> rfl

/-! ## Templates -/

section Evaluation

variable (scope : Scope) (helper : Option (String → String))

/-- What a template has in the place of a name, or of the helper called with a name. -/
def hole? (cs : List Char) : Option String :=
  match Text.dropPrefix? "toClassName(String(".toList cs with
  | some rest =>
    let name := rest.takeWhile isLettered
    if rest = name ++ [')', ')'] then helper.map (· (written (scope (String.ofList name)))) else none
  | none => if cs.all isLettered then some (written (scope (String.ofList cs))) else none

/-- The value of a template up to its end, and what stands behind it; the first argument is what was read
of a hole. -/
def template? : Option (List Char) → List Char → Option (List Char × List Char)
  | _, [] => none
  | none, '$' :: '\x7b' :: rest => template? (some []) rest
  | none, c :: rest =>
    if c = '\x60' then some ([], rest)
    else if c = '\\' then none
    else (template? none rest).map fun (value, rest) => (c :: value, rest)
  | some hole, c :: rest =>
    if c = '\x7d' then
      (hole? scope helper hole).bind fun v =>
        (template? none rest).map fun (value, rest) => (v.toList ++ value, rest)
    else template? (some (hole ++ [c])) rest

/-- The value of a literal or a template that an entry ends with. -/
def operand? (cs : List Char) : Option String :=
  match cs with
  | '\'' :: rest =>
    match unquote '\'' false rest with
    | some (value, [',']) => some (String.ofList value)
    | _ => none
  | '\x60' :: rest =>
    match template? scope helper none rest with
    | some (value, [',']) => some (String.ofList value)
    | _ => none
  | _ => none

/-! ## Entries -/

/-- The texts that stand behind a name with a value: the value itself, or a text behind a condition on
it, that it lets something through or that it is not a certain text. -/
def guarded? (value : Option String) (cs : List Char) : Option (List String) :=
  if cs = [','] then some value.toList
  else
    match Text.dropPrefix? " && ".toList cs with
    | some operand => if isGiven value then (operand? scope helper operand).map ([·]) else some []
    | none => do
      let text ← Text.dropPrefix? " !== '".toList cs
      let (other, rest) ← unquote '\'' false text
      let operand ← Text.dropPrefix? " && ".toList rest
      if value = some (String.ofList other) then return []
      return [← operand? scope helper operand]

/-- The texts that an entry of the list adds: a text, or what begins with a name. -/
def item? (cs : List Char) : Option (List String) :=
  if cs.head? = some '\'' then (operand? scope helper cs).map ([·])
  else guarded? scope helper (scope (String.ofList (cs.takeWhile isLettered)))
    (cs.dropWhile isLettered)

/-- The texts of a list: those of its entries, each on a line, and then the line that ends it. -/
def texts? : List String → Option (List String)
  | [] => none
  | [last] => if last = "  ].filter(Boolean).join(' ');" then some [] else none
  | line :: next :: rest => do
    let own ← (Text.dropPrefix? (indent 2).toList line.toList).bind (item? scope helper)
    return own ++ (← texts? (next :: rest))

/-- The class attribute that lines of code define: the texts that are not empty, with blanks between
them. -/
def className? : List String → Option String
  | [] => none
  | first :: rest =>
    if first = "  const componentClassName = [" then
      (texts? scope helper rest).map fun texts => " ".intercalate (texts.filter (!·.isEmpty))
    else none

end Evaluation

/-- The classes of a class attribute. -/
def classes (value : String) : List String :=
  (Text.words (· == ' ') value.toList).map String.ofList

example : (className? (fun _ => some "A b") (helper? helperLines)
    ["  const componentClassName = [", "    'tag',",
     "    size && \x60tag--size-$\x7btoClassName(String(size))\x7d\x60,",
     "  ].filter(Boolean).join(' ');"]).map classes = some ["tag", "tag--size-a-b"] := by
  decide +kernel

/-! ## What is evaluated -/

section Lemmas

variable {scope : Scope} {helper : Option (String → String)} {cs rest : List Char}

/-- Words of a template stand for themselves. -/
theorem template?_words (h : ∀ c ∈ cs, c ≠ '\x60' ∧ c ≠ '\\' ∧ c ≠ '$') :
    template? scope helper none (cs ++ rest) =
      (template? scope helper none rest).map fun (value, rest) => (cs ++ value, rest) := by
  induction cs with
  | nil => simp
  | cons c cs ih =>
    obtain ⟨⟨hmark, hslash, hdollar⟩, hcs⟩ := List.forall_mem_cons.1 h
    have hstep : ∀ rest, template? scope helper none (c :: rest) =
        (template? scope helper none rest).map fun (value, rest) => (c :: value, rest) := by
      intro rest
      rw [template?, if_neg hmark, if_neg hslash]
      exact fun _ hc => absurd hc hdollar
    rw [List.cons_append, hstep, ih hcs, Option.map_map]
    rfl

/-- A hole is read up to the brace that closes it. -/
theorem template?_hole {hole : List Char} (h : '\x7d' ∉ hole) {value : String}
    (hv : hole? scope helper hole = some value) :
    template? scope helper none ('$' :: '\x7b' :: (hole ++ '\x7d' :: rest)) =
      (template? scope helper none rest).map fun (text, rest) => (value.toList ++ text, rest) := by
  have hread : ∀ ahead begun, '\x7d' ∉ ahead → begun ++ ahead = hole →
      template? scope helper (some begun) (ahead ++ '\x7d' :: rest) =
        (template? scope helper none rest).map fun (text, rest) => (value.toList ++ text, rest) := by
    intro ahead
    induction ahead with
    | nil =>
      intro begun _ hhole
      rw [List.append_nil] at hhole
      rw [List.nil_append, template?, if_pos rfl, hhole, hv, Option.bind_some]
    | cons c ahead ih =>
      intro begun hnot hhole
      rw [List.mem_cons, not_or] at hnot
      rw [List.cons_append, template?, if_neg (Ne.symm hnot.1)]
      exact ih _ hnot.2 (by rw [List.append_assoc, List.singleton_append, hhole])
  rw [template?]
  exact hread hole [] h rfl

/-- The characters of a name are told from those behind it. -/
theorem name_span {name : List Char} (h : Lettered name) {c : Char} (hc : isLettered c = false)
    (rest : List Char) : (name ++ c :: rest).takeWhile isLettered = name ∧
      (name ++ c :: rest).dropWhile isLettered = c :: rest := by
  rw [List.takeWhile_append_of_pos h, List.dropWhile_append_of_pos h, List.takeWhile_cons_of_neg (by simp [hc]),
    List.dropWhile_cons_of_neg (by simp [hc]), List.append_nil]
  exact ⟨rfl, rfl⟩

theorem hole?_call {name : String} (hname : Lettered name.toList) (f : String → String) :
    hole? scope (some f) ("toClassName(String(".toList ++ (name.toList ++ [')', ')'])) =
      some (f (written (scope name))) := by
  have hspan := (name_span hname (show isLettered ')' = false from rfl) [')']).1
  rw [hole?, Text.dropPrefix?_eq_some.2 rfl]
  dsimp only
  rw [hspan, if_pos rfl, String.ofList_toList]
  rfl

theorem item?_literal (scope : Scope) (helper : Option (String → String)) (s : String) :
    item? scope helper ((literal s).toList ++ [',']) = some [s] := by
  have htext : (literal s).toList ++ [','] =
      '\'' :: (s.toList.flatMap literalChar ++ '\'' :: [',']) := by
    rw [toList_literal, List.cons_append, List.append_assoc, List.singleton_append]
  rw [htext, item?, List.head?_cons, if_pos rfl, operand?, unquote_literal]
  simp

/-- An entry that begins with a name. -/
theorem item?_of_name {name : String} (h : Lettered name.toList) {c : Char} (hc : isLettered c = false)
    (hmark : c ≠ '\'') : item? scope helper (name.toList ++ c :: rest) =
      guarded? scope helper (scope name) (c :: rest) := by
  have hhead : (name.toList ++ c :: rest).head? ≠ some '\'' := by
    cases hcs : name.toList with
    | nil => simpa using hmark
    | cons e cs =>
      rw [List.cons_append, List.head?_cons, Ne, Option.some.injEq]
      rintro rfl
      exact absurd (h _ (hcs ▸ List.mem_cons_self)) (by decide)
  obtain ⟨htake, hdrop⟩ := name_span h hc rest
  rw [item?, if_neg hhead, htake, hdrop, String.ofList_toList]

theorem item?_name (scope : Scope) (helper : Option (String → String)) {name : String}
    (h : Lettered name.toList) :
    item? scope helper (name.toList ++ [',']) = some (scope name).toList := by
  rw [item?_of_name h rfl (by decide), guarded?, if_pos rfl]

theorem item?_guarded (scope : Scope) (helper : Option (String → String)) {name : String}
    (h : Lettered name.toList) (operand : List Char) :
    item? scope helper (name.toList ++ (" && ".toList ++ operand)) =
      if isGiven (scope name) then (operand? scope helper operand).map ([·]) else some [] := by
  have hmark : " && ".toList ++ operand = ' ' :: ("&& ".toList ++ operand) := rfl
  rw [hmark, item?_of_name h rfl (by decide), guarded?, if_neg (by simp), ← hmark,
    Text.dropPrefix?_eq_some.2 rfl]

theorem item?_unequal (helper : Option (String → String)) {name : String} (h : Lettered name.toList)
    {other : String} (hscope : scope name = some other) (operand : List Char) :
    item? scope helper (name.toList ++
      (" !== ".toList ++ ((literal other).toList ++ (" && ".toList ++ operand)))) = some [] := by
  have htext : " !== ".toList ++ ((literal other).toList ++ (" && ".toList ++ operand)) =
      " !== '".toList ++ (other.toList.flatMap literalChar ++ '\'' :: (" && ".toList ++ operand)) := by
    rw [toList_literal, List.cons_append, List.append_assoc, List.singleton_append]
    rfl
  have hmark : ∀ rest, " !== '".toList ++ rest = ' ' :: ("!== '".toList ++ rest) := fun _ => rfl
  have hnot : Text.dropPrefix? " && ".toList (' ' :: ("!== '".toList ++
      (other.toList.flatMap literalChar ++ '\'' :: (" && ".toList ++ operand)))) = none := rfl
  rw [htext, hmark, item?_of_name h rfl (by decide), guarded?, if_neg (by simp), hnot, ← hmark,
    Text.dropPrefix?_eq_some.2 rfl]
  dsimp only [Option.bind_eq_bind, Option.bind_some]
  rw [unquote_literal]
  dsimp only [Option.bind_eq_bind, Option.bind_some]
  rw [Text.dropPrefix?_eq_some.2 rfl, Option.bind_some, if_pos (by rw [hscope, String.ofList_toList])]
  rfl

/-- A list adds what its entries add, one after the other. -/
theorem texts?_append {entries : List String} {owns : List (List String)}
    (h : List.Forall₂ (fun entry own => item? scope helper entry.toList = some own) entries owns) :
    texts? scope helper (entries.map (indent 2 ++ ·) ++ ["  ].filter(Boolean).join(' ');"]) =
      some owns.flatten := by
  induction h with
  | nil => rfl
  | @cons entry own entries owns hentry _ ih =>
    have hstep : ∀ rest : List String, rest ≠ [] → texts? scope helper ((indent 2 ++ entry) :: rest) =
        (texts? scope helper rest).map (own ++ ·) := by
      intro rest hne
      obtain ⟨next, rest, rfl⟩ := List.exists_cons_of_ne_nil hne
      rw [texts?, String.toList_append, Text.dropPrefix?_eq_some.2 rfl, Option.bind_some, hentry]
      simp [Option.map_eq_bind]
    rw [List.map_cons, List.cons_append, hstep _ (by simp), ih]
    rfl

theorem classes_intercalate {texts : List String} (h : ∀ t ∈ texts, t ≠ "" ∧ ' ' ∉ t.toList) :
    classes (" ".intercalate texts) = texts := by
  have hwords : ∀ w ∈ texts.map String.toList, w ≠ [] ∧ ∀ c ∈ w, (c == ' ') = false := by
    intro w hw
    obtain ⟨t, ht, rfl⟩ := List.mem_map.1 hw
    obtain ⟨hne, hblank⟩ := h t ht
    refine ⟨by simpa using hne, fun c hc => beq_eq_false_iff_ne.2 fun he => hblank (he ▸ hc)⟩
  have hblank : " ".toList = [' '] := rfl
  rw [classes, String.toList_intercalate, hblank, Text.words_intercalate (by rfl) hwords, List.map_map]
  simp [Function.comp_def]

end Lemmas

end Maquette.Script
