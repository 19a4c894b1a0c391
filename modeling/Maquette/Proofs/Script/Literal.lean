/-
Texts in generated code, read back. A literal in single quotes has the text that it was made of for its
value, and vector markup with its entities resolved is the text that was escaped, whatever the text
holds.
-/
import Maquette.Script
import Mathlib

namespace Maquette.Script

/-! ## Literals -/

/-- What a character stands for behind a backslash. Escapes by number and line continuations are not
read. -/
def unescaped? (c : Char) : Option Char :=
  if c = 'n' then some '\n'
  else if c = 'r' then some '\r'
  else if c = 't' then some '\t'
  else if c = 'b' then some '\x08'
  else if c = 'f' then some '\x0c'
  else if c = 'v' then some '\x0b'
  else if c = 'x' ∨ c = 'u' ∨ c = '\n' ∨ c = '\r' ∨ c.isDigit then none
  else some c

/-- The value of a literal that was opened with a quotation mark, and what stands behind it; the flag
says whether a backslash stands before. A literal cannot go beyond its line. -/
def unquote (mark : Char) : Bool → List Char → Option (List Char × List Char)
  | _, [] => none
  | true, c :: rest => do
    let d ← unescaped? c
    let (value, rest) ← unquote mark false rest
    return (d :: value, rest)
  | false, c :: rest =>
    if c = mark then some ([], rest)
    else if c = '\\' then unquote mark true rest
    else if c = '\n' ∨ c = '\r' then none
    else do
      let (value, rest) ← unquote mark false rest
      return (c :: value, rest)

/-- The value of a text that is one literal in single quotes. -/
def literalValue? (s : String) : Option String :=
  match s.toList with
  | '\'' :: rest =>
    match unquote '\'' false rest with
    | some (value, []) => some (String.ofList value)
    | _ => none
  | _ => none

example : literalValue? "'a\\'\\n'" = some "a'\n" := by decide +kernel

/-- A character between single quotes is read as itself. -/
theorem unquote_literalChar (c : Char) (cs : List Char) :
    unquote '\'' false (literalChar c ++ cs) = (unquote '\'' false cs).map fun (value, rest) => (c :: value, rest) := by
  unfold literalChar
  split_ifs with hslash hquote hfeed hreturn
  · subst hslash; simp [unquote, unescaped?, Option.map_eq_bind]
  · subst hquote; simp [unquote, unescaped?, Option.map_eq_bind]
  · subst hfeed; simp [unquote, unescaped?, Option.map_eq_bind]
  · subst hreturn; simp [unquote, unescaped?, Option.map_eq_bind]
  · simp [unquote, hslash, hquote, hfeed, hreturn, Option.map_eq_bind]

/-- What is read behind the opening quote is the text, up to the closing quote. -/
theorem unquote_literal (cs rest : List Char) :
    unquote '\'' false (cs.flatMap literalChar ++ '\'' :: rest) = some (cs, rest) := by
  induction cs with
  | nil => simp [unquote]
  | cons c cs ih => rw [List.flatMap_cons, List.append_assoc, unquote_literalChar, ih]; rfl

theorem toList_literal (s : String) :
    (literal s).toList = '\'' :: (s.toList.flatMap literalChar ++ ['\'']) := by
  rw [literal, String.toList_ofList, List.cons_append]

/-- A literal has the text that it was made of for its value. -/
theorem literalValue_literal (s : String) : literalValue? (literal s) = some s := by
  rw [literalValue?, toList_literal]
  simp only [unquote_literal, String.ofList_toList]

/-! ## Entities -/

/-- The entities that every reader of vector markup knows by name. -/
def namedEntities : List (List Char × Char) :=
  [(['a', 'm', 'p'], '&'), (['l', 't'], '<'), (['g', 't'], '>'), (['q', 'u', 'o', 't'], '"'),
   (['a', 'p', 'o', 's'], '\'')]

/-- The character that stands between an ampersand and a semicolon, by its name or its number. -/
def entityChar? : List Char → Option Char
  | '#' :: 'x' :: digits =>
    (digits.foldlM (fun n c => (Text.hexDigit? c).map (16 * n + ·)) 0).map Char.ofNat
  | name => namedEntities.lookup name

/-- A text with its entities resolved; none if it holds a quotation mark, a tag or an ampersand that is
not written as an entity. The first argument is what was read of an entity. -/
def resolveFrom : Option (List Char) → List Char → Option (List Char)
  | none, [] => some []
  | some _, [] => none
  | none, c :: rest =>
    if c = '&' then resolveFrom (some []) rest
    else if c = '<' ∨ c = '>' ∨ c = '"' ∨ c = '\'' then none
    else (resolveFrom none rest).map (c :: ·)
  | some name, c :: rest =>
    if c = ';' then do
      let d ← entityChar? name
      let cs ← resolveFrom none rest
      return d :: cs
    else resolveFrom (some (name ++ [c])) rest

def resolve? (s : String) : Option String := (resolveFrom none s.toList).map String.ofList

example : resolve? "a &lt;&#x41;" = some "a <A" := by decide +kernel

example : resolve? "a < b" = none := by decide +kernel

/-- An escaped text holds nothing that begins a tag or ends an attribute. -/
theorem mem_escaped {s : String} {c : Char} (h : c ∈ (escaped s).toList) : c ≠ '<' ∧ c ≠ '>' ∧ c ≠ '"' := by
  rw [escaped, Text.substitute, String.toList_ofList] at h
  obtain ⟨e, -, hc⟩ := List.mem_flatMap.1 h
  unfold entity at hc
  split_ifs at hc with hamp hless hgreater hquote hmark
  · simp at hc; rcases hc with rfl | rfl | rfl | rfl | rfl <;> decide
  · simp at hc; rcases hc with rfl | rfl | rfl | rfl <;> decide
  · simp at hc; rcases hc with rfl | rfl | rfl | rfl <;> decide
  · simp at hc; rcases hc with rfl | rfl | rfl | rfl | rfl | rfl <;> decide
  · simp at hc; rcases hc with rfl | rfl | rfl | rfl | rfl | rfl <;> decide
  · rw [List.mem_singleton.1 hc]
    exact ⟨hless, hgreater, hquote⟩

/-- An entity is read up to its semicolon. -/
theorem resolveFrom_name (read name cs : List Char) (h : ';' ∉ name) :
    resolveFrom (some read) (name ++ ';' :: cs) =
      (entityChar? (read ++ name)).bind fun d => (resolveFrom none cs).map (d :: ·) := by
  induction name generalizing read with
  | nil => simp [resolveFrom, Option.map_eq_bind]
  | cons c name ih =>
    rw [List.mem_cons, not_or] at h
    rw [List.cons_append, resolveFrom, if_neg (Ne.symm h.1), ih _ h.2, List.append_assoc,
      List.singleton_append]

theorem resolveFrom_named (name cs : List Char) {c : Char} (h : ';' ∉ name)
    (hc : entityChar? name = some c) :
    resolveFrom none ('&' :: (name ++ ';' :: cs)) = (resolveFrom none cs).map (c :: ·) := by
  rw [resolveFrom, if_pos rfl, resolveFrom_name _ _ _ h, List.nil_append, hc, Option.bind_some]

/-- An escaped character is read as itself. -/
theorem resolveFrom_entity (c : Char) (cs : List Char) :
    resolveFrom none (entity c ++ cs) = (resolveFrom none cs).map (c :: ·) := by
  unfold entity
  split_ifs with hamp hless hgreater hquote hmark
  · subst hamp; simpa using resolveFrom_named ['a', 'm', 'p'] cs (by decide) rfl
  · subst hless; simpa using resolveFrom_named ['l', 't'] cs (by decide) rfl
  · subst hgreater; simpa using resolveFrom_named ['g', 't'] cs (by decide) rfl
  · subst hquote; simpa using resolveFrom_named ['q', 'u', 'o', 't'] cs (by decide) rfl
  · subst hmark; simpa using resolveFrom_named ['#', 'x', '2', '7'] cs (by decide) rfl
  · simp [resolveFrom, hamp, hless, hgreater, hquote, hmark]

/-- An escaped text is read as itself. -/
theorem resolve_escaped (s : String) : resolve? (escaped s) = some s := by
  have hall : ∀ cs : List Char, resolveFrom none (cs.flatMap entity) = some cs := by
    intro cs
    induction cs with
    | nil => rfl
    | cons c cs ih => rw [List.flatMap_cons, resolveFrom_entity, ih]; rfl
  rw [resolve?, escaped, Text.substitute, String.toList_ofList, hall, Option.map_some,
    String.ofList_toList]

end Maquette.Script
