/-
Literals as the language reads them. A text is the sequence of its UTF-16 units; behind a backslash
stands a letter, a number in two, four or, in braces, any number of hexadecimal digits, or the end of a
line, which goes on with the next one.

A text between quotation marks has the text that it was made of for its value, in single quotes and as
JSON writes it alike. Both are shown character by character: what is written for a character is read as
its units, whatever stands behind it.
-/
import Maquette.Datum.Writer
import Maquette.Proofs.Script.Literal

namespace Maquette.Script

/-! ## Units -/

/-- The UTF-16 units of a code point. -/
def pointUnits (n : Nat) : List Nat :=
  if n < 0x10000 then [n] else [0xd800 + (n - 0x10000) / 0x400, 0xdc00 + (n - 0x10000) % 0x400]

def charsUnits (cs : List Char) : List Nat := cs.flatMap fun c => pointUnits c.toNat

/-- The value of a text. -/
def codeUnits (s : String) : List Nat := charsUnits s.toList

theorem charsUnits_append (a b : List Char) : charsUnits (a ++ b) = charsUnits a ++ charsUnits b :=
  List.flatMap_append

theorem pointUnits_length (n : Nat) : 1 ≤ (pointUnits n).length ∧ (pointUnits n).length ≤ 2 := by
  unfold pointUnits
  split <;> simp

/-- The first units tell which character they belong to: none of a single unit is half of a pair. -/
theorem pointUnits_append {c d : Char} {a b : List Nat}
    (h : pointUnits c.toNat ++ a = pointUnits d.toNat ++ b) : c = d ∧ a = b := by
  have hvalid : ∀ e : Char, e.toNat < 0xd800 ∨ 0xdfff < e.toNat ∧ e.toNat < 0x110000 := fun e => e.valid
  have hc := hvalid c
  have hd := hvalid d
  unfold pointUnits at h
  split at h <;> split at h <;> simp only [List.cons_append, List.nil_append, List.cons.injEq] at h
  · exact ⟨Char.toNat_inj.1 h.1, h.2⟩
  · omega
  · omega
  · exact ⟨Char.toNat_inj.1 (by omega), h.2.2⟩

theorem charsUnits_injective : Function.Injective charsUnits := by
  intro cs
  induction cs with
  | nil =>
    intro ds h
    cases ds with
    | nil => rfl
    | cons d ds =>
      have hlength := congrArg List.length h
      have hd := pointUnits_length d.toNat
      simp only [charsUnits, List.flatMap_nil, List.length_nil, List.flatMap_cons, List.length_append]
        at hlength
      omega
  | cons c cs ih =>
    intro ds h
    cases ds with
    | nil =>
      have hlength := congrArg List.length h
      have hc := pointUnits_length c.toNat
      simp only [charsUnits, List.flatMap_nil, List.length_nil, List.flatMap_cons, List.length_append]
        at hlength
      omega
    | cons d ds =>
      obtain ⟨rfl, hrest⟩ := pointUnits_append h
      rw [ih hrest]

/-- Different texts have different units. -/
theorem codeUnits_injective : Function.Injective codeUnits := fun _ _ h =>
  String.toList_injective (charsUnits_injective h)

/-! ## Reading -/

/-- Where the next character of a literal stands. -/
inductive LiteralPlace where
  | plain
  /-- Right behind a backslash. -/
  | escape
  /-- Among the digits of a number in braces. -/
  | braces (read : Option Nat)

/-- The number that hexadecimal digits spell. -/
def hexNumber? (digits : List Char) : Option Nat :=
  digits.foldlM (fun n c => (Text.hexDigit? c).map (16 * n + ·)) 0

def isLineEnd (c : Char) : Bool := c = '\n' || c = '\r' || c = '\u2028' || c = '\u2029'

/-- Units in front of a value. -/
def ahead (units : List Nat) : List Nat × List Char → List Nat × List Char
  | (value, rest) => (units ++ value, rest)

/-- The value of a literal behind its opening mark, and what stands behind the literal. -/
def valueFrom (mark : Char) : LiteralPlace → List Char → Option (List Nat × List Char)
  | _, [] => none
  | .plain, c :: rest =>
    if c = mark then some ([], rest)
    else if c = '\\' then valueFrom mark .escape rest
    else if c = '\n' ∨ c = '\r' then none
    else (valueFrom mark .plain rest).map (ahead (pointUnits c.toNat))
  | .escape, '\r' :: '\n' :: rest => valueFrom mark .plain rest
  | .escape, 'x' :: a :: b :: rest =>
    (hexNumber? [a, b]).bind fun n => (valueFrom mark .plain rest).map (ahead [n])
  | .escape, 'u' :: '\x7b' :: rest => valueFrom mark (.braces none) rest
  | .escape, 'u' :: a :: b :: c :: d :: rest =>
    (hexNumber? [a, b, c, d]).bind fun n => (valueFrom mark .plain rest).map (ahead [n])
  | .escape, c :: rest =>
    if isLineEnd c then valueFrom mark .plain rest
    else if c = '0' ∧ rest.head?.any Char.isDigit = false then
      (valueFrom mark .plain rest).map (ahead [0])
    else (unescaped? c).bind fun d => (valueFrom mark .plain rest).map (ahead (pointUnits d.toNat))
  | .braces read, c :: rest =>
    if c = '\x7d' then
      read.bind fun n =>
        if n < 0x110000 then (valueFrom mark .plain rest).map (ahead (pointUnits n)) else none
    else
      (Text.hexDigit? c).bind fun digit => valueFrom mark (.braces (some (16 * read.getD 0 + digit))) rest

/-- The value of the literal that a text begins with, and what stands behind it. -/
def literal? : List Char → Option (List Nat × List Char)
  | '\'' :: rest => valueFrom '\'' .plain rest
  | '"' :: rest => valueFrom '"' .plain rest
  | _ => none

example : literal? "'\\x41\\u{1f600}\\ud83d\\ude00\\0'+".toList =
    some (codeUnits "A😀😀\x00", ['+']) := by decide +kernel

example : literal? "'a\nb'".toList = none := by decide +kernel

/-! ## What is written -/

/-- What is written for a character between two marks is read as the character. -/
def IsEncoding (mark : Char) (f : Char → List Char) : Prop :=
  ∀ c rest, valueFrom mark .plain (f c ++ rest) =
    (valueFrom mark .plain rest).map (ahead (pointUnits c.toNat))

theorem IsEncoding.value {mark : Char} {f : Char → List Char} (h : IsEncoding mark f)
    (cs rest : List Char) :
    valueFrom mark .plain (cs.flatMap f ++ mark :: rest) = some (charsUnits cs, rest) := by
  induction cs with
  | nil => simp [valueFrom, charsUnits]
  | cons c cs ih => rw [List.flatMap_cons, List.append_assoc, h, ih]; rfl

theorem isEncoding_literalChar : IsEncoding '\'' literalChar := by
  intro c rest
  unfold literalChar
  split_ifs with hslash hquote hfeed hreturn
  · subst hslash; rfl
  · subst hquote; rfl
  · subst hfeed; rfl
  · subst hreturn; rfl
  · simp [valueFrom, hslash, hquote, hfeed, hreturn]

/-- The number of a control character is written in four digits. -/
theorem hex_control : ∀ n < 32, ∃ a b c d, (hex 4 n).toList = [a, b, c, d] ∧ a ≠ '\x7b' ∧
    hexNumber? [a, b, c, d] = some n := by
  intro n hn
  interval_cases n <;> exact ⟨_, _, _, _, rfl, by decide, rfl⟩

theorem isEncoding_jsonChar : IsEncoding '"' jsonChar := by
  intro c rest
  unfold jsonChar
  split_ifs with hquote hslash hfeed hreturn htab hback hform hcontrol
  · subst hquote; rfl
  · subst hslash; rfl
  · subst hfeed; rfl
  · subst hreturn; rfl
  · subst htab; rfl
  · subst hback; rfl
  · subst hform; rfl
  · obtain ⟨a, b, d, e, hdigits, hbrace, hnumber⟩ := hex_control c.toNat hcontrol
    have hunits : pointUnits c.toNat = [c.toNat] := if_pos (by omega)
    rw [String.toList_append, hdigits, hunits]
    simp [valueFrom, hnumber]
  · simp [valueFrom, hquote, hslash, hfeed, hreturn]

/-- A literal is read as the text that it was made of. -/
theorem literal?_literal (s : String) (rest : List Char) :
    literal? ((literal s).toList ++ rest) = some (codeUnits s, rest) := by
  have h := isEncoding_literalChar.value s.toList rest
  rw [toList_literal, List.cons_append, List.append_assoc, List.singleton_append]
  exact h

/-- Different texts are written differently between the marks. -/
theorem flatMap_literalChar_injective :
    Function.Injective fun cs : List Char => cs.flatMap literalChar := by
  intro cs ds h
  have hcs := isEncoding_literalChar.value cs []
  have hds := isEncoding_literalChar.value ds []
  have hunits := hcs.symm.trans ((congrArg (fun e => valueFrom '\'' .plain (e ++ ['\''])) h).trans hds)
  exact charsUnits_injective (Prod.mk.inj (Option.some.inj hunits)).1

theorem literal_injective : Function.Injective literal := by
  intro s t h
  have hlists := congrArg String.toList h
  rw [toList_literal, toList_literal] at hlists
  exact String.toList_injective
    (flatMap_literalChar_injective (List.append_cancel_right (List.cons.inj hlists).2))

theorem literal?_jsonText (s : String) (rest : List Char) :
    literal? ((jsonText s).toList ++ rest) = some (codeUnits s, rest) := by
  have h := isEncoding_jsonChar.value s.toList rest
  rw [jsonText, String.toList_ofList, List.cons_append, List.cons_append, List.append_assoc,
    List.singleton_append]
  exact h

/-! ## Well-formedness -/

/-- How many backslashes a text ends with. -/
def slashes (cs : List Char) : Nat := (cs.reverse.takeWhile (· = '\\')).length

theorem slashes_snoc (cs : List Char) (c : Char) :
    slashes (cs ++ [c]) = if c = '\\' then slashes cs + 1 else 0 := by
  rw [slashes, List.reverse_append, List.reverse_singleton, List.singleton_append, List.takeWhile_cons]
  by_cases hc : c = '\\' <;> simp [hc, slashes]

/-- A text between two marks, on one line; an odd number of backslashes stands before each mark within,
and an even one before the last. -/
def IsQuoted (mark : Char) (cs : List Char) : Prop :=
  ∃ inner, cs = mark :: (inner ++ [mark]) ∧ '\n' ∉ inner ∧ '\r' ∉ inner ∧ Even (slashes inner) ∧
    ∀ before after, inner = before ++ mark :: after → Odd (slashes before)

/-- What is written for a character: the character, or a backslash and a mark or letter. -/
theorem literalChar_cases (c : Char) :
    literalChar c = [c] ∧ c ≠ '\\' ∧ c ≠ '\'' ∧ c ≠ '\n' ∧ c ≠ '\r' ∨
      ∃ e, literalChar c = ['\\', e] ∧ e ≠ '\n' ∧ e ≠ '\r' := by
  unfold literalChar
  split_ifs with hslash hquote hfeed hreturn
  · exact .inr ⟨_, rfl, by decide, by decide⟩
  · exact .inr ⟨_, rfl, by decide, by decide⟩
  · exact .inr ⟨_, rfl, by decide, by decide⟩
  · exact .inr ⟨_, rfl, by decide, by decide⟩
  · exact .inl ⟨rfl, hslash, hquote, hfeed, hreturn⟩

theorem mem_literalChar {c e : Char} (h : e ∈ literalChar c) : e ≠ '\n' ∧ e ≠ '\r' := by
  rcases literalChar_cases c with ⟨hc, -, -, hends⟩ | ⟨d, hc, hends⟩ <;> rw [hc] at h
  · rw [List.mem_singleton] at h
    exact h ▸ hends
  · rcases List.mem_cons.1 h with rfl | h
    · decide
    · rw [List.mem_singleton] at h
      exact h ▸ hends

/-- A single quote is only written right behind a backslash. -/
theorem quote_in_literalChar {c : Char} {before after : List Char}
    (h : literalChar c = before ++ '\'' :: after) : before = ['\\'] := by
  rcases literalChar_cases c with ⟨hc, -, hquote, -⟩ | ⟨d, hc, -⟩ <;> rw [hc] at h
  · rcases before with _ | ⟨b, before⟩
    · exact absurd (List.cons.inj h).1 hquote
    · simp at h
  · rcases before with _ | ⟨b, _ | ⟨b', before⟩⟩
    · simp at h
    · rw [(List.cons.inj h).1]
    · simp at h

/-- Where a character begins, the backslashes before it stand in pairs. -/
theorem even_slashes (cs : List Char) : Even (slashes (cs.flatMap literalChar)) := by
  induction cs using List.reverseRecOn with
  | nil => exact ⟨0, rfl⟩
  | append_singleton cs c ih =>
    rw [List.flatMap_append, List.flatMap_singleton]
    rcases literalChar_cases c with ⟨hc, hslash, -⟩ | ⟨d, hc, -⟩ <;> rw [hc]
    · rw [slashes_snoc, if_neg hslash]
      exact ⟨0, rfl⟩
    · rw [← List.singleton_append, ← List.append_assoc, slashes_snoc, slashes_snoc, if_pos rfl]
      split
      · exact ih.add_one.add_one
      · exact ⟨0, rfl⟩

/-- Between the marks, a quote has an odd number of backslashes before it. -/
theorem odd_slashes {cs before after : List Char}
    (h : cs.flatMap literalChar = before ++ '\'' :: after) : Odd (slashes before) := by
  induction cs using List.reverseRecOn generalizing after with
  | nil => simp at h
  | append_singleton cs c ih =>
    rw [List.flatMap_append, List.flatMap_singleton] at h
    rcases List.append_eq_append_iff.1 h with ⟨tail, rfl, hc⟩ | ⟨tail, hcs, hquote⟩
    · -- the quote belongs to the last character
      rw [quote_in_literalChar hc, slashes_snoc, if_pos rfl]
      exact (even_slashes cs).add_one
    · rcases tail with _ | ⟨e, tail⟩
      · have hbefore : ([] : List Char) = ['\\'] := quote_in_literalChar hquote.symm
        cases hbefore
      · obtain ⟨rfl, -⟩ := List.cons.inj hquote
        exact ih hcs

/-- So it stands right behind a backslash. -/
theorem getLast?_of_odd_slashes {cs : List Char} (h : Odd (slashes cs)) : cs.getLast? = some '\\' := by
  induction cs using List.reverseRecOn with
  | nil => exact absurd h (by decide)
  | append_singleton cs c =>
    rw [slashes_snoc] at h
    split at h
    · rename_i hc
      rw [List.getLast?_concat, hc]
    · exact absurd h (by decide)

theorem isQuoted_literal (s : String) : IsQuoted '\'' (literal s).toList := by
  refine ⟨s.toList.flatMap literalChar, toList_literal s, fun hm => ?_, fun hm => ?_, even_slashes _,
    fun before after h => odd_slashes h⟩
  · obtain ⟨c, -, hc⟩ := List.mem_flatMap.1 hm
    exact (mem_literalChar hc).1 rfl
  · obtain ⟨c, -, hc⟩ := List.mem_flatMap.1 hm
    exact (mem_literalChar hc).2 rfl

/-! ## Replacement in turn -/

/-- A text with every occurrence of a character replaced. -/
def replaced (old : Char) (new cs : List Char) : List Char :=
  cs.flatMap fun c => if c = old then new else [c]

/-- A text in which the characters that cannot stand in a literal are replaced one after the other, the
backslash first. -/
def replacedInTurn (cs : List Char) : List Char :=
  replaced '\r' ['\\', 'r'] <| replaced '\n' ['\\', 'n'] <| replaced '\'' ['\\', '\''] <|
    replaced '\\' ['\\', '\\'] cs

/-- No replacement makes anything that a later one replaces. -/
theorem replacedInTurn_eq (cs : List Char) : replacedInTurn cs = cs.flatMap literalChar := by
  simp only [replacedInTurn, replaced, List.flatMap_assoc]
  congr 1
  funext c
  unfold literalChar
  split_ifs with hslash hquote hfeed hreturn
  · rfl
  · subst hquote; rfl
  · subst hfeed; rfl
  · subst hreturn; rfl
  · simp [hquote, hfeed, hreturn]

/-- Whatever a text holds, its literal is one well-formed literal, what four replacements one after the
other make of the text between two single quotes, and has the text for its value. So different texts have
different literals. -/
theorem literal_exact :
    (∀ s : String, (literal s).toList = '\'' :: (replacedInTurn s.toList ++ ['\'']) ∧
      IsQuoted '\'' (literal s).toList ∧ literal? (literal s).toList = some (codeUnits s, [])) ∧
    Function.Injective literal := by
  refine ⟨fun s => ⟨?_, isQuoted_literal s, ?_⟩, literal_injective⟩
  · rw [replacedInTurn_eq, toList_literal]
  · have hread := literal?_literal s []
    rwa [List.append_nil] at hread

end Maquette.Script
