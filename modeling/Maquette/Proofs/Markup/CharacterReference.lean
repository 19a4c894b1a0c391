/-
Attributes as they are read. A value in double quotes ends at the next one, and the character
references in it stand for characters: between an ampersand and a semicolon, the number of a character
in decimal or hexadecimal digits, or a name that the reader knows. A value in braces is a literal.

A text is carried as it is exactly if it is written as a literal or holds no reference. A reference is
longer than the character it stands for, so a text that holds one is read as a shorter text.
-/
import Maquette.Proofs.Markup.Printed
import Maquette.Proofs.Script.Value

namespace Maquette.Reader

open Script (charsUnits charsUnits_append codeUnits hexNumber? literal? pointUnits pointUnits_length)

/-! ## References -/

/-- A number in decimal digits. -/
def decimal? (digits : List Char) : Option Nat :=
  digits.foldlM (fun n c => if c.isDigit then some (10 * n + (c.toNat - 48)) else none) 0

/-- What was read behind an ampersand, with the ampersand. -/
def pending : Option (List Char) → List Char
  | none => []
  | some body => '&' :: body

section References

variable (names : List (List Char × Char))

/-- The code point that a reference stands for, by what is between its ampersand and its semicolon. -/
def referenced? : List Char → Option Nat
  | [] => none
  | '#' :: 'x' :: c :: digits => hexNumber? (c :: digits)
  | '#' :: c :: digits => decimal? (c :: digits)
  | name => (names.lookup name).map Char.toNat

/-- The units of what stands between an ampersand and a semicolon. A reference has to stand for a
character; what is no reference stands for itself. -/
def resolved? (body : List Char) : Option (List Nat) :=
  match referenced? names body with
  | some n => if n < 0x110000 then some (pointUnits n) else none
  | none => some (charsUnits ('&' :: (body ++ [';'])))

/-- What one more character settles, and what is still read behind an ampersand. -/
def decodeStep : Option (List Char) → Char → Option (List Nat × Option (List Char))
  | none, c => some (if c = '&' then ([], some []) else (charsUnits [c], none))
  | some body, c =>
    if c = '&' then some (charsUnits ('&' :: body), some [])
    else if c = ';' then (resolved? names body).map (·, none)
    else some ([], some (body ++ [c]))

/-- The units of a text with its references resolved. -/
def decodeFrom (read : Option (List Char)) : List Char → Option (List Nat)
  | [] => some (charsUnits (pending read))
  | c :: cs => (decodeStep names read c).bind fun (units, next) => (decodeFrom next cs).map (units ++ ·)

def decode? (cs : List Char) : Option (List Nat) := decodeFrom names none cs

/-- Whether a text holds a character reference. -/
def HoldsReference (cs : List Char) : Prop :=
  ∃ before body after, cs = before ++ '&' :: (body ++ ';' :: after) ∧ '&' ∉ body ∧ ';' ∉ body ∧
    (referenced? names body).isSome

end References

example : decode? Script.namedEntities "&lt;&#65;&#x1f600;&co;".toList = some (codeUnits "<A😀&co;") := by
  decide +kernel

/-! ## Decoding -/

section Decoding

variable {names : List (List Char × Char)} {read next : Option (List Char)} {c : Char}
  {cs body : List Char} {units : List Nat}

theorem HoldsReference.behind (h : HoldsReference names cs) (before : List Char) :
    HoldsReference names (before ++ cs) := by
  obtain ⟨first, body, after, rfl, hbody⟩ := h
  exact ⟨before ++ first, body, after, (List.append_assoc ..).symm, hbody⟩

/-- What stands behind an ampersand while it is read: neither a mark that begins a reference nor one that
ends it. -/
def IsBegun (read : Option (List Char)) : Prop := ∀ body ∈ read, '&' ∉ body ∧ ';' ∉ body

theorem isBegun_nil : IsBegun (some []) := fun _ h => by cases h; exact ⟨by simp, by simp⟩

theorem isBegun_none : IsBegun none := fun _ h => by cases h

/-- An ampersand passes on what stands before it. -/
theorem decodeStep_amp (read : Option (List Char)) :
    decodeStep names read '&' = some (charsUnits (pending read), some []) := by
  cases read <;> rfl

theorem decodeStep_end (body : List Char) :
    decodeStep names (some body) ';' = (resolved? names body).map (·, none) := rfl

/-- A character passes on a part of what stands before it, or it ends a reference. -/
theorem decodeStep_cases (names : List (List Char × Char)) (hread : IsBegun read) (c : Char) :
    (∃ passed next, decodeStep names read c = some (charsUnits passed, next) ∧ IsBegun next ∧
      pending read ++ [c] = passed ++ pending next) ∨
    ∃ body, read = some body ∧ c = ';' ∧ (referenced? names body).isSome := by
  by_cases hamp : c = '&'
  · subst hamp
    exact .inl ⟨pending read, some [], decodeStep_amp read, isBegun_nil, rfl⟩
  cases read with
  | none => exact .inl ⟨[c], none, congrArg some (if_neg hamp), isBegun_none, rfl⟩
  | some body =>
    by_cases hend : c = ';'
    · subst hend
      cases hfound : referenced? names body with
      | none =>
        refine .inl ⟨pending (some body) ++ [';'], none, ?_, isBegun_none, (List.append_nil _).symm⟩
        rw [decodeStep_end, resolved?, hfound]
        rfl
      | some n => exact .inr ⟨body, rfl, rfl, by rw [hfound]; rfl⟩
    · refine .inl ⟨[], some (body ++ [c]), ?_, fun b hb => ?_, rfl⟩
      · rw [decodeStep, if_neg hamp, if_neg hend]
        rfl
      · cases hb
        obtain ⟨hbodyAmp, hbodyEnd⟩ := hread body rfl
        simp [hbodyAmp, hbodyEnd, Ne.symm hamp, Ne.symm hend]

theorem decodeFrom_cons_of {out : List Nat} (h : decodeStep names read c = some (out, next)) :
    decodeFrom names read (c :: cs) = (decodeFrom names next cs).map (out ++ ·) := by
  rw [decodeFrom, h]
  rfl

theorem decodeFrom_cons_ok (h : decodeFrom names read (c :: cs) = some units) :
    ∃ out next rest, decodeStep names read c = some (out, next) ∧
      decodeFrom names next cs = some rest ∧ units = out ++ rest := by
  obtain ⟨⟨out, next⟩, hstep, h⟩ := Option.bind_eq_some_iff.1 h
  obtain ⟨rest, hrest, rfl⟩ := Option.map_eq_some_iff.1 h
  exact ⟨out, next, rest, hstep, hrest, rfl⟩

/-- A text that holds no reference is read as it is. -/
theorem decodeFrom_of_not_holds (hread : IsBegun read)
    (h : ¬ HoldsReference names (pending read ++ cs)) :
    decodeFrom names read cs = some (charsUnits (pending read ++ cs)) := by
  induction cs generalizing read with
  | nil => rw [List.append_nil]; rfl
  | cons c cs ih =>
    rcases decodeStep_cases names hread c with
      ⟨passed, next, hstep, hnext, hpassed⟩ | ⟨body, rfl, rfl, hfound⟩
    · have hsplit : pending read ++ c :: cs = passed ++ (pending next ++ cs) := by
        rw [← List.singleton_append, ← List.append_assoc, hpassed, List.append_assoc]
      rw [hsplit] at h ⊢
      rw [decodeFrom_cons_of hstep, ih hnext fun hholds => h (hholds.behind passed),
        charsUnits_append passed]
      rfl
    · obtain ⟨hamp, hend⟩ := hread body rfl
      exact absurd ⟨[], body, cs, rfl, hamp, hend, hfound⟩ h

/-! ## Lengths -/

theorem length_le_charsUnits (cs : List Char) : cs.length ≤ (charsUnits cs).length := by
  induction cs with
  | nil => exact Nat.zero_le _
  | cons c cs ih =>
    have hc := (pointUnits_length c.toNat).1
    simp only [charsUnits, List.flatMap_cons, List.length_append, List.length_cons] at ih ⊢
    omega

/-- A reference is longer than what it stands for: there are an ampersand, a semicolon and something
between them, and a character has two units at most. -/
theorem resolved?_length (hfound : (referenced? names body).isSome)
    (h : resolved? names body = some units) :
    units.length < (charsUnits (pending (some body) ++ [';'])).length := by
  obtain ⟨n, hn⟩ := Option.isSome_iff_exists.1 hfound
  have hbody : body ≠ [] := by rintro rfl; cases hfound
  have hpos := List.length_pos_iff.2 hbody
  have hopen : body.length + 2 ≤ (charsUnits (pending (some body) ++ [';'])).length :=
    le_of_eq_of_le (by simp [pending]) (length_le_charsUnits _)
  have hpoint := (pointUnits_length n).2
  simp only [resolved?, hn] at h
  split_ifs at h
  cases h
  omega

theorem decodeStep_length {out : List Nat} (hread : IsBegun read)
    (h : decodeStep names read c = some (out, next)) :
    IsBegun next ∧
      out.length + (charsUnits (pending next)).length ≤ (charsUnits (pending read ++ [c])).length := by
  rcases decodeStep_cases names hread c with
    ⟨passed, next', hstep, hnext, hpassed⟩ | ⟨body, rfl, rfl, hfound⟩
  · rw [hstep] at h
    cases h
    rw [hpassed, charsUnits_append, List.length_append]
    exact ⟨hnext, le_rfl⟩
  · obtain ⟨units, hunits, hpair⟩ := Option.map_eq_some_iff.1 ((decodeStep_end body).symm.trans h)
    cases hpair
    exact ⟨isBegun_none, (resolved?_length hfound hunits).le⟩

/-- Nothing is read as more units than it has. -/
theorem decodeFrom_length_le (hread : IsBegun read) (h : decodeFrom names read cs = some units) :
    units.length ≤ (charsUnits (pending read ++ cs)).length := by
  induction cs generalizing read units with
  | nil =>
    cases h
    rw [List.append_nil]
  | cons c cs ih =>
    obtain ⟨out, next, rest, hstep, hrest, rfl⟩ := decodeFrom_cons_ok h
    obtain ⟨hnext, hle⟩ := decodeStep_length hread hstep
    have hih := ih hnext hrest
    rw [← List.singleton_append, ← List.append_assoc]
    simp only [charsUnits_append, List.length_append] at hle hih ⊢
    omega

/-- Characters that neither begin a reference nor end one go on with what stands behind an ampersand. -/
theorem decodeFrom_body (h : '&' ∉ body) (h' : ';' ∉ body) (read rest : List Char) :
    decodeFrom names (some read) (body ++ rest) = decodeFrom names (some (read ++ body)) rest := by
  induction body generalizing read with
  | nil => rw [List.append_nil, List.nil_append]
  | cons c body ih =>
    rw [List.mem_cons, not_or] at h h'
    have hstep : decodeStep names (some read) c = some ([], some (read ++ [c])) := by
      rw [decodeStep, if_neg (Ne.symm h.1), if_neg (Ne.symm h'.1)]
    rw [List.cons_append, decodeFrom_cons_of hstep, ih h.2 h'.2, List.append_assoc,
      List.singleton_append]
    exact Option.map_id'

/-- A text that holds a reference is read as fewer units than it has. -/
theorem decodeFrom_length_lt (hread : IsBegun read) (hcs : HoldsReference names cs)
    (h : decodeFrom names read cs = some units) :
    units.length < (charsUnits (pending read ++ cs)).length := by
  obtain ⟨before, body, after, rfl, hamp, hend, hfound⟩ := hcs
  induction before generalizing read units with
  | nil =>
    rw [List.nil_append, decodeFrom_cons_of (decodeStep_amp read), decodeFrom_body hamp hend,
      List.nil_append] at h
    obtain ⟨rest, hrest, rfl⟩ := Option.map_eq_some_iff.1 h
    obtain ⟨out, next, rest, hstep, hrest, rfl⟩ := decodeFrom_cons_ok hrest
    obtain ⟨out, hout, hpair⟩ := Option.map_eq_some_iff.1 ((decodeStep_end body).symm.trans hstep)
    cases hpair
    have hlt := resolved?_length hfound hout
    have hle := decodeFrom_length_le isBegun_none hrest
    have hsplit : pending read ++ ([] ++ '&' :: (body ++ ';' :: after)) =
        pending read ++ (pending (some body) ++ [';'] ++ (pending none ++ after)) := by
      simp [pending]
    rw [hsplit]
    simp only [charsUnits_append, List.length_append] at hlt hle ⊢
    omega
  | cons c before ih =>
    obtain ⟨out, next, rest, hstep, hrest, rfl⟩ := decodeFrom_cons_ok h
    obtain ⟨hnext, hle⟩ := decodeStep_length hread hstep
    have hih := ih hnext hrest
    rw [List.cons_append, ← List.singleton_append, ← List.append_assoc]
    simp only [charsUnits_append, List.length_append] at hle hih ⊢
    omega

/-- A text is read as it is exactly if it holds no reference. -/
theorem decode?_eq_iff : decode? names cs = some (charsUnits cs) ↔ ¬ HoldsReference names cs := by
  constructor
  · intro h hcs
    exact lt_irrefl _ (decodeFrom_length_lt isBegun_none hcs h)
  · intro h
    exact decodeFrom_of_not_holds isBegun_none h

end Decoding

/-! ## Attributes -/

/-- The value of an attribute of a name: in double quotes up to the next one, with its references
resolved, or a literal in braces. -/
def attributeValue? (names : List (List Char × Char)) (name cs : List Char) : Option (List Nat) :=
  match Text.dropPrefix? (name ++ ['=']) cs with
  | some ('"' :: rest) =>
    match Text.cut? '"' rest with
    | some (inner, []) => decode? names inner
    | _ => none
  | some ('\x7b' :: rest) =>
    match literal? rest with
    | some (units, ['\x7d']) => some units
    | _ => none
  | _ => none

end Maquette.Reader

namespace Maquette.Markup.Attribute

open Reader

theorem needsLiteral_iff (s : String) : needsLiteral s = true ↔ '"' ∈ s.toList ∨ '\n' ∈ s.toList := by
  simp only [needsLiteral, List.any_eq_true, Bool.or_eq_true, decide_eq_true_eq]
  constructor
  · rintro ⟨c, hc, rfl | rfl⟩
    · exact .inl hc
    · exact .inr hc
  · rintro (hc | hc)
    · exact ⟨_, hc, .inl rfl⟩
    · exact ⟨_, hc, .inr rfl⟩

/-- A text as an attribute is read as the text exactly if it is written as a literal, for the quotation
mark or the line feed in it, or holds no character reference, whatever names there are. -/
theorem text_carried_iff (names : List (List Char × Char)) (name s : String) :
    ∃ a, ofDatum name (.text s) = .ok a ∧
      (attributeValue? names name.toList a.toCode.text.toList = some (Script.codeUnits s) ↔
        '"' ∈ s.toList ∨ '\n' ∈ s.toList ∨ ¬ HoldsReference names s.toList) := by
  refine ⟨text name s, rfl, ?_⟩
  have hliteral := needsLiteral_iff s
  by_cases hs : needsLiteral s = true
  · have htext : (text name s).toCode.text.toList =
        name.toList ++ ['='] ++ '\x7b' :: ((Script.literal s).toList ++ ['\x7d']) := by
      rw [toCode, if_pos hs, Code.toList_append, Code.toList_braced]
      simp [Code.toList_text, Piece.text]
    refine iff_of_true ?_ (or_assoc.1 (.inl (hliteral.1 hs)))
    rw [htext, attributeValue?, Text.dropPrefix?_eq_some.2 rfl]
    simp only [Script.literal?_literal]
  · have hmarks := mt hliteral.2 hs
    rw [not_or] at hmarks
    have htext : (text name s).toCode.text.toList =
        name.toList ++ ['='] ++ '"' :: (s.toList ++ '"' :: []) := by
      rw [toCode, if_neg hs]
      simp [Code.toList_text, Piece.text]
    rw [htext, attributeValue?, Text.dropPrefix?_eq_some.2 rfl, or_iff_right hmarks.1,
      or_iff_right hmarks.2]
    simp only [Text.cut?_append hmarks.1]
    exact decode?_eq_iff

/-- An ampersand that was spelled out in the text is read as a mere ampersand. -/
theorem reference_not_carried :
    ¬ ∀ (name s : String) (a : Attribute), ofDatum name (.text s) = .ok a →
      attributeValue? Script.namedEntities name.toList a.toCode.text.toList =
        some (Script.codeUnits s) := by
  intro h
  have hread : attributeValue? Script.namedEntities "aria-label".toList
      (text "aria-label" "R&amp;D").toCode.text.toList = some (Script.codeUnits "R&D") := by
    decide +kernel
  have hkept := (h "aria-label" "R&amp;D" _ rfl).symm.trans hread
  exact absurd (Script.codeUnits_injective (Option.some.inj hkept)) (by decide)

end Maquette.Markup.Attribute
