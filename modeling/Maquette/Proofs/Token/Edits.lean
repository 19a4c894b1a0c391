/-
The edit distance is the least number of edits, each of which inserts, deletes or replaces one
character anywhere in a text. The table of distances is filled by a recursion on the last characters of
two beginnings; told of reversed texts it is a recursion on first characters, and a single edit changes
what it gives by one at most.
-/
import Mathlib.Order.Bounds.Basic
import Mathlib.Order.MinMax
import Maquette.Token.Match

namespace Maquette.Token

variable {α : Type}

/-! ## Edits -/

/-- One character is inserted, deleted or replaced. -/
inductive Edit : List α → List α → Prop
  | insert (before after : List α) (c : α) : Edit (before ++ after) (before ++ c :: after)
  | delete (before after : List α) (c : α) : Edit (before ++ c :: after) (before ++ after)
  | replace (before after : List α) (c d : α) : Edit (before ++ c :: after) (before ++ d :: after)

/-- So many edits turn one text into another. -/
inductive Edits : ℕ → List α → List α → Prop
  | none (a : List α) : Edits 0 a a
  | more {n : ℕ} {a b c : List α} : Edit a b → Edits n b c → Edits (n + 1) a c

section Edits

variable {a b : List α} {n : ℕ}

theorem Edit.cons (h : Edit a b) (c : α) : Edit (c :: a) (c :: b) := by
  cases h with
  | insert before after d => exact .insert (c :: before) after d
  | delete before after d => exact .delete (c :: before) after d
  | replace before after d e => exact .replace (c :: before) after d e

theorem Edits.cons (h : Edits n a b) (c : α) : Edits n (c :: a) (c :: b) := by
  induction h with
  | none a => exact .none _
  | more hedit _ ih => exact .more (hedit.cons c) ih

theorem Edit.reverse (h : Edit a b) : Edit a.reverse b.reverse := by
  cases h with
  | insert before after c =>
    have := Edit.insert after.reverse before.reverse c
    simpa using this
  | delete before after c =>
    have := Edit.delete after.reverse before.reverse c
    simpa using this
  | replace before after c d =>
    have := Edit.replace after.reverse before.reverse c d
    simpa using this

theorem Edits.reverse (h : Edits n a b) : Edits n a.reverse b.reverse := by
  induction h with
  | none a => exact .none _
  | more hedit _ ih => exact .more hedit.reverse ih

theorem Edits.snoc {c : List α} (h : Edits n a b) (hedit : Edit b c) : Edits (n + 1) a c := by
  induction h with
  | none a => exact .more hedit (.none _)
  | more hfirst _ ih => exact .more hfirst (ih hedit)

end Edits

/-! ## Distances from the first characters on -/

variable [BEq α]

/-- The distances of a text with one more character, out of those without it: equal first characters
are kept. -/
def withFirst (c : α) (without : List α → ℕ) : List α → ℕ
  | [] => without [] + 1
  | d :: b =>
    if c == d then without b
    else 1 + min (withFirst c without b) (min (without b) (without (d :: b)))

/-- The distance of two texts by their first characters. -/
def leastEdits : List α → List α → ℕ
  | [] => List.length
  | c :: a => withFirst c (leastEdits a)

@[simp] theorem leastEdits_nil_left (b : List α) : leastEdits [] b = b.length := rfl

@[simp] theorem leastEdits_nil_right (a : List α) : leastEdits a [] = a.length := by
  induction a with
  | nil => rfl
  | cons c a ih => exact congrArg (· + 1) ih

theorem leastEdits_cons (c d : α) (a b : List α) :
    leastEdits (c :: a) (d :: b) = if c == d then leastEdits a b
      else 1 + min (leastEdits (c :: a) b) (min (leastEdits a b) (leastEdits a (d :: b))) := rfl

/-- The distances of a text from all texts that are read on from `seen`. -/
def leastEditsRow (a seen : List α) : List α → List ℕ
  | [] => [leastEdits a seen]
  | d :: b => leastEdits a seen :: leastEditsRow a (d :: seen) b

theorem leastEditsRow_eq_cons (a seen b : List α) :
    ∃ rest, leastEditsRow a seen b = leastEdits a seen :: rest := by
  cases b with
  | nil => exact ⟨[], rfl⟩
  | cons d b => exact ⟨_, rfl⟩

/-- One row of the table is made from the one above it. -/
theorem editRow_leastEdits (c : α) (a seen b : List α) :
    leastEdits (c :: a) seen :: editRow c (leastEdits (c :: a) seen) b (leastEditsRow a seen b) =
      leastEditsRow (c :: a) seen b := by
  induction b generalizing seen with
  | nil => rfl
  | cons d b ih =>
    obtain ⟨rest, hrest⟩ := leastEditsRow_eq_cons a (d :: seen) b
    have hhere : leastEdits (c :: a) (d :: seen) = if c == d then leastEdits a seen
        else 1 + min (leastEdits (c :: a) seen)
          (min (leastEdits a seen) (leastEdits a (d :: seen))) := by
      rw [leastEdits_cons]
    rw [leastEditsRow, leastEditsRow, hrest, editRow, ← hrest, ← hhere, ih]

theorem editRows_leastEdits (a seen b : List α) :
    editRows b a seen.length (leastEditsRow seen [] b) = leastEditsRow (a.reverse ++ seen) [] b := by
  induction a generalizing seen with
  | nil => rfl
  | cons c a ih =>
    have hrow := editRow_leastEdits c seen [] b
    rw [leastEdits_nil_right] at hrow
    rw [editRows, List.length_cons.symm, hrow, ih, List.reverse_cons, List.append_assoc,
      List.singleton_append]

theorem leastEditsRow_nil (seen b : List α) :
    leastEditsRow [] seen b = List.range' seen.length (b.length + 1) := by
  induction b generalizing seen with
  | nil => simp [leastEditsRow]
  | cons d b ih =>
    rw [leastEditsRow, leastEdits_nil_left, ih]
    rfl

theorem getLast?_leastEditsRow (a seen b : List α) :
    (leastEditsRow a seen b).getLast? = some (leastEdits a (b.reverse ++ seen)) := by
  induction b generalizing seen with
  | nil => simp [leastEditsRow]
  | cons d b ih =>
    obtain ⟨rest, hrest⟩ := leastEditsRow_eq_cons a (d :: seen) b
    rw [leastEditsRow, hrest, List.getLast?_cons_cons, ← hrest, ih, List.reverse_cons,
      List.append_assoc, List.singleton_append]

/-- The table ends with the distance of the reversed texts. -/
theorem editDistance_eq (a b : List α) : editDistance a b = leastEdits a.reverse b.reverse := by
  have hfirst : List.range (b.length + 1) = leastEditsRow [] [] b := by
    rw [leastEditsRow_nil, List.range_eq_range', List.length_nil]
  have hrows := editRows_leastEdits a [] b
  rw [List.length_nil] at hrows
  rw [editDistance, hfirst, hrows, getLast?_leastEditsRow, List.append_nil, List.append_nil,
    Option.getD_some]

/-! ## What one edit changes -/

theorem leastEdits_comm [LawfulBEq α] (a b : List α) : leastEdits a b = leastEdits b a := by
  induction a generalizing b with
  | nil => simp
  | cons c a iha =>
    induction b with
    | nil => simp
    | cons d b ihb =>
      rw [leastEdits_cons, leastEdits_cons, iha b, ihb, iha (d :: b)]
      by_cases hcd : c = d
      · subst hcd
        rw [if_pos BEq.rfl, if_pos BEq.rfl]
      · rw [if_neg (by simpa using hcd), if_neg (by simpa using Ne.symm hcd)]
        omega

/-- A character more or less at the front changes the distance by one at most. Equal first characters
are kept, so this is told of both texts at once. -/
theorem leastEdits_near [LawfulBEq α] (a b : List α) (c : α) :
    leastEdits (c :: a) b ≤ leastEdits a b + 1 ∧ leastEdits a b ≤ leastEdits (c :: a) b + 1 := by
  cases b with
  | nil => simp; omega
  | cons d b =>
    -- the shorter text is `b` now, and the roles are exchanged
    have hb := leastEdits_near b a d
    rw [leastEdits_comm (d :: b) a, leastEdits_comm b a] at hb
    have ha := leastEdits_near a b c
    rw [leastEdits_cons]
    split <;> omega
termination_by a.length + b.length

theorem leastEdits_replace [LawfulBEq α] (a b : List α) (c d : α) :
    leastEdits (c :: a) b ≤ leastEdits (d :: a) b + 1 := by
  induction b with
  | nil => simp
  | cons e b ih =>
    have ha := leastEdits_near a b d
    have hb := leastEdits_near b a e
    rw [leastEdits_comm (e :: b) a, leastEdits_comm b a] at hb
    rw [leastEdits_cons, leastEdits_cons]
    split <;> split <;> omega

/-- What holds of two texts holds with a common first character. -/
theorem leastEdits_cons_le {a a' : List α} (h : ∀ b, leastEdits a b ≤ leastEdits a' b + 1) (c : α)
    (b : List α) : leastEdits (c :: a) b ≤ leastEdits (c :: a') b + 1 := by
  induction b with
  | nil =>
    have := h []
    simpa using this
  | cons d b ih =>
    have hshort := h b
    have hlong := h (d :: b)
    rw [leastEdits_cons, leastEdits_cons]
    split <;> omega

theorem Edit.leastEdits_le [LawfulBEq α] {a a' : List α} (h : Edit a a') (b : List α) :
    leastEdits a b ≤ leastEdits a' b + 1 := by
  have hfront : ∀ before : List α, ∀ {x x' : List α}, (∀ b, leastEdits x b ≤ leastEdits x' b + 1) →
      ∀ b, leastEdits (before ++ x) b ≤ leastEdits (before ++ x') b + 1 := by
    intro before x x' hx
    induction before with
    | nil => exact hx
    | cons c before ih => exact leastEdits_cons_le ih c
  cases h with
  | insert before after c => exact hfront before (fun b => (leastEdits_near after b c).2) b
  | delete before after c => exact hfront before (fun b => (leastEdits_near after b c).1) b
  | replace before after c d => exact hfront before (fun b => leastEdits_replace after b c d) b

theorem leastEdits_self [LawfulBEq α] (a : List α) : leastEdits a a = 0 := by
  induction a with
  | nil => simp
  | cons c a ih => rw [leastEdits_cons, if_pos BEq.rfl, ih]

/-- No fewer edits turn one text into the other. -/
theorem Edits.leastEdits_le [LawfulBEq α] {a b : List α} {n : ℕ} (h : Edits n a b) :
    leastEdits a b ≤ n := by
  induction h with
  | none a => rw [leastEdits_self]
  | more hedit _ ih => exact (hedit.leastEdits_le _).trans (Nat.add_le_add_right ih 1)

/-- As many edits as the distance turn one text into the other. -/
theorem edits_leastEdits [LawfulBEq α] (a b : List α) : Edits (leastEdits a b) a b := by
  induction a generalizing b with
  | nil =>
    rw [leastEdits_nil_left]
    induction b with
    | nil => exact .none []
    | cons d b ih => exact ih.snoc (.insert [] b d)
  | cons c a iha =>
    induction b with
    | nil =>
      have := iha []
      rw [leastEdits_nil_right] at this ⊢
      exact .more (.delete [] a c) this
    | cons d b ihb =>
      rw [leastEdits_cons]
      split
      · rename_i hcd
        rw [eq_of_beq hcd]
        exact (iha b).cons d
      · have hinsert := ihb.snoc (.insert [] b d)
        have hreplace := Edits.more (.replace [] a c d) ((iha b).cons d)
        have hdelete := Edits.more (.delete [] a c) (iha (d :: b))
        -- the least of the three is one of them
        rcases min_choice (leastEdits (c :: a) b) (min (leastEdits a b) (leastEdits a (d :: b)))
          with h | h
        · rw [h, Nat.add_comm]
          exact hinsert
        · rcases min_choice (leastEdits a b) (leastEdits a (d :: b)) with h' | h'
          · rw [h, h', Nat.add_comm]
            exact hreplace
          · rw [h, h', Nat.add_comm]
            exact hdelete

/-! ## The edit distance -/

/-- The least number of edits that turn one text into the other. -/
theorem editDistance_isLeast [LawfulBEq α] (a b : List α) :
    IsLeast {n | Edits n a b} (editDistance a b) := by
  rw [editDistance_eq]
  constructor
  · have := (edits_leastEdits a.reverse b.reverse).reverse
    rwa [List.reverse_reverse, List.reverse_reverse] at this
  · intro n h
    exact h.reverse.leastEdits_le

/-- Characters at the same place are replaced, and those beyond the end of one text are inserted or
deleted. -/
theorem leastEdits_le_length (a b : List α) : leastEdits a b ≤ max a.length b.length := by
  induction a generalizing b with
  | nil => simp
  | cons c a ih =>
    cases b with
    | nil => simp
    | cons d b =>
      have := ih b
      rw [leastEdits_cons, List.length_cons, List.length_cons]
      split <;> omega

theorem editDistance_le (a b : List α) : editDistance a b ≤ max a.length b.length := by
  rw [editDistance_eq]
  have := leastEdits_le_length a.reverse b.reverse
  rwa [List.length_reverse, List.length_reverse] at this

section Consequences

variable [LawfulBEq α] (a b : List α)

theorem editDistance_comm : editDistance a b = editDistance b a := by
  rw [editDistance_eq, editDistance_eq, leastEdits_comm]

theorem editDistance_eq_zero : editDistance a b = 0 ↔ a = b := by
  have hleast := editDistance_isLeast a b
  constructor
  · intro h
    rw [h] at hleast
    cases hleast.1
    rfl
  · rintro rfl
    exact Nat.le_zero.1 (hleast.2 (.none a))

end Consequences

end Maquette.Token
