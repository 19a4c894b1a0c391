/-
Names that are given one after the other, each beside those that are taken: the search for a free name
ends whatever names are taken, as only as many of the numbered names can be taken as there are taken
names. A name that is given is made of the characters that it was asked for with, and of digits.
-/
import Maquette.Proofs.Naming.Lettered
import Maquette.Proofs.Outline.SlotNames

namespace Maquette.Naming

/-! ## Names beside taken ones -/

/-- `Seeks base used name n found`: the search for a free name that has come to `name`, and tries
`base` with the number `n` behind it next, ends with `found`. -/
inductive Seeks (base : String) (used : List String) : String → Nat → String → Prop
  | free {name : String} {n : Nat} : name ∉ used → Seeks base used name n name
  | taken {name found : String} {n : Nat} : name ∈ used →
      Seeks base used (base ++ toString n) (n + 1) found → Seeks base used name n found

section Seeks

variable {base : String} {used : List String}

theorem Seeks.deterministic {name found found' : String} {n : Nat}
    (h : Seeks base used name n found) (h' : Seeks base used name n found') : found = found' := by
  induction h with
  | free hfree =>
    cases h' with
    | free => rfl
    | taken ht => exact absurd ht hfree
  | taken ht _ ih =>
    cases h' with
    | free hfree => exact absurd ht hfree
    | taken _ h' => exact ih h'

/-- A numbered name is found from every number on behind which all smaller ones are taken. -/
theorem Seeks.numbered {m : Nat} {n : Nat} (hle : m ≤ n) (hfree : base ++ toString n ∉ used)
    (htaken : ∀ k, m ≤ k → k < n → base ++ toString k ∈ used) :
    Seeks base used (base ++ toString m) (m + 1) (base ++ toString n) := by
  induction hle using Nat.decreasingInduction with
  | self => exact .free hfree
  | of_succ k hk ih =>
    exact .taken (htaken k le_rfl hk) (ih fun j hj hlt => htaken j (Nat.le_of_succ_le hj) hlt)

/-- A name that is taken gets the first number with which it is free. -/
theorem unique_taken (h : base ∈ used) : unique base used = Outline.Slot.numbered base used := by
  unfold unique candidates Outline.Slot.numbered
  rw [List.find?_cons_of_neg (by simpa using h)]

theorem unique_free (h : base ∉ used) : unique base used = base := by
  unfold unique candidates
  rw [List.find?_cons_of_pos (by simpa using h)]
  rfl

/-- The name itself, or the name with the least number from two on with which it is free. -/
theorem unique_spec (base : String) (used : List String) :
    (base ∉ used ∧ unique base used = base) ∨ (base ∈ used ∧ ∃ n, 2 ≤ n ∧
      unique base used = base ++ toString n ∧ base ++ toString n ∉ used ∧
        ∀ m, 2 ≤ m → m < n → base ++ toString m ∈ used) := by
  by_cases h : base ∈ used
  · rw [unique_taken h]
    exact .inr ⟨h, Outline.Slot.numbered_spec base used⟩
  · exact .inl ⟨h, unique_free h⟩

theorem unique_fresh (base : String) (used : List String) : unique base used ∉ used := by
  rcases unique_spec base used with ⟨hfree, heq⟩ | ⟨-, n, -, heq, hfree, -⟩
  · rwa [heq]
  · rwa [heq]

/-- Whatever names are taken, the search ends, and it ends with the free name. -/
theorem seeks_iff {name : String} : Seeks base used base 2 name ↔ name = unique base used := by
  have hfound : Seeks base used base 2 (unique base used) := by
    rcases unique_spec base used with ⟨hfree, heq⟩ | ⟨ht, n, hn, heq, hfree, htaken⟩
    · rw [heq]; exact .free hfree
    · rw [heq]; exact .taken ht (.numbered hn hfree htaken)
  constructor
  · exact fun h => h.deterministic hfound
  · rintro rfl; exact hfound

end Seeks

/-- Names that are given one after the other are distinct, as many as there are wishes, and none of
them was taken before. -/
theorem uniques_spec (used wishes : List String) :
    (uniques used wishes).1.length = wishes.length ∧ (uniques used wishes).1.Nodup ∧
      ∀ name ∈ (uniques used wishes).1, name ∉ used ∧
        ∃ wish ∈ wishes, ∃ taken, name = unique wish taken := by
  induction wishes generalizing used with
  | nil => simp [uniques]
  | cons base rest ih =>
    obtain ⟨hlength, hnodup, hnames⟩ := ih (used ++ [unique base used])
    simp only [uniques, List.length_cons, hlength, List.nodup_cons, List.forall_mem_cons, true_and]
    refine ⟨⟨fun hm => ?_, hnodup⟩,
      ⟨unique_fresh base used, base, List.mem_cons_self, used, rfl⟩, fun name hname => ?_⟩
    · exact (hnames _ hm).1 (by simp)
    · obtain ⟨hfree, wish, hwish, hmade⟩ := hnames name hname
      exact ⟨fun h => hfree (List.mem_append_left _ h), wish, List.mem_cons_of_mem _ hwish, hmade⟩

theorem uniques_append (used wishes wishes' : List String) :
    uniques used (wishes ++ wishes') =
      ((uniques used wishes).1 ++ (uniques (uniques used wishes).2 wishes').1,
        (uniques (uniques used wishes).2 wishes').2) := by
  induction wishes generalizing used with
  | nil => rfl
  | cons base rest ih => simp only [List.cons_append, uniques, ih]

/-! ## The characters of numbered names -/

/-- What holds of the digits and of the characters of a name holds of those of the name that is given
for it. -/
theorem unique_chars {P : Char → Prop} (hdigit : ∀ c, c.isDigit = true → P c) {base : String}
    (h : ∀ c ∈ base.toList, P c) (used : List String) : ∀ c ∈ (unique base used).toList, P c := by
  rcases unique_spec base used with ⟨-, heq⟩ | ⟨-, n, -, heq, -⟩
  · rwa [heq]
  · rw [heq, String.toList_append, List.forall_mem_append]
    exact ⟨h, fun c hc => hdigit c (Text.isDigit_of_mem_nat hc)⟩

theorem unique_lettered {base : String} (h : Lettered base.toList) (used : List String) :
    Lettered (unique base used).toList :=
  unique_chars (fun _ => Text.isLettered_of_isDigit) h used

/-- The name that is given for a name begins with it. -/
theorem unique_prefix (base : String) (used : List String) :
    base.toList <+: (unique base used).toList := by
  rcases unique_spec base used with ⟨-, heq⟩ | ⟨-, n, -, heq, -⟩
  · rw [heq]
  · rw [heq, String.toList_append]
    exact List.prefix_append _ _

/-- A text without single quotation marks. -/
def Unquoted (cs : List Char) : Prop := '\'' ∉ cs

theorem Lettered.unquoted {cs : List Char} (h : Lettered cs) : Unquoted cs := h.not_mem rfl

theorem unique_unquoted {base : String} (h : Unquoted base.toList) (used : List String) :
    Unquoted (unique base used).toList := by
  have hmark : ∀ c ∈ base.toList, c ≠ '\'' := fun c hc he => h (he ▸ hc)
  exact fun hm => unique_chars (by rintro c hc rfl; cases hc) hmark used _ hm rfl

end Maquette.Naming
