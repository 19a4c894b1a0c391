/-
The name of a slot among those that are taken: the plain name while it is free, then the plain name
with the leftmost word for a position in the layer's name, then the first free one of the numbered
names. A name that starts with one plain name never is another plain name, so a plain name is taken
exactly when a slot of its own kind has it.
-/
import Maquette.Proofs.Text
import Maquette.Outline.Slot
import Std.Data.String.ToNat

namespace Maquette.Outline.Slot

/-! ## Words for a position -/

/-- A word with a capital letter in front. -/
def capitalized (word : String) : String :=
  match word.toList with
  | [] => ""
  | c :: rest => String.ofList (c.toUpper :: rest)

/-- A word for a position stands at a place of a text. -/
def StandsAt (word : String) (cs : List Char) (place : Nat) : Prop :=
  word ∈ positions.map (·.1) ∧ word.toList <+: cs.drop place

/-- A word for a position before which no other one begins in the text. -/
def IsLeftmost (word : String) (cs : List Char) : Prop :=
  ∃ place, StandsAt word cs place ∧ ∀ other place', StandsAt other cs place' → place ≤ place'

theorem positions_capitalized : ∀ p ∈ positions, p.2 = capitalized p.1 := by decide

/-- No word for a position begins another one. -/
theorem positions_apart : ∀ p ∈ positions, ∀ q ∈ positions, p.1.toList <+: q.1.toList → p.1 = q.1 := by
  decide

/-- At most one word for a position stands at a place. -/
theorem StandsAt.unique {word other : String} {cs : List Char} {place : Nat}
    (h : StandsAt word cs place) (h' : StandsAt other cs place) : word = other := by
  obtain ⟨p, hp, rfl⟩ := List.mem_map.1 h.1
  obtain ⟨q, hq, rfl⟩ := List.mem_map.1 h'.1
  rcases List.prefix_or_prefix_of_prefix h.2 h'.2 with hpq | hqp
  · exact positions_apart p hp q hq hpq
  · exact (positions_apart q hq p hp hqp).symm

theorem IsLeftmost.unique {word other : String} {cs : List Char} (h : IsLeftmost word cs)
    (h' : IsLeftmost other cs) : word = other := by
  obtain ⟨place, hs, hle⟩ := h
  obtain ⟨place', hs', hle'⟩ := h'
  obtain rfl := le_antisymm (hle _ _ hs') (hle' _ _ hs)
  exact hs.unique hs'

theorem not_standsAt_nil {word : String} {place : Nat} : ¬ StandsAt word [] place := by
  rintro ⟨hw, hp⟩
  obtain ⟨p, hp', rfl⟩ := List.mem_map.1 hw
  have hne : ∀ p ∈ positions, p.1.toList ≠ [] := by decide
  rw [List.drop_nil, List.prefix_nil] at hp
  exact hne p hp' hp

/-- The ending of a name is the leftmost word for a position, if there is any. -/
theorem positionEnding?_eq_some {cs : List Char} {ending : String} :
    positionEnding? cs = some ending ↔ ∃ word, IsLeftmost word cs ∧ ending = capitalized word := by
  induction cs with
  | nil =>
    simp only [positionEnding?, reduceCtorEq, false_iff]
    rintro ⟨word, ⟨place, h, -⟩, -⟩
    exact not_standsAt_nil h
  | cons c cs ih =>
    rw [positionEnding?]
    generalize hf : positions.find? _ = found
    cases found with
    | some p =>
      -- a word that begins the text is leftmost
      have hbegins : (Text.dropPrefix? p.1.toList (c :: cs)).isSome := by
        simpa using List.find?_some hf
      have hp : StandsAt p.1 (c :: cs) 0 :=
        ⟨List.mem_map_of_mem (List.mem_of_find?_eq_some hf), Text.isSome_dropPrefix?.1 hbegins⟩
      have hleft : IsLeftmost p.1 (c :: cs) := ⟨0, hp, fun _ _ _ => Nat.zero_le _⟩
      have hcap := positions_capitalized p (List.mem_of_find?_eq_some hf)
      constructor
      · rintro h
        cases h
        exact ⟨p.1, hleft, hcap⟩
      · rintro ⟨word, hword, rfl⟩
        rw [← hleft.unique hword, ← hcap]
    | none =>
      -- no word begins the text, so the leftmost one stands in the rest
      have hnone : ∀ word, ¬ StandsAt word (c :: cs) 0 := by
        rintro word ⟨hw, hp⟩
        obtain ⟨p, hp', rfl⟩ := List.mem_map.1 hw
        exact List.find?_eq_none.1 hf p hp' (Text.isSome_dropPrefix?.2 hp)
      have hshift : ∀ word, IsLeftmost word (c :: cs) ↔ IsLeftmost word cs := by
        intro word
        constructor
        · rintro ⟨place, hs, hle⟩
          cases place with
          | zero => exact absurd hs (hnone word)
          | succ place =>
            refine ⟨place, hs, fun other place' h => ?_⟩
            exact Nat.le_of_succ_le_succ (hle other (place' + 1) h)
        · rintro ⟨place, hs, hle⟩
          refine ⟨place + 1, hs, fun other place' h => ?_⟩
          cases place' with
          | zero => exact absurd h (hnone other)
          | succ place' => exact Nat.succ_le_succ (hle other place' h)
      simp only [ih, hshift]

/-! ## Numbered names -/

/-- Among so many numbered names one is free: there are more of them than taken ones. -/
theorem numbered_spec (base : String) (taken : List String) :
    ∃ n, 2 ≤ n ∧ numbered base taken = base ++ toString n ∧ base ++ toString n ∉ taken ∧
      ∀ m, 2 ≤ m → m < n → base ++ toString m ∈ taken := by
  have hinj : Function.Injective fun n : Nat => base ++ toString (n + 2) := by
    intro m n h
    have := Nat.repr_injective (String.append_right_inj base |>.1 h)
    omega
  unfold numbered
  simp only
  generalize hnames : (List.range (taken.length + 1)).map (fun n => base ++ toString (n + 2)) = names
  have hget : ∀ k < taken.length + 1, names[k]? = some (base ++ toString (k + 2)) := by
    intro k hk
    rw [← hnames, List.getElem?_map, List.getElem?_range hk]
    rfl
  have hlength : names.length = taken.length + 1 := by rw [← hnames]; simp
  have hfree : ∃ name ∈ names, (!taken.contains name) = true := by
    by_contra hall
    push Not at hall
    have hsub : names ⊆ taken := fun name hname => by simpa using hall name hname
    have hnodup : names.Nodup := by rw [← hnames]; exact List.nodup_range.map hinj
    have := (List.subperm_of_subset hnodup hsub).length_le
    omega
  obtain ⟨k, hk⟩ := Option.isSome_iff_exists.1 (List.find?_isSome.2 hfree)
  rw [hk, Option.getD_some]
  obtain ⟨hfree, i, hi, rfl, hbefore⟩ := List.find?_eq_some_iff_getElem.1 hk
  have hi' : names[i] = base ++ toString (i + 2) := by
    have := hget i (by omega)
    rw [List.getElem?_eq_getElem hi] at this
    exact Option.some.inj this
  refine ⟨i + 2, by omega, hi', ?_, fun m hm hlt => ?_⟩
  · rw [← hi']; simpa using hfree
  · obtain ⟨j, rfl⟩ : ∃ j, m = j + 2 := ⟨m - 2, by omega⟩
    have hj := hget j (by omega)
    rw [List.getElem?_eq_getElem (by omega)] at hj
    have := hbefore j (by omega)
    rw [Option.some.inj hj] at this
    simpa using this

/-! ## Names among taken ones -/

/-- `GetsName base lower isFirst taken name`: beside the names that are taken, a layer called `lower`
in small letters gets this name, where `base` is the plain name and `isFirst` tells whether no layer
before it goes by the same plain name. -/
inductive GetsName (base lower : String) (isFirst : Prop) (taken : List String) : String → Prop
  /-- The first one gets the plain name. -/
  | plain : isFirst → GetsName base lower isFirst taken base
  /-- A later one gets the leftmost word for a position behind it, if this is free. -/
  | placed {word : String} : ¬ isFirst → IsLeftmost word lower.toList →
      base ++ capitalized word ∉ taken →
      GetsName base lower isFirst taken (base ++ capitalized word)
  /-- Else it gets the least number from two on with which it is free. -/
  | counted {n : Nat} : ¬ isFirst →
      (∀ word, IsLeftmost word lower.toList → base ++ capitalized word ∈ taken) → 2 ≤ n →
      base ++ toString n ∉ taken → (∀ m, 2 ≤ m → m < n → base ++ toString m ∈ taken) →
      GetsName base lower isFirst taken (base ++ toString n)

theorem nameFor_getsName (base lower : String) (taken : List String) :
    GetsName base lower (base ∉ taken) taken (nameFor base lower taken) := by
  have hcounted : (¬ base ∉ taken) →
      (∀ word, IsLeftmost word lower.toList → base ++ capitalized word ∈ taken) →
      GetsName base lower (base ∉ taken) taken (numbered base taken) := by
    intro hfirst hplaced
    obtain ⟨n, hn, hname, hfree, hleast⟩ := numbered_spec base taken
    rw [hname]
    exact .counted hfirst hplaced hn hfree hleast
  unfold nameFor
  by_cases hb : base ∈ taken
  · rw [if_neg (by simpa using hb)]
    cases he : positionEnding? lower.toList with
    | none =>
      refine hcounted (not_not.2 hb) fun word hword => ?_
      rw [positionEnding?_eq_some.2 ⟨word, hword, rfl⟩] at he
      cases he
    | some ending =>
      obtain ⟨word, hword, rfl⟩ := positionEnding?_eq_some.1 he
      simp only [Option.map_some]
      by_cases ht : base ++ capitalized word ∈ taken
      · rw [if_pos (by simpa using ht)]
        exact hcounted (not_not.2 hb) fun other hother => by rwa [hother.unique hword]
      · rw [if_neg (by simpa using ht)]
        exact .placed (not_not.2 hb) hword ht
  · rw [if_pos (by simpa using hb)]
    exact .plain hb

section Names

variable {base lower name : String} {isFirst : Prop} {taken : List String}

/-- The name of a first slot is its plain name, and a later one has a longer name. -/
theorem GetsName.eq_append (h : GetsName base lower isFirst taken name) :
    ∃ ending, name = base ++ ending ∧ (ending = "" ↔ isFirst) := by
  cases h with
  | plain hf => exact ⟨"", by simp, by simp [hf]⟩
  | @placed word hf hw _ =>
    obtain ⟨place, ⟨hmem, -⟩, -⟩ := hw
    have hne : ∀ word ∈ positions.map (·.1), capitalized word ≠ "" := by decide
    exact ⟨_, rfl, by simp [hf, hne word hmem]⟩
  | @counted n hf =>
    exact ⟨_, rfl, by simp [hf]⟩

theorem GetsName.fresh (h : GetsName base lower isFirst taken name) (hf : isFirst → base ∉ taken) :
    name ∉ taken := by
  cases h with
  | plain h => exact hf h
  | placed _ _ hfree => exact hfree
  | counted _ _ _ hfree => exact hfree

end Names

/-- No plain name begins another one. -/
theorem vocabulary_prefix : ∀ w ∈ vocabulary, ∀ w' ∈ vocabulary,
    w.base.toList <+: w'.base.toList → w.base = w'.base := by decide

/-- The word of the vocabulary that a layer's name holds; the first one found decides. -/
def wordIn? (name : String) : Option Word :=
  vocabulary.find? fun w => Text.has (Text.lower name) w.word

end Maquette.Outline.Slot
