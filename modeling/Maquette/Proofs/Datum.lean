/-
What it means to read loosely typed data of the right kinds: texts are the same only as themselves,
the fields of a record can be read, and what is found in a table stands in one of its rows.
-/
import Maquette.Proofs.Outcome
import Maquette.Datum.Access

namespace Maquette

/-! ## Texts -/

theorem Datum.same_text {d : Datum} {s : String} : (d == .text s) = true ↔ d = .text s := by
  show d.same (.text s) = true ↔ _
  cases d <;> simp [Datum.same, Datum.sameScalar]

theorem Datum.text_same {d : Datum} {s : String} : (Datum.text s == d) = true ↔ d = .text s := by
  show (Datum.text s).same d = true ↔ _
  cases d with
  | text t => simp [Datum.same, Datum.sameScalar, eq_comm (a := s)]
  | _ => simp [Datum.same, Datum.sameScalar]

theorem Datum.isThe_iff {d : Datum} {s : String} : d.isThe s = true ↔ d = .text s := by
  cases d <;> simp [Datum.isThe]

theorem Datum.eq_text {d : Datum} {s : String} (h : d.textMember = .ok s) : d = .text s := by
  cases d <;> first | cases h; rfl | cases h

theorem Datum.textOrEmpty_text (s : String) : (Datum.text s).textOrEmpty = .ok s := by
  by_cases h : s = ""
  · rw [h]
    rfl
  · simp [Datum.textOrEmpty, Datum.isTruthy, Datum.textMember, h]

/-! ## Records -/

theorem Datum.eq_record {d : Datum} (h : d.isRecord = true) : ∃ fields, d = .record fields := by
  cases d <;> first | exact ⟨_, rfl⟩ | cases h

theorem Datum.get_eq {d : Datum} (h : d.isRecord = true) (key : String) :
    d.get key = .ok ((d.at? key).getD .null) := by
  cases d <;> first | rfl | cases h

theorem Datum.fieldOr_eq {d : Datum} (h : d.isRecord = true) (key : String) (default : Datum) :
    d.fieldOr key default = .ok ((d.at? key).getD default) := by
  cases d <;> first | rfl | cases h

/-- A field that could be read is what the record holds, or the default. -/
theorem Datum.fieldOr_ok {d default v : Datum} {key : String} (h : d.fieldOr key default = .ok v) :
    v = (d.at? key).getD default := by
  cases d <;> cases h; rfl

theorem Datum.get_ok {d v : Datum} {key : String} (h : d.get key = .ok v) :
    d.isRecord = true ∧ v = (d.at? key).getD .null := by
  cases d <;> cases h; exact ⟨rfl, rfl⟩

theorem Datum.need_ok {d v : Datum} {key : String} (h : d.need key = .ok v) : d.at? key = some v := by
  unfold Datum.need at h
  split at h
  · split at h
    · rename_i hv
      cases h
      exact hv
    · cases h
  · cases h

theorem Datum.asKey_ok {d k : Datum} (h : d.asKey = .ok k) : k = d := by
  unfold Datum.asKey at h
  split at h <;> cases h; rfl

theorem Datum.asKey_eq {d : Datum} (h : d.isKey = true) : d.asKey = .ok d := by
  simp [Datum.asKey, h]

/-- The items of a field that is a list. -/
theorem Datum.itemsOf_list {d : Datum} {key : String} {items : List Datum}
    (h : d.get key = .ok (.list items)) : d.itemsOf key = .ok items := by
  unfold Datum.itemsOf
  rw [h, Outcome.ok_bind]
  cases items <;> rfl

/-! ## Tables -/

theorem Table.set_nil {κ α : Type} [BEq κ] {k : κ} {v : α} : Table.set [] k v = [(k, v)] := rfl

theorem Table.set_cons {κ α : Type} [BEq κ] {k k' : κ} {v w : α} {t : Table κ α} :
    Table.set ((k', w) :: t) k v = if k' == k then (k', v) :: t else (k', w) :: t.set k v := rfl

/-- What is found under a key stands in a row with the same key. -/
theorem Table.mem_of_lookup {κ α : Type} [BEq κ] {k : κ} {v : α} :
    ∀ {t : Table κ α}, t.lookup k = some v → ∃ k', (k == k') = true ∧ (k', v) ∈ t
  | [], h => by cases h
  | (k', v') :: t, h => by
    rw [List.lookup_cons] at h
    cases hk : k == k' with
    | true => rw [hk] at h; cases h; exact ⟨k', hk, List.mem_cons_self⟩
    | false =>
      rw [hk] at h
      obtain ⟨k'', hk'', hm⟩ := mem_of_lookup h
      exact ⟨k'', hk'', List.mem_cons_of_mem _ hm⟩

/-- Where keys are distinct, exactly what stands in its row is found under a key that is the same as
itself only. -/
theorem Table.lookup_iff_of_same {κ α : Type} [BEq κ] {k : κ} {v : α} {t : Table κ α}
    (hk : ∀ k', (k == k') = true ↔ k' = k) (h : (t.map Prod.fst).Nodup) :
    t.lookup k = some v ↔ (k, v) ∈ t := by
  refine ⟨fun hl => ?_, fun hm => ?_⟩
  · obtain ⟨k', hsame, hm⟩ := Table.mem_of_lookup hl
    exact (hk k').1 hsame ▸ hm
  · obtain ⟨w, hw⟩ := Option.isSome_iff_exists.1
      (List.lookup_isSome_iff.2 ⟨(k, v), hm, (hk k).2 rfl⟩)
    obtain ⟨k', hsame, hm'⟩ := Table.mem_of_lookup hw
    obtain rfl := (hk k').1 hsame
    have hrow : (k', w) = (k', v) := List.inj_on_of_nodup_map h hm' hm rfl
    rw [hw, (Prod.mk.inj hrow).2]

theorem Table.lookup_eq_some_iff {κ α : Type} [BEq κ] [LawfulBEq κ] {k : κ} {v : α} {t : Table κ α}
    (h : (t.map Prod.fst).Nodup) : t.lookup k = some v ↔ (k, v) ∈ t :=
  lookup_iff_of_same (fun _ => beq_iff_eq.trans eq_comm) h

theorem Table.lookup_text {α : Type} {k : String} {v : α} {t : Table Datum α}
    (h : (t.map Prod.fst).Nodup) : t.lookup (.text k) = some v ↔ (.text k, v) ∈ t :=
  lookup_iff_of_same (fun _ => Datum.text_same) h

/-- Setting a key changes what is found under it, and nothing else. -/
theorem Table.lookup_set_of_same {κ α : Type} [BEq κ] {k key : κ} {v : α}
    (hk : ∀ k', (k' == k) = true ↔ k' = k) (hkey : ∀ k', (key == k') = true ↔ k' = key) :
    ∀ {t : Table κ α}, (t.set k v).lookup key = if key == k then some v else t.lookup key
  | [] => by
    rw [Table.set_nil, List.lookup_cons, List.lookup_nil]
    cases key == k <;> rfl
  | (k', w) :: t => by
    rw [Table.set_cons]
    split
    · rename_i hset
      obtain rfl := (hk k').1 hset
      rw [List.lookup_cons, List.lookup_cons]
      cases key == k' <;> rfl
    · rename_i hset
      rw [List.lookup_cons, List.lookup_cons, lookup_set_of_same hk hkey]
      cases hrow : key == k' with
      | false => rfl
      | true =>
        -- the first row has another key than the one that is set
        obtain rfl := (hkey k').1 hrow
        simp only [hset, Bool.false_eq_true, if_false]

theorem Table.lookup_set_self {κ α : Type} [BEq κ] [LawfulBEq κ] {k : κ} {v : α} {t : Table κ α} :
    (t.set k v).lookup k = some v := by
  rw [lookup_set_of_same (fun _ => beq_iff_eq) (fun _ => beq_iff_eq.trans eq_comm),
    if_pos (beq_self_eq_true k)]

theorem Table.lookup_set_ne {κ α : Type} [BEq κ] [LawfulBEq κ] {k key : κ} {v : α} (h : key ≠ k)
    {t : Table κ α} : (t.set k v).lookup key = t.lookup key := by
  rw [lookup_set_of_same (fun _ => beq_iff_eq) (fun _ => beq_iff_eq.trans eq_comm),
    if_neg (by simpa using h)]

/-- What all values of a table have, what is found in it has, or the default. -/
theorem Table.lookup_getD {κ α : Type} [BEq κ] {P : α → Prop} {t : Table κ α} {k : κ} {default : α}
    (h : ∀ row ∈ t, P row.2) (hd : P default) : P ((t.lookup k).getD default) := by
  cases hl : t.lookup k with
  | none => exact hd
  | some v =>
    obtain ⟨k', -, hmem⟩ := Table.mem_of_lookup hl
    exact h _ hmem

/-- Setting a key adds no other value. -/
theorem Table.mem_set {κ α : Type} [BEq κ] {k : κ} {v : α} :
    ∀ {t : Table κ α} {row : κ × α}, row ∈ t.set k v → row ∈ t ∨ row.2 = v
  | [], row, h => by
    rw [Table.set_nil, List.mem_singleton] at h
    exact .inr (by rw [h])
  | (k', v') :: t, row, h => by
    rw [Table.set_cons] at h
    split at h
    · rcases List.mem_cons.1 h with rfl | h
      · exact .inr rfl
      · exact .inl (List.mem_cons_of_mem _ h)
    · rcases List.mem_cons.1 h with rfl | h
      · exact .inl List.mem_cons_self
      · exact (mem_set h).imp_left (List.mem_cons_of_mem _)

/-- Among rows of distinct keys, one that is set takes the place of the one with its key. -/
theorem Table.mem_set_iff {κ α : Type} [BEq κ] [LawfulBEq κ] {k : κ} {v : α} {row : κ × α} :
    ∀ {t : Table κ α}, (t.map Prod.fst).Nodup →
      (row ∈ t.set k v ↔ row = (k, v) ∨ row ∈ t ∧ row.1 ≠ k)
  | [], _ => by simp [Table.set_nil]
  | (k', v') :: t, h => by
    obtain ⟨hk, ht⟩ := List.nodup_cons.1 h
    rw [Table.set_cons]
    split
    · rename_i heq
      obtain rfl := beq_iff_eq.1 heq
      have hother : ∀ row ∈ t, row.1 ≠ k' := fun row hrow he =>
        hk (List.mem_map.2 ⟨row, hrow, he⟩)
      simp only [List.mem_cons]
      constructor
      · rintro (rfl | hrow)
        · exact .inl rfl
        · exact .inr ⟨.inr hrow, hother row hrow⟩
      · rintro (rfl | ⟨rfl | hrow, hne⟩)
        · exact .inl rfl
        · exact absurd rfl hne
        · exact .inr hrow
    · rename_i hne
      rw [List.mem_cons, mem_set_iff ht, List.mem_cons]
      constructor
      · rintro (rfl | rfl | hrow)
        · exact .inr ⟨.inl rfl, fun he => hne (beq_iff_eq.2 he)⟩
        · exact .inl rfl
        · exact .inr ⟨.inr hrow.1, hrow.2⟩
      · rintro (rfl | ⟨rfl | hrow, hk'⟩)
        · exact .inr (.inl rfl)
        · exact .inl rfl
        · exact .inr (.inr ⟨hrow, hk'⟩)

theorem Table.mem_fst_set {κ α : Type} [BEq κ] [LawfulBEq κ] {k key : κ} {v : α} {t : Table κ α} :
    key ∈ (t.set k v).map Prod.fst ↔ key = k ∨ key ∈ t.map Prod.fst := by
  induction t with
  | nil => simp [Table.set_nil]
  | cons row t ih =>
    rw [Table.set_cons]
    split
    · rename_i heq
      obtain rfl := beq_iff_eq.1 heq
      simp
    · rw [List.map_cons, List.mem_cons, ih, List.map_cons, List.mem_cons, or_left_comm]

theorem Table.nodup_set {κ α : Type} [BEq κ] [LawfulBEq κ] {k : κ} {v : α} :
    ∀ {t : Table κ α}, (t.map Prod.fst).Nodup → ((t.set k v).map Prod.fst).Nodup
  | [], _ => by simp [Table.set_nil]
  | (k', v') :: t, h => by
    obtain ⟨hk, ht⟩ := List.nodup_cons.1 h
    rw [Table.set_cons]
    split
    · exact h
    · rename_i hne
      refine List.nodup_cons.2 ⟨fun hm => ?_, nodup_set ht⟩
      obtain ⟨row, hrow, he⟩ := List.mem_map.1 hm
      rcases (mem_set_iff ht).1 hrow with rfl | ⟨hrow, -⟩
      · exact hne (beq_iff_eq.2 he.symm)
      · exact hk (List.mem_map.2 ⟨row, hrow, he⟩)

/-- What all rows have, they keep when a row is set that has it too. -/
theorem Table.forall_set {κ α : Type} [BEq κ] {P : κ → Prop} {Q : α → Prop} {k : κ} {v : α}
    (hk : P k) (hv : Q v) :
    ∀ {t : Table κ α}, (∀ row ∈ t, P row.1 ∧ Q row.2) → ∀ row ∈ t.set k v, P row.1 ∧ Q row.2
  | [], _ => by simpa [Table.set_nil] using ⟨hk, hv⟩
  | (k', v') :: t, h => by
    obtain ⟨hrow, hrest⟩ := List.forall_mem_cons.1 h
    rw [Table.set_cons]
    split
    · exact List.forall_mem_cons.2 ⟨⟨hrow.1, hv⟩, hrest⟩
    · exact List.forall_mem_cons.2 ⟨hrow, forall_set hk hv hrest⟩

/-- What all values have after one was set, all had before, if the one that it took the place of
had it too. -/
theorem Table.forall_of_set {κ α : Type} [BEq κ] [LawfulBEq κ] {Q : α → Prop} {k : κ} {v : α} :
    ∀ {t : Table κ α}, (∀ w, t.lookup k = some w → Q v → Q w) → (∀ row ∈ t.set k v, Q row.2) →
      Q v ∧ ∀ row ∈ t, Q row.2
  | [], _, h => by simpa [Table.set_nil] using h
  | (k', v') :: t, hold, h => by
    rw [Table.set_cons] at h
    by_cases hk : k' = k
    · subst hk
      rw [if_pos (beq_self_eq_true k')] at h
      obtain ⟨hv, hrest⟩ := List.forall_mem_cons.1 h
      exact ⟨hv, List.forall_mem_cons.2 ⟨hold v' (by simp) hv, hrest⟩⟩
    · rw [if_neg (by simpa using hk)] at h
      obtain ⟨hv', hrest⟩ := List.forall_mem_cons.1 h
      have hlook : t.lookup k = List.lookup k ((k', v') :: t) := by
        rw [List.lookup_cons, beq_eq_false_iff_ne.2 (Ne.symm hk)]
      obtain ⟨hv, hall⟩ := forall_of_set (fun w hw => hold w (hlook ▸ hw)) hrest
      exact ⟨hv, List.forall_mem_cons.2 ⟨hv', hall⟩⟩

/-- A value that is set in place of another one adds a condition to what all values have, if it adds
it to what the other one has. -/
theorem Table.forall_set_iff {κ α : Type} [BEq κ] [LawfulBEq κ] {Q : α → Prop} {R : Prop}
    {t : Table κ α} {k : κ} {v default : α} (hd : Q default)
    (h : Q v ↔ Q ((t.lookup k).getD default) ∧ R) :
    (∀ row ∈ t.set k v, Q row.2) ↔ (∀ row ∈ t, Q row.2) ∧ R := by
  constructor
  · intro hset
    obtain ⟨hv, hall⟩ := forall_of_set
      (fun w hw hv => by have hw' := (h.1 hv).1; rwa [hw] at hw') hset
    exact ⟨hall, (h.1 hv).2⟩
  · rintro ⟨hall, hR⟩ row hrow
    rcases mem_set hrow with hrow | hrow
    · exact hall row hrow
    · rw [hrow]
      exact h.2 ⟨lookup_getD hall hd, hR⟩

/-- Rows of distinct keys are a table. -/
theorem Table.ofRows_eq {κ α : Type} [BEq κ] {rows : List (κ × α)}
    (h : rows.Pairwise fun r r' => (r.1 == r'.1) = false) : Table.ofRows rows = rows := by
  have hset : ∀ {t : Table κ α} {k : κ} {v : α}, (∀ row ∈ t, (row.1 == k) = false) →
      t.set k v = t ++ [(k, v)] := by
    intro t k v ht
    induction t with
    | nil => rfl
    | cons row t ih =>
      obtain ⟨hrow, ht⟩ := List.forall_mem_cons.1 ht
      rw [Table.set_cons, hrow, if_neg Bool.false_ne_true, ih ht, List.cons_append]
  have hfold : ∀ (rows t : List (κ × α)), (t ++ rows).Pairwise (fun r r' => (r.1 == r'.1) = false) →
      rows.foldl (fun t r => set t r.1 r.2) t = t ++ rows := by
    intro rows
    induction rows with
    | nil => simp
    | cons r rows ih =>
      intro t h
      have hnew := (List.pairwise_append.1 h).2.2
      rw [List.foldl_cons, hset fun row hrow => hnew row hrow r List.mem_cons_self,
        ih (t ++ [r]) (by simpa using h)]
      simp
  exact hfold rows [] h

/-- The values of a table are values of the rows that it is made of. -/
theorem Table.mem_ofRows {κ α : Type} [BEq κ] {rows : List (κ × α)} {row : κ × α}
    (h : row ∈ Table.ofRows rows) : row.2 ∈ rows.map (·.2) := by
  have hfold : ∀ (rows : List (κ × α)) (t : Table κ α),
      row ∈ rows.foldl (fun t r => set t r.1 r.2) t → row ∈ t ∨ row.2 ∈ rows.map (·.2) := by
    intro rows
    induction rows with
    | nil => exact fun t h => .inl h
    | cons r rows ih =>
      intro t h
      rcases ih _ h with h | h
      · rcases mem_set h with h | h
        · exact .inl h
        · exact .inr (by rw [h]; exact List.mem_cons_self)
      · exact .inr (List.mem_cons_of_mem _ h)
  exact (hfold rows [] h).resolve_left (by simp)

end Maquette
