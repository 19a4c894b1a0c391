/-
The nodes of a walk by their ids: when every id can serve as a key, the table of a walk has for each
text the first node in walking order that carries it as its id, and finding a node is looking it up
there. What an entry adds to the table is found behind what the table had, so over a whole walk the
first one counts.
-/
import Maquette.Proofs.Datum
import Maquette.Scene.Walk

namespace Maquette

/-- Whether a node carries a text as its id. -/
def Datum.carries (id : String) (d : Datum) : Bool := ((d.at? "id").getD .null).isThe id

/-- A record whose id, if it has one, can serve as a key. -/
def Datum.HasKey (d : Datum) : Prop := d.isRecord = true ∧ ((d.at? "id").getD .null).isKey = true

namespace Walked

/-- The first node that carries a text as its id. -/
def firstWith (w : Walked) (id : String) : Option Datum :=
  (w.nodes.map (·.1)).find? (·.carries id)

theorem isThe_eq_same (d : Datum) (id : String) : d.isThe id = d.same (.text id) := by
  cases d <;> simp [Datum.isThe, Datum.same, Datum.sameScalar]

/-- The row that a node adds to a table of ids. -/
def entered (table : List (Datum × Datum)) (d : Datum) : Outcome (List (Datum × Datum)) := do
  let id ← d.get "id"
  if id.isNull then return table
  let id ← id.asKey
  return if table.any (·.1.same id) then table else table ++ [(id, d)]

/-- A node that carries an id is found under it unless another was entered before it. -/
theorem entered_find {d : Datum} (hd : d.HasKey) (table : List (Datum × Datum)) :
    ∃ table', entered table d = .ok table' ∧ ∀ id : String,
      (table'.find? (·.1.same (.text id))).map (·.2) =
        ((table.find? (·.1.same (.text id))).map (·.2)).or ([d].find? (·.carries id)) := by
  obtain ⟨hr, hk⟩ := hd
  unfold entered
  rw [Datum.get_eq hr, Outcome.ok_bind]
  have hc : ∀ id, d.carries id = ((d.at? "id").getD .null).same (.text id) := fun id =>
    isThe_eq_same _ id
  generalize (d.at? "id").getD .null = key at hk hc ⊢
  cases hn : key.isNull with
  | true =>
    refine ⟨table, rfl, fun id => ?_⟩
    have : d.carries id = false := by
      rw [hc]; cases key <;> first | rfl | cases hn
    simp [this]
  | false =>
    rw [if_neg Bool.false_ne_true, Datum.asKey_eq hk, Outcome.ok_bind]
    refine ⟨_, rfl, fun id => ?_⟩
    by_cases ht : table.any (·.1.same key) = true
    · -- the key is there, so a node with the same id was entered before
      rw [if_pos ht]
      cases hi : d.carries id with
      | false => simp [hi]
      | true =>
        rw [hc] at hi
        obtain rfl := Datum.same_text.1 hi
        obtain ⟨row, hrow⟩ := Option.isSome_iff_exists.1 (List.find?_isSome.2 (List.any_eq_true.1 ht))
        rw [hrow]; rfl
    · rw [if_neg ht, List.find?_append, Option.map_or]
      congr 1
      rw [List.find?_singleton, List.find?_singleton, hc]
      cases key.same (.text id) <;> rfl

theorem foldlM_entered {nodes : List (Datum × Nat)} (hk : ∀ row ∈ nodes, row.1.HasKey)
    (table : List (Datum × Datum)) :
    ∃ table', nodes.foldlM (fun table row => entered table row.1) table = .ok table' ∧
      ∀ id : String, (table'.find? (·.1.same (.text id))).map (·.2) =
        ((table.find? (·.1.same (.text id))).map (·.2)).or
          ((nodes.map (·.1)).find? (·.carries id)) := by
  induction nodes generalizing table with
  | nil => exact ⟨table, rfl, fun id => by simp⟩
  | cons row nodes ih =>
    obtain ⟨t₁, h₁, hf₁⟩ := entered_find (hk row List.mem_cons_self) table
    obtain ⟨t₂, h₂, hf₂⟩ := ih (fun r hr => hk r (List.mem_cons_of_mem _ hr)) t₁
    refine ⟨t₂, by rw [List.foldlM_cons, h₁, Outcome.ok_bind, h₂], fun id => ?_⟩
    rw [hf₂, hf₁, Option.or_assoc, ← List.find?_append]
    rfl

/-- The table of a walk has for each text the first node that carries it. -/
theorem index_first {w : Walked} (hf : w.fault = none) (hk : ∀ row ∈ w.nodes, row.1.HasKey) :
    ∃ table, w.index = .ok table ∧ ∀ id : String,
      (table.find? (·.1.same (.text id))).map (·.2) = w.firstWith id := by
  obtain ⟨table, h, hfind⟩ := foldlM_entered hk []
  refine ⟨table, ?_, fun id => by rw [hfind]; rfl⟩
  have : w.index = (do w.finish (← w.nodes.foldlM (fun table row => entered table row.1) [])) := rfl
  rw [this, h, Outcome.ok_bind, finish, hf]

theorem find_first {w : Walked} (hf : w.fault = none) (hk : ∀ row ∈ w.nodes, row.1.HasKey)
    (id : String) : w.find (.text id) = .ok (w.firstWith id) := by
  obtain ⟨table, h, hfind⟩ := index_first hf hk
  unfold find
  rw [h, Outcome.ok_bind]
  show Except.ok _ = _
  rw [hfind]

end Walked

end Maquette
