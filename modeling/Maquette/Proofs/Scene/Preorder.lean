/-
The walk through a scene is the recursive depth-first search. The search visits pending entries from
left to right and carries the nodes that were visited: it skips an entry whose node was, and else
visits the node, then everything below it, then the entries that follow. It spells out the trees of
nodes in which every node hangs where it was met first; the walk takes these trees in preorder.

The walk keeps the pending entries of all the levels in one list. What relates the two is that a walk
whose pending entries begin with those of a search takes the search's preorder first and then goes on
with the rest, the nodes that the search did not visit being the ones still to be met.
-/
import Maquette.Scene.Walk
import Mathlib

namespace Maquette

/-! ## Forests -/

/-- Trees that stand next to each other: the root of the first, what is below it, and the trees after
it. -/
inductive Forest (α : Type) where
  | nil
  | cons (root : α) (below after : Forest α)

namespace Forest

variable {α : Type}

/-- Each root before what is below it, and that before the trees after it. -/
def preorder : Forest α → List α
  | nil => []
  | cons a below after => a :: (below.preorder ++ after.preorder)

/-- The roots of the trees. -/
def roots : Forest α → List α
  | nil => []
  | cons a _ after => a :: after.roots

/-- All entries stand at their depths, the roots at `depth`. -/
def Deep : Nat → Forest Visit → Prop
  | _, nil => True
  | depth, cons v below after => v.depth = depth ∧ below.Deep (depth + 1) ∧ after.Deep depth

end Forest

namespace Scene

/-! ## Graphs -/

/-- A scene whose nodes are records with lists of children that are among its nodes. -/
structure IsGraph (s : Scene) : Prop where
  records : ∀ i < s.nodes.size, (s.dataAt i).isRecord = true
  listed : ∀ i < s.nodes.size, ∃ ts, s.branchesAt i = .items ts
  closed : ∀ i < s.nodes.size, ∀ ts, s.branchesAt i = .items ts → ∀ j, some j ∈ ts → j < s.nodes.size

/-- `j` is a child of `i`. -/
def Child (s : Scene) (i j : Nat) : Prop := ∃ ts, s.branchesAt i = .items ts ∧ some j ∈ ts

/-- `j` can be reached from `i`. -/
def Reachable (s : Scene) : Nat → Nat → Prop := Relation.ReflTransGen s.Child

theorem IsGraph.reachable_lt {s : Scene} (hs : s.IsGraph) {root i : Nat} (hr : root < s.nodes.size)
    (h : s.Reachable root i) : i < s.nodes.size := by
  induction h with
  | refl => exact hr
  | tail _ hc ih =>
    obtain ⟨ts, hts, hmem⟩ := hc
    exact hs.closed _ ih ts hts _ hmem

theorem mem_childVisits {depth : Nat} {ts : List (Option Nat)} {v : Visit} :
    v ∈ childVisits depth ts ↔ ts[v.place]? = some (some v.node) ∧ v.depth = depth + 1 := by
  obtain ⟨i, d, place⟩ := v
  simp only [childVisits, List.mem_filterMap, Option.map_eq_some_iff, Visit.mk.injEq, Prod.exists,
    List.mk_mem_zipIdx_iff_getElem?]
  constructor
  · rintro ⟨target, p, hp, j, rfl, rfl, rfl, rfl⟩
    exact ⟨hp, rfl⟩
  · rintro ⟨hp, rfl⟩
    exact ⟨_, _, hp, i, rfl, rfl, rfl, rfl⟩

/-- Every child is visited from its parent, and nothing else is. -/
theorem exists_childVisit {depth : Nat} {ts : List (Option Nat)} {j : Nat} :
    (∃ v ∈ childVisits depth ts, v.node = j) ↔ some j ∈ ts := by
  constructor
  · rintro ⟨v, hv, rfl⟩
    exact List.mem_of_getElem? (mem_childVisits.1 hv).1
  · intro h
    obtain ⟨place, hp⟩ := List.mem_iff_getElem?.1 h
    exact ⟨⟨j, depth + 1, place⟩, mem_childVisits.2 ⟨hp, rfl⟩, rfl⟩

/-! ## The recursive search -/

/-- `Search s seen pending forest seen'`: with the nodes `seen` visited, the search through the
`pending` entries spells out `forest` and ends with `seen'` visited. -/
inductive Search (s : Scene) : List Nat → List Visit → Forest Visit → List Nat → Prop
  | nil (seen : List Nat) : Search s seen [] .nil seen
  | skip {v : Visit} {pending : List Visit} {forest : Forest Visit} {seen seen' : List Nat} :
      v.node ∈ seen → Search s seen pending forest seen' → Search s seen (v :: pending) forest seen'
  | visit {v : Visit} {pending : List Visit} {ts : List (Option Nat)} {below after : Forest Visit}
      {seen seen₁ seen' : List Nat} :
      v.node ∉ seen → s.branchesAt v.node = .items ts →
      Search s (v.node :: seen) (childVisits v.depth ts) below seen₁ →
      Search s seen₁ pending after seen' →
      Search s seen (v :: pending) (.cons v below after) seen'

/-- Below each node hang children of its own, in the order of its list and with their places there. -/
def Hangs (s : Scene) : Forest Visit → Prop
  | .nil => True
  | .cons v below after =>
    (∃ ts, s.branchesAt v.node = .items ts ∧ below.roots.Sublist (childVisits v.depth ts)) ∧
      s.Hangs below ∧ s.Hangs after

/-- The forest that the search from a root spells out. -/
def Explored (s : Scene) (root : Nat) (forest : Forest Visit) : Prop :=
  ∃ seen, Search s [] [⟨root, 0, 0⟩] forest seen

namespace Search

variable {s : Scene} {seen seen' : List Nat} {pending : List Visit} {forest : Forest Visit}

/-- A search has one outcome. -/
theorem unique (h : Search s seen pending forest seen') {forest₂ : Forest Visit} {seen₂ : List Nat}
    (h₂ : Search s seen pending forest₂ seen₂) : forest = forest₂ ∧ seen' = seen₂ := by
  induction h generalizing forest₂ seen₂ with
  | nil => cases h₂; exact ⟨rfl, rfl⟩
  | skip hm _ ih =>
    cases h₂ with
    | skip _ h₂ => exact ih h₂
    | visit hn => exact absurd hm hn
  | visit hn hts _ _ ih₁ ih₂ =>
    cases h₂ with
    | skip hm => exact absurd hm hn
    | visit _ hts' hb ha =>
      rw [hts] at hts'; cases hts'
      obtain ⟨rfl, rfl⟩ := ih₁ hb
      obtain ⟨rfl, rfl⟩ := ih₂ ha
      exact ⟨rfl, rfl⟩

/-- The nodes visited at the end are those visited before and those of the forest. -/
theorem mem_seen (h : Search s seen pending forest seen') {i : Nat} :
    i ∈ seen' ↔ i ∈ seen ∨ i ∈ forest.preorder.map Visit.node := by
  induction h with
  | nil => simp [Forest.preorder]
  | skip _ _ ih => exact ih
  | visit _ _ _ _ ih₁ ih₂ =>
    rw [ih₂, ih₁]
    simp only [Forest.preorder, List.map_cons, List.map_append, List.mem_cons, List.mem_append]
    tauto

/-- No node is visited twice. -/
theorem nodup (h : Search s seen pending forest seen') :
    (forest.preorder.map Visit.node).Nodup ∧ ∀ i ∈ forest.preorder.map Visit.node, i ∉ seen := by
  induction h with
  | nil => simp [Forest.preorder]
  | skip _ _ ih => exact ih
  | @visit v pending ts below after seen seen₁ seen' hn _ hb _ ih₁ ih₂ =>
    obtain ⟨hnd₁, hni₁⟩ := ih₁
    obtain ⟨hnd₂, hni₂⟩ := ih₂
    -- what hangs after the node was not seen when the search below it had ended
    have hafter : ∀ i ∈ after.preorder.map Visit.node, i ≠ v.node ∧ i ∉ seen ∧
        i ∉ below.preorder.map Visit.node := by
      intro i hi
      have := hni₂ i hi
      rw [hb.mem_seen, List.mem_cons, not_or, not_or] at this
      exact ⟨this.1.1, this.1.2, this.2⟩
    have hbelow : ∀ i ∈ below.preorder.map Visit.node, i ≠ v.node ∧ i ∉ seen := by
      intro i hi
      have := hni₁ i hi
      rwa [List.mem_cons, not_or] at this
    simp only [Forest.preorder, List.map_cons, List.map_append]
    refine ⟨List.nodup_cons.2 ⟨?_, List.nodup_append.2 ⟨hnd₁, hnd₂, ?_⟩⟩, ?_⟩
    · intro hm
      rcases List.mem_append.1 hm with hm | hm
      · exact (hbelow _ hm).1 rfl
      · exact (hafter _ hm).1 rfl
    · rintro i hi j hj rfl
      exact (hafter i hj).2.2 hi
    · intro i hi
      rcases List.mem_cons.1 hi with rfl | hi
      · exact hn
      · rcases List.mem_append.1 hi with hi | hi
        · exact (hbelow i hi).2
        · exact (hafter i hi).2.1

/-- Every pending node ends up visited. -/
theorem pending_seen (h : Search s seen pending forest seen') : ∀ v ∈ pending, v.node ∈ seen' := by
  induction h with
  | nil => simp
  | skip hm h ih =>
    intro v hv
    rcases List.mem_cons.1 hv with rfl | hv
    · exact h.mem_seen.2 (.inl hm)
    · exact ih v hv
  | visit _ _ hb ha _ ih₂ =>
    intro v hv
    rcases List.mem_cons.1 hv with rfl | hv
    · exact ha.mem_seen.2 (.inl (hb.mem_seen.2 (.inl List.mem_cons_self)))
    · exact ih₂ v hv

/-- Every child of a node of the forest ends up visited. -/
theorem child_seen (h : Search s seen pending forest seen') :
    ∀ i ∈ forest.preorder.map Visit.node, ∀ j, s.Child i j → j ∈ seen' := by
  induction h with
  | nil => simp [Forest.preorder]
  | skip _ _ ih => exact ih
  | visit _ hts hb ha ih₁ ih₂ =>
    intro i hi j hj
    simp only [Forest.preorder, List.map_cons, List.map_append, List.mem_cons, List.mem_append] at hi
    rcases hi with rfl | hi | hi
    · -- the children of the node are pending in the search below it
      obtain ⟨ts, hts', hm⟩ := hj
      rw [hts] at hts'; cases hts'
      obtain ⟨v, hv, rfl⟩ := exists_childVisit.2 hm
      exact ha.mem_seen.2 (.inl (hb.pending_seen v hv))
    · exact ha.mem_seen.2 (.inl (ih₁ i hi j hj))
    · exact ih₂ i hi j hj

/-- Every node of the forest can be reached from a pending one. -/
theorem reachable (h : Search s seen pending forest seen') :
    ∀ i ∈ forest.preorder.map Visit.node, ∃ v ∈ pending, s.Reachable v.node i := by
  induction h with
  | nil => simp [Forest.preorder]
  | skip _ _ ih =>
    intro i hi
    obtain ⟨v, hv, hr⟩ := ih i hi
    exact ⟨v, List.mem_cons_of_mem _ hv, hr⟩
  | visit _ hts _ _ ih₁ ih₂ =>
    intro i hi
    simp only [Forest.preorder, List.map_cons, List.map_append, List.mem_cons, List.mem_append] at hi
    rcases hi with rfl | hi | hi
    · exact ⟨_, List.mem_cons_self, .refl⟩
    · obtain ⟨v, hv, hr⟩ := ih₁ i hi
      exact ⟨_, List.mem_cons_self, .head ⟨_, hts, exists_childVisit.1 ⟨v, hv, rfl⟩⟩ hr⟩
    · obtain ⟨v, hv, hr⟩ := ih₂ i hi
      exact ⟨v, List.mem_cons_of_mem _ hv, hr⟩

/-- Entries pending at one depth make trees that begin there. -/
theorem deep (h : Search s seen pending forest seen') {depth : Nat}
    (hd : ∀ v ∈ pending, v.depth = depth) : forest.Deep depth := by
  induction h generalizing depth with
  | nil => trivial
  | skip _ _ ih => exact ih fun v hv => hd v (List.mem_cons_of_mem _ hv)
  | visit _ _ _ _ ih₁ ih₂ =>
    have hv := hd _ List.mem_cons_self
    refine ⟨hv, ih₁ fun w hw => ?_, ih₂ fun v hv => hd v (List.mem_cons_of_mem _ hv)⟩
    rw [(mem_childVisits.1 hw).2, hv]

/-- The roots of the forest are pending entries in their order. -/
theorem roots_sublist (h : Search s seen pending forest seen') : forest.roots.Sublist pending := by
  induction h with
  | nil => exact .slnil
  | skip _ _ ih => exact ih.cons _
  | visit _ _ _ _ _ ih₂ => exact ih₂.cons_cons _

theorem hangs (h : Search s seen pending forest seen') : s.Hangs forest := by
  induction h with
  | nil => trivial
  | skip _ _ ih => exact ih
  | visit _ hts hb _ ih₁ ih₂ => exact ⟨⟨_, hts, hb.roots_sublist⟩, ih₁, ih₂⟩

end Search

/-! ## The walk -/

/-- The nodes not visited, in the order of their numbers. -/
def unseen (s : Scene) (seen : List Nat) : List Nat :=
  (List.range s.nodes.size).filter fun i => !seen.contains i

theorem mem_unseen {s : Scene} {seen : List Nat} {i : Nat} :
    i ∈ s.unseen seen ↔ i < s.nodes.size ∧ i ∉ seen := by
  simp [unseen]

theorem unseen_erase (s : Scene) (seen : List Nat) (i : Nat) :
    (s.unseen seen).erase i = s.unseen (i :: seen) := by
  unfold unseen
  rw [(List.nodup_range.filter _).erase_eq_filter, List.filter_filter]
  refine List.filter_congr fun j _ => ?_
  rw [List.contains_cons, Bool.not_or]
  rfl

section Walk

variable {s : Scene} {seen seen' : List Nat} {pending : List Visit} {forest : Forest Visit}

theorem childVisits_lt (hs : s.IsGraph) {i : Nat} (hi : i < s.nodes.size) {ts : List (Option Nat)}
    (hts : s.branchesAt i = .items ts) (depth : Nat) :
    ∀ v ∈ childVisits depth ts, v.node < s.nodes.size := fun v hv =>
  hs.closed _ hi _ hts _ (exists_childVisit.1 ⟨v, hv, rfl⟩)

/-- A search from nodes of a graph visits nodes of it. -/
theorem Search.lt_size (hs : s.IsGraph) (h : Search s seen pending forest seen')
    (hp : ∀ v ∈ pending, v.node < s.nodes.size) : ∀ v ∈ forest.preorder, v.node < s.nodes.size := by
  induction h with
  | nil => simp [Forest.preorder]
  | skip _ _ ih => exact ih fun v hv => hp v (List.mem_cons_of_mem _ hv)
  | visit _ hts _ _ ih₁ ih₂ =>
    have hv := hp _ List.mem_cons_self
    intro w hw
    simp only [Forest.preorder, List.mem_cons, List.mem_append] at hw
    rcases hw with rfl | hw | hw
    · exact hv
    · exact ih₁ (childVisits_lt hs hv hts _) w hw
    · exact ih₂ (fun v hv => hp v (List.mem_cons_of_mem _ hv)) w hw

/-- A walk whose pending entries begin with those of a search takes the search's preorder first. -/
theorem walkFrom_search (h : Search s seen pending forest seen')
    (hlt : ∀ v ∈ forest.preorder, v.node < s.nodes.size) (byPosition : Bool) (rest : List Visit) :
    s.walkFrom byPosition (s.unseen seen) (pending ++ rest) =
      let trail := s.walkFrom byPosition (s.unseen seen') rest
      ⟨forest.preorder ++ trail.visits, trail.fault⟩ := by
  induction h generalizing rest with
  | nil => rfl
  | skip hm _ ih =>
    rw [List.cons_append, walkFrom, dif_neg (by rw [mem_unseen]; exact fun h => h.2 hm)]
    exact ih hlt rest
  | @visit v pending ts below after seen seen₁ seen' hn hts _ _ ih₁ ih₂ =>
    simp only [Forest.preorder, List.forall_mem_cons, List.forall_mem_append] at hlt
    obtain ⟨hv, hbelow, hafter⟩ := hlt
    rw [List.cons_append, walkFrom, dif_pos (mem_unseen.2 ⟨hv, hn⟩)]
    simp only [hts, targets]
    rw [unseen_erase, ih₁ hbelow, ih₂ hafter]
    simp [Forest.preorder]

/-- A search from nodes of the scene always ends. -/
theorem exists_search (hs : s.IsGraph) (seen : List Nat) (pending : List Visit)
    (hp : ∀ v ∈ pending, v.node < s.nodes.size) :
    ∃ forest seen', Search s seen pending forest seen' := by
  match pending, hp with
  | [], _ => exact ⟨_, _, .nil seen⟩
  | v :: pending, hp =>
    have hrest : ∀ v ∈ pending, v.node < s.nodes.size := fun v hv => hp v (List.mem_cons_of_mem _ hv)
    by_cases hm : v.node ∈ seen
    · obtain ⟨forest, seen', h⟩ := exists_search hs seen pending hrest
      exact ⟨forest, seen', .skip hm h⟩
    · have hv := hp v List.mem_cons_self
      have hmem := mem_unseen.2 ⟨hv, hm⟩
      obtain ⟨ts, hts⟩ := hs.listed v.node hv
      have hlt : (s.unseen (v.node :: seen)).length < (s.unseen seen).length := by
        have := List.length_pos_of_mem hmem
        rw [← unseen_erase, List.length_erase_of_mem hmem]; omega
      obtain ⟨below, seen₁, hb⟩ := exists_search hs (v.node :: seen) _ (childVisits_lt hs hv hts _)
      -- what the search below has visited was fresh before, so fewer nodes are fresh for the rest
      have hle : (s.unseen seen₁).length < (s.unseen seen).length := by
        refine lt_of_le_of_lt (List.Sublist.length_le ?_) hlt
        refine List.monotone_filter_right _ fun i hi => ?_
        simp only [Bool.not_eq_true', List.contains_eq_mem, decide_eq_false_iff_not] at hi ⊢
        exact fun h => hi (hb.mem_seen.2 (.inl h))
      obtain ⟨after, seen', ha⟩ := exists_search hs seen₁ pending hrest
      exact ⟨_, _, .visit hm hts hb ha⟩
termination_by ((s.unseen seen).length, pending.length)

end Walk

/-! ## The walk from a root -/

section Root

variable {s : Scene} {root : Nat} {forest : Forest Visit}

theorem trailFrom_search {seen : List Nat} (h : Search s [] [⟨root, 0, 0⟩] forest seen)
    (hlt : ∀ v ∈ forest.preorder, v.node < s.nodes.size) (byPosition : Bool) :
    s.trailFrom byPosition root = ⟨forest.preorder, none⟩ := by
  have hw := walkFrom_search h hlt byPosition []
  have hall : s.unseen [] = List.range s.nodes.size := by simp [unseen]
  rw [hall, List.append_nil] at hw
  unfold trailFrom
  rw [hw]
  simp [walkFrom]

theorem trailFrom_explored (hs : s.IsGraph) (hr : root < s.nodes.size) (h : s.Explored root forest)
    (byPosition : Bool) : s.trailFrom byPosition root = ⟨forest.preorder, none⟩ := by
  obtain ⟨seen, h⟩ := h
  exact trailFrom_search h (h.lt_size hs (by simpa using hr)) byPosition

theorem exists_explored (hs : s.IsGraph) (hr : root < s.nodes.size) :
    ∃ below, s.Explored root (.cons ⟨root, 0, 0⟩ below .nil) := by
  obtain ⟨forest, seen, h⟩ := exists_search hs [] [⟨root, 0, 0⟩] (by simpa using hr)
  cases h with
  | skip hm => cases hm
  | visit hn hts hb ha =>
    cases ha
    exact ⟨_, _, .visit hn hts hb (.nil _)⟩

/-- The search from a root visits what can be reached from it. -/
theorem mem_explored (h : s.Explored root forest) (i : Nat) :
    i ∈ forest.preorder.map Visit.node ↔ s.Reachable root i := by
  obtain ⟨seen, h⟩ := h
  have hmem : ∀ {i}, i ∈ seen ↔ i ∈ forest.preorder.map Visit.node := by
    intro i; rw [h.mem_seen]; simp
  constructor
  · intro hi
    obtain ⟨v, hv, hr⟩ := h.reachable i hi
    rw [List.mem_singleton] at hv; subst hv
    exact hr
  · intro hr
    induction hr with
    | refl => exact hmem.1 (h.pending_seen _ List.mem_cons_self)
    | tail _ hc ih => exact hmem.1 (h.child_seen _ ih _ hc)

end Root

end Scene

end Maquette
