/-
The walk through a value read from a file. There every node is written once, so the walk is the plain
recursion: a node before its children, and these in order, each one deeper than their parent.

Planting numbers the nodes from the bottom up, so the nodes of a part are those numbered while it is
planted. A search that has visited none of these numbers visits them all, whatever else the scene
holds.
-/
import Maquette.Proofs.Datum
import Maquette.Proofs.Scene.Preorder

namespace Maquette

/-! ## Trees -/

mutual

/-- Whether every node below a value has a list of children, if it has any. -/
def Datum.isTree : Datum → Bool
  | .record fields => Datum.isTreeFields fields
  | _ => true

def Datum.isTreeFields : List (String × Datum) → Bool
  | [] => true
  | (k, v) :: rest => if k == "children" then Datum.isTreeChildren v else Datum.isTreeFields rest

def Datum.isTreeChildren : Datum → Bool
  | .list items => Datum.isTreeItems items
  | .text _ => true
  | .record fields => fields.isEmpty
  | d => !d.isTruthy

def Datum.isTreeItems : List Datum → Bool
  | [] => true
  | d :: rest => d.isTree && Datum.isTreeItems rest

end

mutual

/-- The nodes of a value in preorder with their depths, its own being `depth`. -/
def Datum.preorder (depth : Nat) : Datum → List (Datum × Nat)
  | .record fields => (.record fields, depth) :: Datum.preorderFields (depth + 1) fields
  | _ => []

def Datum.preorderFields (depth : Nat) : List (String × Datum) → List (Datum × Nat)
  | [] => []
  | (k, v) :: rest =>
    if k == "children" then Datum.preorderChildren depth v else Datum.preorderFields depth rest

def Datum.preorderChildren (depth : Nat) : Datum → List (Datum × Nat)
  | .list items => Datum.preorderItems depth items
  | _ => []

def Datum.preorderItems (depth : Nat) : List Datum → List (Datum × Nat)
  | [] => []
  | d :: rest => d.preorder depth ++ Datum.preorderItems depth rest

end

/-- The children of a node are the value of its first field of that name. -/
theorem Datum.isTreeFields_lookup (fields : List (String × Datum)) :
    Datum.isTreeFields fields = ((fields.lookup "children").map Datum.isTreeChildren).getD true := by
  induction fields with
  | nil => rfl
  | cons row fields ih =>
    rw [Datum.isTreeFields, List.lookup_cons, ih, BEq.comm]
    cases "children" == row.1 <;> rfl

theorem Datum.preorderFields_lookup (depth : Nat) (fields : List (String × Datum)) :
    Datum.preorderFields depth fields =
      ((fields.lookup "children").map (Datum.preorderChildren depth)).getD [] := by
  induction fields with
  | nil => rfl
  | cons row fields ih =>
    rw [Datum.preorderFields, List.lookup_cons, ih, BEq.comm]
    cases "children" == row.1 <;> rfl

/-- All of several trees are trees. -/
theorem Datum.isTreeItems_iff {items : List Datum} :
    Datum.isTreeItems items = true ↔ ∀ d ∈ items, d.isTree = true := by
  induction items with
  | nil => simp [Datum.isTreeItems]
  | cons d items ih => simp [Datum.isTreeItems, ih]

theorem Datum.mem_preorderItems {depth : Nat} {items : List Datum} {row : Datum × Nat} :
    row ∈ Datum.preorderItems depth items ↔ ∃ d ∈ items, row ∈ d.preorder depth := by
  induction items with
  | nil => simp [Datum.preorderItems]
  | cons d items ih => simp [Datum.preorderItems, ih]

namespace Scene

/-! ## Searching what was planted -/

/-- The visits of children whose places begin at `place`. -/
def visitsFrom (depth place : Nat) (ts : List (Option Nat)) : List Visit :=
  (ts.zipIdx place).filterMap fun (target, place) => target.map fun i => ⟨i, depth, place⟩

/-- A node or its absence as the entries of a search. -/
theorem visitsFrom_cons (depth place : Nat) (t : Option Nat) (ts : List (Option Nat)) :
    visitsFrom depth place (t :: ts) =
      (t.map fun i => (⟨i, depth, place⟩ : Visit)).toList ++ visitsFrom depth (place + 1) ts := by
  cases t <;> rfl

/-- Items that are no nodes are not visited. -/
theorem visitsFrom_none {α : Type} (depth place : Nat) (items : List α) :
    visitsFrom depth place (items.map fun _ => none) = [] := by
  induction items generalizing place with
  | nil => rfl
  | cons _ _ ih => rw [List.map_cons, visitsFrom_cons, ih]; rfl

/-- A search through entries is one through the first ones and then one through the others. -/
theorem Search.append {s : Scene} {seen seen₁ seen₂ : List Nat} {pending rest : List Visit}
    {f g : Forest Visit} (h : Search s seen pending f seen₁) (h' : Search s seen₁ rest g seen₂) :
    ∃ forest, Search s seen (pending ++ rest) forest seen₂ ∧
      forest.preorder = f.preorder ++ g.preorder := by
  induction h with
  | nil => exact ⟨g, h', rfl⟩
  | skip hm _ ih =>
    obtain ⟨forest, hf, hp⟩ := ih h'
    exact ⟨forest, .skip hm hf, hp⟩
  | visit hn hts hb _ _ ih =>
    obtain ⟨forest, hf, hp⟩ := ih h'
    exact ⟨_, .visit hn hts hb hf, by simp [Forest.preorder, hp]⟩

/-- From the entries `pending`, a search visits the nodes numbered from `lo` to `hi` alone, and what it
meets reads `rows`. -/
def Covers (s : Scene) (lo hi : Nat) (pending : List Visit) (rows : List (Datum × Nat)) : Prop :=
  ∀ seen, (∀ i ∈ seen, i < lo ∨ hi ≤ i) → ∃ forest seen', Search s seen pending forest seen' ∧
    forest.preorder.map (fun v => (s.dataAt v.node, v.depth)) = rows ∧
    ∀ i ∈ seen', i ∈ seen ∨ lo ≤ i ∧ i < hi

theorem Covers.nil {s : Scene} {lo hi : Nat} : s.Covers lo hi [] [] := fun seen _ =>
  ⟨_, seen, .nil seen, rfl, fun _ h => .inl h⟩

theorem Covers.append {s : Scene} {lo mid hi : Nat} {pending pending' : List Visit}
    {rows rows' : List (Datum × Nat)} (h : s.Covers lo mid pending rows)
    (h' : s.Covers mid hi pending' rows') (hlo : lo ≤ mid) (hhi : mid ≤ hi) :
    s.Covers lo hi (pending ++ pending') (rows ++ rows') := by
  intro seen hseen
  obtain ⟨f, seen₁, hf, hrows, h₁⟩ := h seen fun i hi' => (hseen i hi').imp_right fun h => by omega
  -- what the first search has visited lies below `mid`
  obtain ⟨g, seen₂, hg, hrows', h₂⟩ := h' seen₁ fun i hi' => by
    rcases h₁ i hi' with hi' | hi'
    · exact (hseen i hi').imp_left fun h => by omega
    · exact .inl hi'.2
  obtain ⟨forest, hs, hp⟩ := hf.append hg
  refine ⟨forest, seen₂, hs, by rw [hp, List.map_append, hrows, hrows'], fun i hi' => ?_⟩
  rcases h₂ i hi' with hi' | hi'
  · exact (h₁ i hi').imp_right fun h => by omega
  · exact .inr (by omega)

/-- A node numbered after everything below it. -/
theorem Covers.node {s : Scene} {lo i depth : Nat} {ts : List (Option Nat)}
    {rows : List (Datum × Nat)} (hts : s.branchesAt i = .items ts) (hlo : lo ≤ i)
    (h : s.Covers lo i (visitsFrom (depth + 1) 0 ts) rows) (place : Nat) :
    s.Covers lo (i + 1) [⟨i, depth, place⟩] ((s.dataAt i, depth) :: rows) := by
  intro seen hseen
  have hn : i ∉ seen := fun hm => by have := hseen i hm; omega
  obtain ⟨f, seen', hf, hrows, h'⟩ := h (i :: seen) fun j hj => by
    rcases List.mem_cons.1 hj with rfl | hj
    · exact .inr le_rfl
    · exact (hseen j hj).imp_right fun h => by omega
  refine ⟨.cons ⟨i, depth, place⟩ f .nil, seen', .visit hn hts hf (.nil _), ?_, fun j hj => ?_⟩
  · simp [Forest.preorder, hrows]
  · rcases h' j hj with hj | hj
    · rcases List.mem_cons.1 hj with rfl | hj
      · exact .inr ⟨hlo, Nat.lt_succ_self _⟩
      · exact .inl hj
    · exact .inr (by omega)

/-! ## Planting -/

/-- The second array holds what the first one does, in the same places. -/
def Extends (nodes nodes' : Array SceneNode) : Prop :=
  nodes.size ≤ nodes'.size ∧ ∀ i < nodes.size, nodes'[i]? = nodes[i]?

theorem Extends.refl (nodes : Array SceneNode) : Extends nodes nodes := ⟨le_rfl, fun _ _ => rfl⟩

theorem Extends.trans {a b c : Array SceneNode} (h : Extends a b) (h' : Extends b c) : Extends a c :=
  ⟨h.1.trans h'.1, fun i hi => (h'.2 i (hi.trans_le h.1)).trans (h.2 i hi)⟩

theorem Extends.push (nodes : Array SceneNode) (n : SceneNode) : Extends nodes (nodes.push n) := by
  refine ⟨by simp, fun i hi => ?_⟩
  rw [Array.getElem?_push, if_neg (by omega)]

/-- The node that was pushed last, read in a scene. -/
theorem Extends.last {nodes : Array SceneNode} {n : SceneNode} {s : Scene}
    (h : Extends (nodes.push n) s.nodes) :
    s.dataAt nodes.size = n.data ∧ s.branchesAt nodes.size = n.branches := by
  have : s.nodes[nodes.size]? = some n := by
    rw [h.2 _ (by simp)]; simp
  simp [dataAt, branchesAt, this]

mutual

theorem plant_covers (nodes : Array SceneNode) (d : Datum) (ht : d.isTree = true) :
    Extends nodes (plant nodes d).1 ∧ ∀ s : Scene, Extends (plant nodes d).1 s.nodes →
      ∀ depth place, s.Covers nodes.size (plant nodes d).1.size
        ((plant nodes d).2.map fun i => (⟨i, depth, place⟩ : Visit)).toList (d.preorder depth) := by
  cases d with
  | record fields =>
    rw [Datum.isTree] at ht
    obtain ⟨ts, hts, hext, hcov⟩ := plantFields_covers nodes fields ht
    rw [plant]
    refine ⟨hext.trans (.push _ _), fun s hs depth place => ?_⟩
    -- the node is pushed behind everything below it
    obtain ⟨hdata, hbranches⟩ := hs.last
    have hc := hcov s (.trans (.push _ _) hs) (depth + 1)
    have := Covers.node (hbranches.trans hts) hext.1 hc place
    rw [hdata] at this
    rw [Datum.preorder, Array.size_push]
    exact this
  | _ => exact ⟨.refl _, fun s _ depth place => .nil⟩

theorem plantFields_covers (nodes : Array SceneNode) (fields : List (String × Datum))
    (ht : Datum.isTreeFields fields = true) :
    ∃ ts, (plantFields nodes fields).2 = .items ts ∧ Extends nodes (plantFields nodes fields).1 ∧
      ∀ s : Scene, Extends (plantFields nodes fields).1 s.nodes → ∀ depth,
        s.Covers nodes.size (plantFields nodes fields).1.size (visitsFrom depth 0 ts)
          (Datum.preorderFields depth fields) := by
  match fields with
  | [] => exact ⟨[], rfl, .refl _, fun s _ depth => .nil⟩
  | (k, v) :: rest =>
    rw [Datum.isTreeFields] at ht
    simp only [plantFields, Datum.preorderFields]
    cases hk : k == "children" with
    | true => rw [hk] at ht; exact plantChildren_covers nodes v ht
    | false => rw [hk] at ht; exact plantFields_covers nodes rest ht

theorem plantChildren_covers (nodes : Array SceneNode) (d : Datum)
    (ht : Datum.isTreeChildren d = true) :
    ∃ ts, (plantChildren nodes d).2 = .items ts ∧ Extends nodes (plantChildren nodes d).1 ∧
      ∀ s : Scene, Extends (plantChildren nodes d).1 s.nodes → ∀ depth,
        s.Covers nodes.size (plantChildren nodes d).1.size (visitsFrom depth 0 ts)
          (Datum.preorderChildren depth d) := by
  cases d with
  | list items =>
    obtain ⟨hext, hcov⟩ := plantItems_covers nodes items ht
    exact ⟨_, rfl, hext, fun s hs depth => hcov s hs depth 0⟩
  | text t =>
    refine ⟨_, rfl, .refl _, fun s _ depth => ?_⟩
    rw [visitsFrom_none]
    exact .nil
  | record fields =>
    rw [Datum.isTreeChildren] at ht
    exact ⟨[], by simp [plantChildren, ht], .refl _, fun s _ depth => .nil⟩
  | _ =>
    rw [Datum.isTreeChildren.eq_def] at ht
    simp only [Bool.not_eq_true'] at ht
    exact ⟨[], by simp [plantChildren, ht], .refl _, fun s _ depth => .nil⟩

theorem plantItems_covers (nodes : Array SceneNode) (items : List Datum)
    (ht : Datum.isTreeItems items = true) :
    Extends nodes (plantItems nodes items).1 ∧ ∀ s : Scene,
      Extends (plantItems nodes items).1 s.nodes → ∀ depth place,
        s.Covers nodes.size (plantItems nodes items).1.size
          (visitsFrom depth place (plantItems nodes items).2) (Datum.preorderItems depth items) := by
  match items with
  | [] => exact ⟨.refl _, fun s _ depth place => .nil⟩
  | d :: rest =>
    rw [Datum.isTreeItems, Bool.and_eq_true] at ht
    obtain ⟨hext, hcov⟩ := plant_covers nodes d ht.1
    obtain ⟨hext', hcov'⟩ := plantItems_covers (plant nodes d).1 rest ht.2
    rw [plantItems]
    refine ⟨hext.trans hext', fun s hs depth place => ?_⟩
    rw [visitsFrom_cons, Datum.preorderItems]
    exact (hcov s (hext'.trans hs) depth place).append (hcov' s hs depth (place + 1)) hext.1 hext'.1

end

/-! ## The walk -/

/-- The search through a planted value visits its nodes in preorder. -/
theorem explored_ofDatum {d : Datum} (hr : d.isRecord = true) (ht : d.isTree = true) :
    ∃ root forest, (ofDatum d).root = .node root ∧ (ofDatum d).dataAt root = d ∧
      (ofDatum d).Explored root forest ∧
      (∀ v ∈ forest.preorder, v.node < (ofDatum d).nodes.size) ∧
      forest.preorder.map (fun v => ((ofDatum d).dataAt v.node, v.depth)) = d.preorder 0 := by
  obtain ⟨fields, rfl⟩ := Datum.eq_record hr
  obtain ⟨-, hcov⟩ := plant_covers #[] (.record fields) ht
  have hscene : ofDatum (.record fields) = ⟨(plant #[] (.record fields)).1,
      .node (plantFields #[] fields).1.size⟩ := rfl
  generalize ofDatum (.record fields) = s at hscene
  have hnodes : s.nodes = (plant #[] (.record fields)).1 := by rw [hscene]
  have hroot : s.root = .node (plantFields #[] fields).1.size := by rw [hscene]
  obtain ⟨forest, seen, h, hrows, hseen⟩ := hcov s (by rw [hnodes]; exact .refl _) 0 0 [] (by simp)
  -- the root is the node that was planted last
  have hlast : Extends ((plantFields #[] fields).1.push
      ⟨.record fields, (plantFields #[] fields).2⟩) s.nodes := by rw [hnodes]; exact .refl _
  refine ⟨_, forest, hroot, hlast.last.1, ⟨seen, h⟩, fun v hv => ?_, hrows⟩
  have := hseen v.node (h.mem_seen.2 (.inr (List.mem_map_of_mem hv)))
  rw [hnodes]
  simpa using this

end Scene

/-- The walk through a value that holds something takes its nodes in preorder. -/
theorem Walked.ofDatum_tree {d : Datum} (hd : d.isTruthy = true) (hr : d.isRecord = true)
    (ht : d.isTree = true) : Walked.ofDatum d = ⟨d.preorder 0, none⟩ := by
  obtain ⟨root, forest, hroot, hdata, ⟨seen, h⟩, hlt, hrows⟩ := Scene.explored_ofDatum hr ht
  have htrail := Scene.trailFrom_search h hlt false
  have hrootData : (Scene.ofDatum d).rootData = d := by rw [Scene.rootData, hroot]; exact hdata
  unfold Walked.ofDatum Walked.ofScene Scene.trail
  rw [hrootData, hd, hroot]
  simp only [Bool.not_true, Bool.false_eq_true, ↓reduceIte, htrail, hrows]

end Maquette
