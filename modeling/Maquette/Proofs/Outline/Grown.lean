/-
The tree of an outline is grown by the recursive search: each node is turned into an outline node when
it is visited, with the slots found so far, and gets what grows from the trees below it as its
children.

The tree is assembled from the nodes in walking order by their depths alone. Read from the right, each
node takes the trees that stand deeper than itself as its children, and these are the ones grown below
it, as whatever follows them stands no deeper than the node.
-/
import Maquette.Proofs.Outline.Fields
import Maquette.Proofs.Scene.Index
import Maquette.Proofs.Scene.Shared
import Maquette.Outline.Document

namespace Maquette.Outline

/-! ## Growing -/

/-- A node of an outline with its children. -/
def withChildren (fields : List (String × Datum)) (children : List Datum) : Datum :=
  .record (fields ++ [("children", .list children)])

/-- `Grown s slots forest trees slots'`: from the slots found so far, the forest of visited nodes grows
into outline trees and ends with the slots `slots'`. -/
inductive Grown (s : Scene) : List Slot → Forest Visit → List Datum → List Slot → Prop
  | nil (slots : List Slot) : Grown s slots .nil [] slots
  | cons {v : Visit} {below after : Forest Visit} {fields : List (String × Datum)}
      {children trees : List Datum} {slots slots₁ slots₂ slots' : List Slot} :
      node (s.dataAt v.node) v.place slots = .ok (fields, slots₁) →
      Grown s slots₁ below children slots₂ → Grown s slots₂ after trees slots' →
      Grown s slots (.cons v below after) (withChildren fields children :: trees) slots'

/-- The outline node that a visit is turned into, at the depth of the visit. -/
def IsImage (s : Scene) (v : Visit) (row : Datum × Nat) : Prop :=
  row.2 = v.depth ∧ row.1.at? "zIndex" = some (.int v.place) ∧
    ∃ fields children slots slots', node (s.dataAt v.node) v.place slots = .ok (fields, slots') ∧
      row.1 = withChildren fields children

/-! ## Assembling -/

theorem nodes_append {s : Scene} {slots slots' : List Slot} {xs ys : List Visit}
    {rows : List (Visit × List (String × Datum))}
    (h : nodes s slots (xs ++ ys) = .ok (rows, slots')) :
    ∃ rows₁ slots₁ rows₂, nodes s slots xs = .ok (rows₁, slots₁) ∧
      nodes s slots₁ ys = .ok (rows₂, slots') ∧ rows = rows₁ ++ rows₂ := by
  induction xs generalizing slots rows with
  | nil => exact ⟨[], slots, rows, rfl, h, rfl⟩
  | cons v xs ih =>
    rw [List.cons_append, nodes] at h
    obtain ⟨⟨fields, slots₁⟩, hv, h⟩ := Outcome.bind_ok h
    obtain ⟨⟨others, slots₂⟩, hrest, h⟩ := Outcome.bind_ok h
    cases h
    obtain ⟨rows₁, slots₃, rows₂, h₁, h₂, rfl⟩ := ih hrest
    refine ⟨(v, fields) :: rows₁, slots₃, rows₂, ?_, h₂, rfl⟩
    rw [nodes, hv, Outcome.ok_bind]
    simp only [h₁]
    rfl

/-- A node takes what stands deeper as its children. -/
theorem graft_eq {v : Visit} (fields : List (String × Datum)) (children : List Datum)
    {following : List (Nat × Datum)} (h : ∀ row ∈ following.head?, row.1 ≤ v.depth) :
    graft (v, fields) (children.map (v.depth + 1, ·) ++ following) =
      (v.depth, withChildren fields children) :: following := by
  have hspan : (children.map (v.depth + 1, ·) ++ following).span
      (fun row : Nat × Datum => v.depth < row.1) = (children.map (v.depth + 1, ·), following) := by
    have hdeeper : ∀ row ∈ children.map (v.depth + 1, ·), decide (v.depth < row.1) = true := by
      intro row hrow
      obtain ⟨d, -, rfl⟩ := List.mem_map.1 hrow
      exact decide_eq_true (Nat.lt_succ_self _)
    rw [List.span_eq_takeWhile_dropWhile, List.takeWhile_append_of_pos hdeeper,
      List.dropWhile_append_of_pos hdeeper]
    cases following with
    | nil => simp
    | cons row following =>
      have := h row rfl
      rw [List.takeWhile_cons_of_neg (by simpa using this),
        List.dropWhile_cons_of_neg (by simpa using this), List.append_nil]
  unfold graft
  simp only [hspan, List.map_map, Function.comp_def, List.map_id']
  rfl

/-- The nodes of a forest in walking order are assembled into what it grows into. -/
theorem grown_of_nodes {s : Scene} {forest : Forest Visit} {depth : Nat} (hd : forest.Deep depth)
    {slots slots' : List Slot} {rows : List (Visit × List (String × Datum))}
    (h : nodes s slots forest.preorder = .ok (rows, slots')) :
    ∃ trees, Grown s slots forest trees slots' ∧ ∀ following : List (Nat × Datum),
      (∀ row ∈ following.head?, row.1 ≤ depth) →
        rows.foldr graft following = trees.map (depth, ·) ++ following := by
  induction forest generalizing depth slots slots' rows with
  | nil => cases h; exact ⟨[], .nil slots, fun _ _ => rfl⟩
  | cons v below after ihb iha =>
    obtain ⟨rfl, hdb, hda⟩ := hd
    rw [Forest.preorder, nodes] at h
    obtain ⟨⟨fields, slots₁⟩, hv, h⟩ := Outcome.bind_ok h
    obtain ⟨⟨others, slots₂⟩, hrest, h⟩ := Outcome.bind_ok h
    cases h
    obtain ⟨rowsb, slots₃, rowsa, hb, ha, rfl⟩ := nodes_append hrest
    obtain ⟨children, hgb, hfb⟩ := ihb hdb hb
    obtain ⟨trees, hga, hfa⟩ := iha hda ha
    refine ⟨_, .cons hv hgb hga, fun following hf => ?_⟩
    -- the trees grown after the node stand at its own depth, so they end the ones below it
    have hle : ∀ row ∈ (trees.map (v.depth, ·) ++ following).head?, row.1 ≤ v.depth := by
      cases trees with
      | nil => exact hf
      | cons t trees => rintro row hrow; cases hrow; exact le_rfl
    rw [List.foldr_cons, List.foldr_append, hfa following hf,
      hfb _ fun row hrow => (hle row hrow).trans (Nat.le_succ _), graft_eq fields children hle]
    rfl

/-! ## Walking what has grown -/

theorem Childless.lookup_children {fields : List (String × Datum)} (h : Childless fields) (d : Datum) :
    (fields ++ [("children", d)]).lookup "children" = some d := by
  have hnone : fields.lookup "children" = none :=
    List.lookup_eq_none_iff.2 fun row hrow => bne_iff_ne.2 (h row hrow).symm
  rw [List.lookup_append, hnone, Option.none_or, List.lookup_cons_self]

theorem preorderFields_children {fields : List (String × Datum)} (h : Childless fields)
    (depth : Nat) (children : List Datum) :
    Datum.preorderFields depth (fields ++ [("children", .list children)]) =
      Datum.preorderItems depth children := by
  rw [Datum.preorderFields_lookup, h.lookup_children]
  rfl

theorem isTreeFields_children {fields : List (String × Datum)} (h : Childless fields)
    (children : List Datum) :
    Datum.isTreeFields (fields ++ [("children", .list children)]) = Datum.isTreeItems children := by
  rw [Datum.isTreeFields_lookup, h.lookup_children]
  rfl

section Grown

variable {s : Scene} {slots slots' : List Slot} {forest : Forest Visit} {trees : List Datum}

theorem Grown.isTree (h : Grown s slots forest trees slots') : Datum.isTreeItems trees = true := by
  induction h with
  | nil => rfl
  | cons hv _ _ ihb iha =>
    rw [Datum.isTreeItems, withChildren, Datum.isTree, isTreeFields_children (node_childless hv), ihb, iha]
    rfl

/-- The nodes of grown trees are the images of the visits, in the same order. -/
theorem Grown.images (h : Grown s slots forest trees slots') {depth : Nat} (hd : forest.Deep depth) :
    List.Forall₂ (IsImage s) forest.preorder (Datum.preorderItems depth trees) := by
  induction h generalizing depth with
  | nil => exact .nil
  | cons hv _ _ ihb iha =>
    obtain ⟨rfl, hdb, hda⟩ := hd
    rw [Datum.preorderItems, withChildren, Datum.preorder, preorderFields_children (node_childless hv)]
    refine .cons ⟨rfl, ?_, _, _, _, _, hv, rfl⟩ (List.rel_append (ihb hdb) (iha hda))
    rw [Datum.at?, List.lookup_append, node_place hv]
    rfl

end Grown

/-! ## The outline of a scene -/

section Outline

variable {s : Scene} {root : Nat} {forest : Forest Visit}

/-- A tree is made exactly when every node is turned into an outline node, and it is the one that
grows from the search. -/
theorem tree_eq (hs : s.IsGraph) (hroot : s.root = .node root) (hr : root < s.nodes.size)
    (h : s.Explored root forest) :
    (∃ f, nodes s [] forest.preorder = .error f ∧ tree s = .error f) ∨
      ∃ t slots, tree s = .ok (some t, slots) ∧ Grown s [] forest [t] slots := by
  have htrail := Scene.trailFrom_explored hs hr h true
  have hdeep : forest.Deep 0 := by
    obtain ⟨seen, h⟩ := h
    exact h.deep (by simp)
  obtain ⟨below, hb⟩ := Scene.exists_explored hs hr
  obtain ⟨seen, hb⟩ := hb
  obtain ⟨seen', h⟩ := h
  obtain ⟨rfl, -⟩ := h.unique hb
  unfold tree
  rw [hroot]
  simp only [htrail]
  cases hn : nodes s [] (Forest.cons ⟨root, 0, 0⟩ below .nil).preorder with
  | error f => exact .inl ⟨f, rfl, rfl⟩
  | ok made =>
    obtain ⟨rows, slots⟩ := made
    obtain ⟨trees, hg, hf⟩ := grown_of_nodes hdeep hn
    cases hg with
    | cons hv hgb hga =>
      cases hga
      refine .inr ⟨_, slots, ?_, .cons hv hgb (.nil _)⟩
      rw [Outcome.ok_bind, assemble, hf [] (by simp)]
      rfl

/-- A walk through a grown tree takes all its nodes. -/
theorem walked_eq {t : Datum} {slots slots' : List Slot} (h : Grown s slots forest [t] slots') :
    Walked.ofDatum t = ⟨t.preorder 0, none⟩ := by
  have htree := h.isTree
  rw [Datum.isTreeItems, Datum.isTreeItems, Bool.and_true] at htree
  refine Walked.ofDatum_tree ?_ ?_ htree <;> cases h
  · simp [withChildren, Datum.isTruthy]
  · rfl

/-- The nodes of a grown tree, as a walk meets them. -/
theorem walked_grown {t : Datum} {slots slots' : List Slot} (h : Grown s slots forest [t] slots')
    (hd : forest.Deep 0) :
    ∃ rows, Walked.ofDatum t = ⟨rows, none⟩ ∧ List.Forall₂ (IsImage s) forest.preorder rows := by
  have himages := h.images hd
  rw [Datum.preorderItems, Datum.preorderItems, List.append_nil] at himages
  exact ⟨_, walked_eq h, himages⟩

/-- What an outline holds as its tree, its slots and its number of nodes. -/
theorem document_ok {origin : Origin} {t : Option Datum} {slots : List Slot} {doc : Datum}
    (h : document s origin t slots = .ok doc) :
    doc.at? "tree" = some (t.getD .null) ∧
      doc.at? "slots" = some (.list (slots.map Slot.toDatum)) ∧
      ∃ n : Nat, (Walked.ofDatum (t.getD .null)).count = .ok n ∧
        doc.at? "stats" = some (.record [("nodeCount", .int n)]) := by
  unfold document at h
  obtain ⟨variants, -, h⟩ := Outcome.bind_ok h
  obtain ⟨name, -, h⟩ := Outcome.bind_ok h
  obtain ⟨id, -, h⟩ := Outcome.bind_ok h
  obtain ⟨kind, -, h⟩ := Outcome.bind_ok h
  obtain ⟨intent, -, h⟩ := Outcome.bind_ok h
  obtain ⟨hints, -, h⟩ := Outcome.bind_ok h
  obtain ⟨states, -, h⟩ := Outcome.bind_ok h
  obtain ⟨component, -, h⟩ := Outcome.bind_ok h
  obtain ⟨n, hn, h⟩ := Outcome.bind_ok h
  cases h
  exact ⟨rfl, rfl, n, hn, rfl⟩

theorem ofScene_ok {origin : Origin} {doc : Datum} (h : ofScene s origin = .ok doc) :
    ∃ t slots, tree s = .ok (t, slots) ∧ document s origin t slots = .ok doc := by
  obtain ⟨⟨t, slots⟩, ht, h⟩ := Outcome.bind_ok h
  exact ⟨t, slots, ht, h⟩

end Outline

/-- Four layers: the root lists its first child twice and something that is no layer, this child lists
the root again, and the last layer is shared and has the first child's id. -/
def sampleLayers : List Datum :=
  let layer (id : String) (children : List Datum) : Datum :=
    .record [("id", .text id), ("name", .text id), ("children", .list children)]
  [layer "root" [.int 1, .text "?", .int 2, .int 1], layer "a" [.int 3, .int 0],
    layer "b" [.int 3], layer "a" []]

theorem isNumbered_sample : ∀ d ∈ sampleLayers, Scene.IsNumbered d := by
  intro d hd
  simp only [sampleLayers, List.mem_cons, List.not_mem_nil, or_false] at hd
  rcases hd with rfl | rfl | rfl | rfl
  · exact ⟨rfl, .inr ⟨_, rfl, by decide⟩⟩
  · exact ⟨rfl, .inr ⟨_, rfl, by decide⟩⟩
  · exact ⟨rfl, .inr ⟨_, rfl, by decide⟩⟩
  · exact ⟨rfl, .inl rfl⟩

/-- The shared layer hangs below the first child, which is searched before the second. -/
def sampleForest : Forest Visit :=
  .cons ⟨0, 0, 0⟩ (.cons ⟨1, 1, 0⟩ (.cons ⟨3, 2, 0⟩ .nil .nil) (.cons ⟨2, 1, 2⟩ .nil .nil)) .nil

theorem explored_sample : (Scene.ofShared sampleLayers 0).Explored 0 sampleForest := by
  have hfirst : (Scene.ofShared sampleLayers 0).Search [1, 0] [⟨3, 2, 0⟩, ⟨0, 2, 1⟩]
      (.cons ⟨3, 2, 0⟩ .nil .nil) [3, 1, 0] :=
    .visit (by simp) rfl (.nil _) (.skip (by simp) (.nil _))
  -- here the shared layer and the first child are met again
  have hothers : (Scene.ofShared sampleLayers 0).Search [3, 1, 0] [⟨2, 1, 2⟩, ⟨1, 1, 3⟩]
      (.cons ⟨2, 1, 2⟩ .nil .nil) [2, 3, 1, 0] :=
    .visit (by simp) rfl (.skip (by simp) (.nil _)) (.skip (by simp) (.nil _))
  exact ⟨_, .visit (by simp) rfl (.visit (by simp) rfl hfirst hothers) (.nil _)⟩

end Maquette.Outline
