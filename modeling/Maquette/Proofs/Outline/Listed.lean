/-
The slots of any outline that is made. A walk that is not stopped spells out trees, whatever the lists
of children hold, so the tree of an outline grows from it and the outline lists the slots that the
nodes of its tree name.
-/
import Maquette.Proofs.Outline.Slots

namespace Maquette

namespace Scene

variable {s : Scene}

/-- From entries that are pending at one depth, a walk that is not stopped takes trees that begin there,
and then it goes on with the rest. -/
theorem walkFrom_forest (byPosition : Bool) {depth : Nat} {fresh : List Nat}
    {pending rest : List Visit} (hd : ∀ v ∈ pending, v.depth = depth)
    (h : (s.walkFrom byPosition fresh (pending ++ rest)).fault = none) :
    ∃ (forest : Forest Visit) (fresh' : List Nat), forest.Deep depth ∧ forest.roots.Sublist pending ∧
      fresh'.length ≤ fresh.length ∧ (s.walkFrom byPosition fresh' rest).fault = none ∧
      (s.walkFrom byPosition fresh (pending ++ rest)).visits =
        forest.preorder ++ (s.walkFrom byPosition fresh' rest).visits := by
  match pending with
  | [] => exact ⟨.nil, fresh, trivial, .slnil, le_rfl, h, rfl⟩
  | v :: pending =>
    obtain ⟨hv, hpending⟩ := List.forall_mem_cons.1 hd
    rw [List.cons_append, walkFrom] at h ⊢
    by_cases hm : v.node ∈ fresh
    · rw [dif_pos hm] at h ⊢
      cases hts : targets byPosition (s.branchesAt v.node) with
      | error f => rw [hts] at h; cases h
      | ok ts =>
        rw [hts] at h
        simp only at h ⊢
        have hlt : (fresh.erase v.node).length < fresh.length := by
          have := List.length_pos_of_mem hm
          rw [List.length_erase_of_mem hm]; omega
        have hdeeper : ∀ w ∈ childVisits v.depth ts, w.depth = depth + 1 := fun w hw => by
          rw [(mem_childVisits.1 hw).2, hv]
        obtain ⟨below, fresh₁, hbelow, -, hle₁, h₁, hvisits₁⟩ := walkFrom_forest byPosition hdeeper h
        -- what was taken below the node is fresh no more, so fewer nodes are fresh for the rest
        obtain ⟨after, fresh₂, hafter, hroots, hle₂, h₂, hvisits₂⟩ :=
          walkFrom_forest byPosition hpending h₁
        refine ⟨.cons v below after, fresh₂, ⟨hv, hbelow, hafter⟩, hroots.cons_cons v,
          by omega, h₂, ?_⟩
        rw [hvisits₁, hvisits₂, Forest.preorder, List.cons_append, List.append_assoc]
    · rw [dif_neg hm] at h ⊢
      obtain ⟨forest, fresh', hdeep, hroots, hle, h', hvisits⟩ := walkFrom_forest byPosition hpending h
      exact ⟨forest, fresh', hdeep, hroots.cons v, hle, h', hvisits⟩
termination_by (fresh.length, pending.length)
decreasing_by
  all_goals first
    | exact Prod.Lex.left _ _ (by omega)
    | exact Prod.Lex.right _ (by simp)

/-- A walk from a root that is not stopped takes a tree, or nothing. -/
theorem trailFrom_forest {byPosition : Bool} {root : Nat}
    (h : (s.trailFrom byPosition root).fault = none) :
    ∃ forest : Forest Visit, forest.Deep 0 ∧ forest.roots.length ≤ 1 ∧
      (s.trailFrom byPosition root).visits = forest.preorder := by
  have hd : ∀ v ∈ [(⟨root, 0, 0⟩ : Visit)], v.depth = 0 := by simp
  unfold trailFrom at h ⊢
  rw [← List.append_nil [(⟨root, 0, 0⟩ : Visit)]] at h ⊢
  obtain ⟨forest, fresh', hdeep, hroots, -, -, hvisits⟩ := walkFrom_forest byPosition hd h
  refine ⟨forest, hdeep, hroots.length_le, ?_⟩
  rw [hvisits, walkFrom, List.append_nil]

end Scene

namespace Outline

/-! ## Names of slots -/

/-- What the name of a slot looks like: a plain name and something behind it, without blanks. -/
structure Slot.IsName (name : String) : Prop where
  begins : ∃ w ∈ vocabulary, w.base.toList <+: name.toList
  unbroken : ' ' ∉ name.toList

theorem Slot.GetsName.isName {w : Word} (hw : w ∈ vocabulary) {lower name : String} {isFirst : Prop}
    {taken : List String} (h : GetsName w.base lower isFirst taken name) : IsName name := by
  have hbase : ∀ w ∈ vocabulary, ' ' ∉ w.base.toList := by decide
  refine ⟨⟨w, hw, ?_⟩, ?_⟩
  · obtain ⟨ending, rfl, -⟩ := h.eq_append
    exact ⟨ending.toList, (String.toList_append ..).symm⟩
  · cases h with
    | plain => exact hbase w hw
    | @placed word _ hword =>
      obtain ⟨place, ⟨hmem, -⟩, -⟩ := hword
      have hending : ∀ word ∈ positions.map (·.1), ' ' ∉ (capitalized word).toList := by decide
      rw [String.toList_append, List.mem_append, not_or]
      exact ⟨hbase w hw, hending word hmem⟩
    | @counted n =>
      rw [String.toList_append, List.mem_append, not_or]
      refine ⟨hbase w hw, fun hblank => ?_⟩
      rw [Nat.toString_eq_repr, Nat.toList_repr] at hblank
      have hdigit := Nat.isDigit_of_mem_toDigits (b := 10) (by decide) (by decide) hblank
      revert hdigit; decide

/-- The slots that nodes name have such names. -/
theorem Slotted.isName {slots slots' : List Slot} {nodes : List Datum}
    (h : Slotted slots nodes slots') (hs : ∀ slot ∈ slots, Slot.IsName slot.name) :
    ∀ slot ∈ slots', Slot.IsName slot.name := by
  induction h with
  | nil => exact hs
  | @cons slots slots' n id name rest _ _ _ _ ih =>
    refine ih (List.forall_mem_append.2 ⟨hs, fun slot hslot => ?_⟩)
    obtain ⟨w, hw, rfl⟩ := Option.map_eq_some_iff.1 (Option.mem_toList.1 hslot)
    exact (Slot.nameFor_getsName w.base (Text.lower name) (slots.map Slot.name)).isName
      (List.mem_of_find?_eq_some hw)

theorem Slot.toDatum_injective : Function.Injective Slot.toDatum := by
  rintro ⟨name, kind, required, nodeId⟩ ⟨name', kind', required', nodeId'⟩ h
  simpa [toDatum] using h

/-! ## The tree of an outline -/

variable {s : Scene} {source : Origin} {t : Option Datum} {slots : List Slot} {doc : Datum}

theorem Grown.length_eq {slots' : List Slot} {forest : Forest Visit} {trees : List Datum}
    (h : Grown s slots forest trees slots') : trees.length = forest.roots.length := by
  induction h with
  | nil => rfl
  | cons _ _ _ _ ih => simp [Forest.roots, ih]

theorem withChildren_children {fields : List (String × Datum)} (h : Childless fields)
    (children : List Datum) : (withChildren fields children).at? "children" = some (.list children) :=
  h.lookup_children (.list children)

/-- What a layer tells about itself, and the nodes below it. -/
inductive IsNode : Datum → Prop
  | made {layer : Datum} {place : Nat} {slots slots' : List Slot} {fields : List (String × Datum)}
      {children : List Datum} : node layer place slots = .ok (fields, slots') →
      (∀ d ∈ children, IsNode d) → IsNode (withChildren fields children)

theorem IsNode.childless {d : Datum} (h : IsNode d) : ∃ fields children,
    Childless fields ∧ d = withChildren fields children ∧ ∀ child ∈ children, IsNode child := by
  cases h with
  | made hnode hchildren => exact ⟨_, _, node_childless hnode, rfl, hchildren⟩

/-- The layout of a node is one that some layer has. -/
theorem IsNode.layout {d v : Datum} (h : IsNode d) (hv : d.at? "layout" = some v) :
    ∃ layer, Outline.layout layer = .ok (some v) := by
  cases h with
  | @made layer _ _ _ fields children hnode _ =>
    obtain ⟨arranged, harranged, hlookup⟩ := node_layout hnode
    rw [withChildren_at children (by decide), hlookup] at hv
    exact ⟨layer, hv ▸ harranged⟩

/-- A node is a record that holds something. -/
theorem IsNode.record {d : Datum} (h : IsNode d) : d.isRecord = true ∧ d.isTruthy = true := by
  cases h with
  | made => exact ⟨rfl, by simp [withChildren, Datum.isTruthy]⟩

theorem IsNode.isTree {d : Datum} (h : IsNode d) : d.isTree = true := by
  induction h with
  | made hnode _ ih =>
    rw [withChildren, Datum.isTree, isTreeFields_children (node_childless hnode)]
    exact Datum.isTreeItems_iff.2 ih

theorem Grown.areNodes {slots' : List Slot} {forest : Forest Visit} {trees : List Datum}
    (h : Grown s slots forest trees slots') : ∀ d ∈ trees, IsNode d := by
  induction h with
  | nil => simp
  | cons hv _ _ ihb iha => exact List.forall_mem_cons.2 ⟨.made hv ihb, iha⟩

/-- A tree that is made is a node with its children, or nothing, and its nodes name its slots. -/
theorem tree_slotted (h : tree s = .ok (t, slots)) :
    Slotted [] (((t.getD .null).preorder 0).map (·.1)) slots ∧ ∀ d ∈ t, IsNode d := by
  have hgrown : ∀ {s : Scene} {forest : Forest Visit} {trees : List Datum},
      Grown s [] forest trees slots → trees.length ≤ 1 →
      Slotted [] (((trees.head?.getD .null).preorder 0).map (·.1)) slots ∧
        ∀ d ∈ trees.head?, IsNode d := by
    intro s forest trees hg hle
    have hslotted := hg.slotted 0
    have hnodes := hg.areNodes
    cases hg with
    | nil => exact ⟨.nil _, by simp⟩
    | @cons v below after fields children trees slots _ _ _ hv =>
      obtain rfl : trees = [] := List.length_eq_zero_iff.1 (by simpa using hle)
      rw [Datum.preorderItems, Datum.preorderItems, List.append_nil] at hslotted
      exact ⟨hslotted, by simpa using hnodes⟩
  unfold tree at h
  split at h
  · rename_i root hroot
    obtain ⟨⟨visits, slots'⟩, hnodes, h⟩ := Outcome.bind_ok h
    simp only at h
    split at h
    · cases h
    · rename_i hfault
      cases h
      obtain ⟨forest, hdeep, hone, hvisits⟩ := Scene.trailFrom_forest hfault
      rw [hvisits] at hnodes
      obtain ⟨trees, hg, hf⟩ := grown_of_nodes hdeep hnodes
      have := hgrown hg (by rw [hg.length_eq]; exact hone)
      rw [assemble, hf [] (by simp), List.append_nil, List.map_map]
      simpa [Function.comp_def] using this
  · split at h
    · cases h
      exact ⟨.nil _, by simp⟩
    · obtain ⟨⟨fields, slots'⟩, hnode, h⟩ := Outcome.bind_ok h
      cases h
      -- an absent root is a scene of one node without fields
      have hg : Grown ⟨#[⟨.empty, .items []⟩], .node 0⟩ [] (.cons ⟨0, 0, 0⟩ .nil .nil)
          [withChildren fields []] slots := .cons hnode (.nil _) (.nil _)
      exact hgrown hg le_rfl

/-- An outline that is made lists the slots that the nodes of its tree name. -/
theorem slots_of_scene (h : ofScene s source = .ok doc) :
    ∃ t slots, doc.at? "tree" = some t ∧ doc.at? "slots" = some (.list (slots.map Slot.toDatum)) ∧
      Slotted [] ((t.preorder 0).map (·.1)) slots ∧
      (t = .null ∨ IsNode t) := by
  obtain ⟨t, slots, ht, hdoc⟩ := ofScene_ok h
  obtain ⟨htree, hslots, -⟩ := document_ok hdoc
  obtain ⟨hslotted, hshape⟩ := tree_slotted ht
  refine ⟨_, slots, htree, hslots, hslotted, ?_⟩
  cases t with
  | none => exact .inl rfl
  | some t => exact .inr (hshape t rfl)

theorem meta_of_scene (h : ofScene s source = .ok doc) :
    ∃ info, doc.at? "meta" = some (.record info) := by
  obtain ⟨t, slots, -, hdoc⟩ := ofScene_ok h
  unfold document at hdoc
  iterate 9 obtain ⟨_, -, hdoc⟩ := Outcome.bind_ok hdoc
  cases hdoc
  exact ⟨_, rfl⟩

end Outline

end Maquette
