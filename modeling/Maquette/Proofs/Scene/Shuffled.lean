/-
Trees that differ in the order of children alone. Two such trees have the same nodes at the same
depths, but for the lists of children that the nodes hold, and the walks through them meet these nodes
in different orders.

The relation is one between lists of trees, since what stands below a node is one, and a single tree
is a list of one. Whatever reads of a node nothing but its other fields reads the same nodes in both
trees, up to their order (`Datum.Shuffled.preorder_perm`).
-/
import Maquette.Proofs.Scene.Planted

namespace Maquette.Datum

/-- A list of trees with the children of any of their nodes, and the trees themselves, in any order. -/
inductive Shuffled : List Datum → List Datum → Prop
  | nil : Shuffled [] []
  | cons (d : Datum) {rest rest' : List Datum} :
      Shuffled rest rest' → Shuffled (d :: rest) (d :: rest')
  /-- Whatever else a node holds, its children are shuffled. -/
  | node {before after : List (String × Datum)} {items items' rest rest' : List Datum} :
      before.lookup "children" = none → Shuffled items items' → Shuffled rest rest' →
      Shuffled (.record (before ++ ("children", .list items) :: after) :: rest)
        (.record (before ++ ("children", .list items') :: after) :: rest')
  | swap (d e : Datum) (rest : List Datum) : Shuffled (d :: e :: rest) (e :: d :: rest)
  | trans {xs ys zs : List Datum} : Shuffled xs ys → Shuffled ys zs → Shuffled xs zs

/-! ## Fields -/

section Fields

variable {before after : List (String × Datum)} {v v' : Datum}

theorem lookup_children (h : before.lookup "children" = none) :
    (before ++ ("children", v) :: after).lookup "children" = some v := by
  rw [List.lookup_append, h, Option.none_or, List.lookup_cons_self]

/-- A field of another name does not depend on what the children are. -/
theorem at?_beside {key : String} (h : key ≠ "children") :
    (Datum.record (before ++ ("children", v) :: after)).at? key =
      (Datum.record (before ++ ("children", v') :: after)).at? key := by
  have hcons : ∀ w : Datum, List.lookup key (("children", w) :: after) = after.lookup key := by
    intro w
    rw [List.lookup_cons, beq_eq_false_iff_ne.2 h]
  show List.lookup key _ = List.lookup key _
  rw [List.lookup_append, List.lookup_append, hcons, hcons]

theorem preorder_node (h : before.lookup "children" = none) (items : List Datum) (depth : Nat) :
    (Datum.record (before ++ ("children", .list items) :: after)).preorder depth =
      (.record (before ++ ("children", .list items) :: after), depth) ::
        preorderItems (depth + 1) items := by
  rw [preorder, preorderFields_lookup, lookup_children h]
  rfl

theorem isTree_node (h : before.lookup "children" = none) (items : List Datum) :
    (Datum.record (before ++ ("children", .list items) :: after)).isTree = isTreeItems items := by
  rw [isTree, isTreeFields_lookup, lookup_children h]
  rfl

end Fields

/-! ## Shuffled trees -/

namespace Shuffled

variable {xs ys : List Datum}

/-- Any order of a list is a shuffled one. -/
theorem of_perm (h : xs.Perm ys) : Shuffled xs ys := by
  induction h with
  | nil => exact .nil
  | cons d _ ih => exact .cons d ih
  | swap d e rest => exact .swap e d rest
  | trans _ _ ih₁ ih₂ => exact .trans ih₁ ih₂

section See

variable {α : Type} (see : Datum → α)
  (hsee : ∀ {before after : List (String × Datum)} {v v' : Datum},
    see (.record (before ++ ("children", v) :: after)) =
      see (.record (before ++ ("children", v') :: after)))
include hsee

/-- What is seen of the trees, but for the children of their roots. -/
theorem roots_perm (h : Shuffled xs ys) : (xs.map see).Perm (ys.map see) := by
  induction h with
  | nil => exact .nil
  | cons d _ ih => exact ih.cons _
  | node _ _ _ _ ih =>
    rw [List.map_cons, List.map_cons, hsee]
    exact ih.cons _
  | swap d e rest => exact (List.Perm.swap e d rest).map see
  | trans _ _ ih₁ ih₂ => exact ih₁.trans ih₂

/-- What is seen of the nodes, but for their children, with their depths. -/
theorem preorder_perm (h : Shuffled xs ys) (depth : Nat) :
    ((preorderItems depth xs).map fun row => (see row.1, row.2)).Perm
      ((preorderItems depth ys).map fun row => (see row.1, row.2)) := by
  induction h generalizing depth with
  | nil => exact .nil
  | cons d _ ih =>
    rw [preorderItems, preorderItems, List.map_append, List.map_append]
    exact (ih depth).append_left _
  | node hbefore _ _ ih₁ ih₂ =>
    -- the node itself looks the same; what is below it and what follows are shuffled
    rw [preorderItems, preorderItems, preorder_node hbefore, preorder_node hbefore]
    simp only [List.map_append, List.map_cons]
    rw [hsee]
    exact ((ih₁ (depth + 1)).cons _).append (ih₂ depth)
  | swap d e rest =>
    -- all that is met of the one tree is met before the other
    simp only [preorderItems, ← List.append_assoc]
    exact (List.perm_append_comm.append_right _).map _
  | trans _ _ ih₁ ih₂ => exact (ih₁ depth).trans (ih₂ depth)

/-- The nodes of one tree, as they are met from its root. -/
theorem nodes_perm {t t' : Datum} (h : Shuffled [t] [t']) :
    ((t.preorder 0).map fun row => (see row.1, row.2)).Perm
      ((t'.preorder 0).map fun row => (see row.1, row.2)) := by
  simpa [preorderItems] using h.preorder_perm see hsee 0

end See

theorem isTree_eq (h : Shuffled xs ys) : isTreeItems xs = isTreeItems ys := by
  induction h with
  | nil => rfl
  | cons d _ ih => rw [isTreeItems, isTreeItems, ih]
  | node hbefore _ _ ih₁ ih₂ =>
    rw [isTreeItems, isTreeItems, isTree_node hbefore, isTree_node hbefore, ih₁, ih₂]
  | swap d e rest => simp only [isTreeItems, Bool.and_left_comm]
  | trans _ _ ih₁ ih₂ => exact ih₁.trans ih₂

/-- A tree that is no node, or a node that holds nothing, has no children to be shuffled. -/
theorem root_eq {t t' : Datum} (h : Shuffled [t] [t']) :
    t = t' ∨ (t.isRecord && t.isTruthy) = true ∧ (t'.isRecord && t'.isTruthy) = true := by
  -- a node with fields is not looked at, anything else is seen as it is
  have hroot := h.roots_perm (fun d => if d.isRecord && d.isTruthy then none else some d)
    (by simp [isRecord, isTruthy])
  rw [List.map_singleton, List.map_singleton, List.perm_singleton, List.singleton_inj] at hroot
  split at hroot <;> split at hroot
  · rename_i ht ht'
    exact .inr ⟨ht, ht'⟩
  · cases hroot
  · cases hroot
  · exact .inl (Option.some.inj hroot)

theorem tree_eq {t t' : Datum} (h : Shuffled [t] [t']) : t.isTree = t'.isTree := by
  simpa [isTreeItems] using h.isTree_eq

end Shuffled

end Maquette.Datum
