/-
The slots of an outline are those that its nodes name, in walking order, and a builder finds them anew
for each outline, whatever it has made before.

Each node is given its slot from the slots found before it, so the slots grow along the walk. What
carries the rule of the names through it is that a plain name is taken exactly when a node before has
the same plain name.
-/
import Maquette.Proofs.Outline.Grown
import Maquette.Proofs.Outline.SlotNames
import Maquette.Outline.Builder

namespace Maquette.Outline

/-! ## What nodes tell about slots -/

/-- The name and the id of a node that names a slot. -/
def slotOf? (n : Datum) : Option (Datum × Datum) :=
  (n.at? "slotName").map fun name => (name, (n.at? "id").getD .null)

/-- The names of the slots that nodes name. -/
def slotNames (nodes : List Datum) : List String :=
  nodes.filterMap fun n => (n.at? "slotName").bind Datum.text?

/-- The plain name that a node's name asks for. -/
def plainName? (n : Datum) : Option String :=
  (((n.at? "name").bind Datum.text?).bind Slot.wordIn?).map Slot.Word.base

/-- A node has the slot that its name calls for, after the nodes `before` it. -/
def HasSlot (before : List Datum) (n : Datum) : Prop :=
  ∃ name, n.at? "name" = some (.text name) ∧
    (Slot.wordIn? name = none → n.at? "slotName" = none) ∧
    ∀ w, Slot.wordIn? name = some w → ∃ slotName, n.at? "slotName" = some (.text slotName) ∧
      Slot.GetsName w.base (Text.lower name) (∀ m ∈ before, plainName? m ≠ some w.base)
        (slotNames before) slotName

/-! ## Slots along a walk -/

/-- `Slotted slots nodes slots'`: each of the nodes names the slot that its layer makes among those
found before, from `slots` at the beginning to `slots'` at the end. -/
inductive Slotted : List Slot → List Datum → List Slot → Prop
  | nil (slots : List Slot) : Slotted slots [] slots
  | cons {slots slots' : List Slot} {n id : Datum} {name : String} {rest : List Datum} :
      n.at? "name" = some (.text name) → n.at? "id" = some id →
      n.at? "slotName" = (Slot.ofLayer? name id slots).map (fun s => .text s.name) →
      Slotted (slots ++ (Slot.ofLayer? name id slots).toList) rest slots' →
      Slotted slots (n :: rest) slots'

namespace Slotted

variable {slots slots' slots'' : List Slot} {nodes rest : List Datum}

theorem append (h : Slotted slots nodes slots') (h' : Slotted slots' rest slots'') :
    Slotted slots (nodes ++ rest) slots'' := by
  induction h with
  | nil => exact h'
  | cons hname hid hslot _ ih => exact .cons hname hid hslot (ih h')

theorem split (h : Slotted slots (nodes ++ rest) slots'') :
    ∃ slots', Slotted slots nodes slots' ∧ Slotted slots' rest slots'' := by
  induction nodes generalizing slots with
  | nil => exact ⟨slots, .nil slots, h⟩
  | cons n nodes ih =>
    cases h with
    | cons hname hid hslot h =>
      obtain ⟨slots', h₁, h₂⟩ := ih h
      exact ⟨slots', .cons hname hid hslot h₁, h₂⟩

/-- The slots that are added are those of the nodes, in the same order. -/
theorem added (h : Slotted slots nodes slots') :
    slots'.map (fun s => (Datum.text s.name, s.nodeId)) =
      slots.map (fun s => (Datum.text s.name, s.nodeId)) ++ nodes.filterMap slotOf? := by
  induction h with
  | nil => simp
  | @cons slots slots' n id name rest hname hid hslot _ ih =>
    rw [ih, List.filterMap_cons]
    cases ho : Slot.ofLayer? name id slots with
    | none =>
      have : slotOf? n = none := by rw [slotOf?, hslot, ho]; rfl
      simp [this]
    | some slot =>
      have hnode : slot.nodeId = id := by
        obtain ⟨w, -, rfl⟩ := Option.map_eq_some_iff.1 ho
        rfl
      have : slotOf? n = some (.text slot.name, slot.nodeId) := by
        rw [slotOf?, hslot, ho, hid, hnode]; rfl
      simp [this]

theorem names (h : Slotted slots nodes slots') :
    slots'.map Slot.name = slots.map Slot.name ++ slotNames nodes := by
  have hnames := congrArg (List.filterMap fun row : Datum × Datum => row.1.text?) h.added
  have hslots : ∀ slots : List Slot,
      (slots.map fun s => (Datum.text s.name, s.nodeId)).filterMap (fun row => row.1.text?) =
        slots.map Slot.name := by
    intro slots
    induction slots with
    | nil => rfl
    | cons slot slots ih => rw [List.map_cons, List.map_cons, ← ih]; rfl
  rw [List.filterMap_append, hslots, hslots, List.filterMap_filterMap] at hnames
  rw [hnames, slotNames]
  congr 1
  refine List.filterMap_congr fun n _ => ?_
  rw [slotOf?]
  cases n.at? "slotName" <;> rfl

/-- The names of slots stay distinct. -/
theorem nodup (h : Slotted slots nodes slots') (hs : (slots.map Slot.name).Nodup) :
    (slots'.map Slot.name).Nodup := by
  induction h with
  | nil => exact hs
  | @cons slots slots' n id name rest hname hid hslot _ ih =>
    refine ih ?_
    cases ho : Slot.ofLayer? name id slots with
    | none => simpa using hs
    | some slot =>
      obtain ⟨w, -, rfl⟩ := Option.map_eq_some_iff.1 ho
      have hfresh := (Slot.nameFor_getsName w.base (Text.lower name) (slots.map Slot.name)).fresh
        fun h => h
      rw [List.map_append]
      refine List.nodup_append.2 ⟨hs, by simp, ?_⟩
      rintro a ha b hb rfl
      obtain rfl := List.mem_singleton.1 hb
      exact hfresh ha

/-- Exactly the plain names that nodes have asked for are taken. -/
def Taken (slots : List Slot) (before : List Datum) : Prop :=
  ∀ w ∈ Slot.vocabulary, w.base ∈ slots.map Slot.name ↔ ∃ m ∈ before, plainName? m = some w.base

theorem taken (h : Slotted slots nodes slots') {before : List Datum} (ht : Taken slots before) :
    Taken slots' (before ++ nodes) := by
  induction h generalizing before with
  | nil => simpa using ht
  | @cons slots slots' n id name rest hname hid hslot _ ih =>
    rw [List.append_cons]
    refine ih fun w hw => ?_
    have hplain : plainName? n = (Slot.wordIn? name).map Slot.Word.base := by
      rw [plainName?, hname]; rfl
    have hmem : (∃ m ∈ before ++ [n], plainName? m = some w.base) ↔
        (∃ m ∈ before, plainName? m = some w.base) ∨ plainName? n = some w.base := by
      simp only [List.mem_append, List.mem_singleton, or_and_right, exists_or, exists_eq_left]
    rw [hmem, ← ht w hw, hplain, List.map_append, List.mem_append]
    cases hword : Slot.wordIn? name with
    | none =>
      have ho : Slot.ofLayer? name id slots = none := Option.map_eq_none_iff.2 hword
      simp [ho]
    | some v =>
      have ho : Slot.ofLayer? name id slots = some _ := Option.map_eq_some_iff.2 ⟨v, hword, rfl⟩
      have hv : v ∈ Slot.vocabulary := List.mem_of_find?_eq_some hword
      obtain ⟨ending, hending, hfirst⟩ := (Slot.nameFor_getsName v.base (Text.lower name)
        (slots.map Slot.name)).eq_append
      simp only [ho, Option.toList_some, List.map_cons, List.map_nil, List.mem_singleton,
        Option.map_some, Option.some.injEq, hending]
      constructor
      · rintro (h | h)
        · exact .inl h
        · -- the name begins with the plain name of its own word
          refine .inr (Slot.vocabulary_prefix v hv w hw ⟨ending.toList, ?_⟩)
          rw [h, String.toList_append]
      · rintro (h | h)
        · exact .inl h
        · by_cases hfree : v.base ∉ slots.map Slot.name
          · rw [hfirst.2 hfree, String.append_empty]
            exact .inr h.symm
          · rw [← h]
            exact .inl (not_not.1 hfree)

/-- Every node has the slot that its name calls for. -/
theorem hasSlot (h : Slotted [] nodes slots') {before after : List Datum} {n : Datum}
    (hn : nodes = before ++ n :: after) : HasSlot before n := by
  subst hn
  obtain ⟨slots, hbefore, hafter⟩ := h.split
  have hnone : Taken [] [] := fun w _ => by simp
  have htaken : Taken slots before := hbefore.taken hnone
  have hnames : slots.map Slot.name = slotNames before := by simpa using hbefore.names
  cases hafter with
  | @cons _ _ _ id name _ hname hid hslot _ =>
    refine ⟨name, hname, fun hword => ?_, fun w hword => ?_⟩
    · rw [hslot, Slot.ofLayer?, ← Slot.wordIn?, hword]
      rfl
    · rw [Slot.ofLayer?, ← Slot.wordIn?, hword] at hslot
      refine ⟨Slot.nameFor w.base (Text.lower name) (slots.map Slot.name), hslot, ?_⟩
      have hfirst : (w.base ∉ slots.map Slot.name) ↔ ∀ m ∈ before, plainName? m ≠ some w.base := by
        rw [htaken w (List.mem_of_find?_eq_some hword)]
        push Not
        rfl
      have hgets := Slot.nameFor_getsName w.base (Text.lower name) (slots.map Slot.name)
      rw [hfirst] at hgets
      rwa [hnames] at hgets ⊢

end Slotted

/-- A node that is grown names the slot that its layer makes. -/
theorem withChildren_at {fields : List (String × Datum)} (children : List Datum) {key : String}
    (hk : key ≠ "children") : (withChildren fields children).at? key = fields.lookup key := by
  rw [withChildren, Datum.at?, List.lookup_append, List.lookup_cons, beq_false_of_ne hk]
  exact Option.or_none

/-- The slots found while trees grow are those of their nodes in walking order. -/
theorem Grown.slotted {s : Scene} {slots slots' : List Slot} {forest : Forest Visit}
    {trees : List Datum} (h : Grown s slots forest trees slots') (depth : Nat) :
    Slotted slots ((Datum.preorderItems depth trees).map (·.1)) slots' := by
  induction h generalizing depth with
  | nil => exact .nil _
  | @cons v below after fields children trees slots slots₁ slots₂ slots' hv _ _ ihb iha =>
    obtain ⟨name, id, hname, hid, hslot, rfl⟩ := node_slot hv
    rw [Datum.preorderItems, withChildren, Datum.preorder, preorderFields_children (node_childless hv),
      List.cons_append, List.map_cons, List.map_append, ← withChildren]
    have hat : ∀ key ≠ "children", (withChildren fields children).at? key = fields.lookup key :=
      fun key hk => withChildren_at children hk
    exact .cons ((hat "name" (by decide)).trans hname) ((hat "id" (by decide)).trans hid)
      ((hat "slotName" (by decide)).trans hslot) ((ihb (depth + 1)).append (iha depth))

/-! ## Outlines one after the other -/

namespace Builder

/-- What a builder makes of the nodes of a walk depends on the slots that it has found. -/
theorem nodes_eq (s : Scene) (b : Builder) (visits : List Visit) :
    (∃ f b', Outline.nodes s b.slots visits = .error f ∧ nodes s b visits = (.error f, b') ∧
      b'.extractedAt = b.extractedAt) ∨
    ∃ rows slots, Outline.nodes s b.slots visits = .ok (rows, slots) ∧
      nodes s b visits = (.ok rows, { b with slots }) := by
  induction visits generalizing b with
  | nil => exact .inr ⟨[], b.slots, rfl, rfl⟩
  | cons v rest ih =>
    rw [Outline.nodes, nodes]
    cases hv : node (s.dataAt v.node) v.place b.slots with
    | error f => exact .inl ⟨f, b, rfl, rfl, rfl⟩
    | ok made =>
      obtain ⟨fields, slots⟩ := made
      rcases ih { b with slots } with ⟨f, b', hf, hb, ha⟩ | ⟨rows, slots', hrows, hb⟩
      · exact .inl ⟨f, b', by simp only [Outcome.ok_bind, hf]; rfl, by simp only [hb]; rfl, ha⟩
      · exact .inr ⟨(v, fields) :: rows, slots', by simp only [Outcome.ok_bind, hrows]; rfl,
          by simp only [hb]; rfl⟩

/-- A builder that has met no nodes and found no slots grows the tree of a scene. -/
theorem tree_eq (s : Scene) (extractedAt : Datum) :
    (∃ f b, Outline.tree s = .error f ∧ tree s (new extractedAt) = (.error f, b) ∧
      b.extractedAt = extractedAt) ∨
    ∃ t b, Outline.tree s = .ok (t, b.slots) ∧ tree s (new extractedAt) = (.ok t, b) ∧
      b.extractedAt = extractedAt := by
  unfold Outline.tree tree
  cases s.root with
  | node i =>
    have hfresh : (List.range s.nodes.size).filter (!(new extractedAt).met.contains ·) =
        List.range s.nodes.size := by simp [new]
    simp only [hfresh]
    rw [← Scene.trailFrom]
    generalize s.trailFrom true i = trail
    rcases nodes_eq s { new extractedAt with met := (new extractedAt).met ++ trail.visits.map Visit.node }
      trail.visits with ⟨f, b, hf, hb, ha⟩ | ⟨rows, slots, hrows, hb⟩
    · refine .inl ⟨f, b, ?_, ?_, ha⟩
      · show Outline.nodes s [] trail.visits >>= _ = _
        rw [show Outline.nodes s [] trail.visits = .error f from hf]
        rfl
      · rw [hb]; rfl
    · have hrows : Outline.nodes s [] trail.visits = .ok (rows, slots) := hrows
      simp only [hb, hrows, Outcome.ok_bind]
      cases trail.fault with
      | some f => exact .inl ⟨f, _, rfl, rfl, rfl⟩
      | none => exact .inr ⟨_, _, rfl, rfl, rfl⟩
  | other d =>
    simp only
    cases d.isTruthy with
    | true => exact .inr ⟨none, new extractedAt, rfl, rfl, rfl⟩
    | false =>
      rw [if_neg Bool.false_ne_true, if_neg Bool.false_ne_true]
      show (∃ f b, (node .empty 0 [] >>= _) = _ ∧ _) ∨ _
      cases hn : node .empty 0 [] with
      | error f => exact .inl ⟨f, new extractedAt, rfl, by simp only [new, hn], rfl⟩
      | ok made => exact .inr ⟨_, { new extractedAt with slots := made.2 }, rfl, by simp only [new, hn], rfl⟩

/-- Whatever a builder has made before, the next outline is that of its scene alone. -/
theorem build_eq (b : Builder) (o : Order) :
    (b.build o).1 = ofScene o.scene ⟨o.url, o.fileKey, b.extractedAt⟩ ∧
      (b.build o).2.extractedAt = b.extractedAt := by
  unfold build ofScene
  rw [← new]
  rcases tree_eq o.scene b.extractedAt with ⟨f, b', hf, hb, ha⟩ | ⟨t, b', ht, hb, ha⟩
  · rw [hf, hb]
    exact ⟨rfl, ha⟩
  · rw [ht, hb]
    refine ⟨?_, ha⟩
    simp only [Outcome.ok_bind, ha]

theorem builds_eq (b : Builder) (orders : List Order) :
    b.builds orders = orders.map fun o => ofScene o.scene ⟨o.url, o.fileKey, b.extractedAt⟩ := by
  induction orders generalizing b with
  | nil => rfl
  | cons o rest ih =>
    obtain ⟨hdoc, hat⟩ := build_eq b o
    rw [builds, List.map_cons, ← hdoc]
    simp only [ih, hat]

end Builder

end Maquette.Outline
