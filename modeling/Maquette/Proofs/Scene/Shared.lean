/-
Where graphs come from: a value read from a file whose nodes have lists of children is planted as a
graph, and so are numbered records that refer to each other by their numbers, whatever these
references are: a node may be listed twice, under several parents, or below itself.
-/
import Maquette.Proofs.Scene.Planted

namespace Maquette.Scene

/-! ## Sound arrays -/

/-- A node that is a record and has a list of children with numbers below `bound`. -/
def Sound (bound : Nat) (n : SceneNode) : Prop :=
  n.data.isRecord = true ∧ ∃ ts, n.branches = .items ts ∧ ∀ j, some j ∈ ts → j < bound

theorem Sound.mono {bound bound' : Nat} {n : SceneNode} (h : Sound bound n) (hle : bound ≤ bound') :
    Sound bound' n := by
  obtain ⟨hd, ts, hts, hlt⟩ := h
  exact ⟨hd, ts, hts, fun j hj => (hlt j hj).trans_le hle⟩

/-- All nodes of an array have their children in it. -/
def AllSound (nodes : Array SceneNode) : Prop :=
  ∀ (i : Nat) (n : SceneNode), nodes[i]? = some n → Sound nodes.size n

theorem AllSound.push {nodes : Array SceneNode} (h : AllSound nodes) {n : SceneNode}
    (hn : Sound nodes.size n) : AllSound (nodes.push n) := by
  intro i m hm
  have hle : nodes.size ≤ (nodes.push n).size := by simp
  rw [Array.getElem?_push] at hm
  split at hm
  · cases hm; exact hn.mono hle
  · exact (h i m hm).mono hle

theorem isGraph_of_allSound {s : Scene} (h : AllSound s.nodes) : s.IsGraph := by
  have hsome : ∀ i (hi : i < s.nodes.size), s.nodes[i]? = some s.nodes[i] := fun i hi =>
    Array.getElem?_eq_getElem hi
  refine ⟨fun i hi => ?_, fun i hi => ?_, fun i hi ts hts j hj => ?_⟩
  · rw [dataAt, hsome i hi]
    exact (h i _ (hsome i hi)).1
  · obtain ⟨-, ts, hts, -⟩ := h i _ (hsome i hi)
    exact ⟨ts, by rw [branchesAt, hsome i hi]; exact hts⟩
  · obtain ⟨-, ts', hts', hlt⟩ := h i _ (hsome i hi)
    rw [branchesAt, hsome i hi] at hts
    obtain rfl : ts' = ts := by
      have := hts'.symm.trans hts
      cases this; rfl
    exact hlt j hj

/-! ## Values read from files -/

mutual

theorem plant_sound {nodes : Array SceneNode} (h : AllSound nodes) (d : Datum)
    (ht : d.isTree = true) :
    AllSound (plant nodes d).1 ∧ ∀ j ∈ (plant nodes d).2, j < (plant nodes d).1.size := by
  cases d with
  | record fields =>
    obtain ⟨ts, hts, hsound, hlt⟩ := plantFields_sound h fields ht
    rw [plant]
    refine ⟨hsound.push ⟨rfl, ts, hts, hlt⟩, fun j hj => ?_⟩
    cases hj
    simp
  | _ => exact ⟨h, fun j hj => by cases hj⟩

theorem plantFields_sound {nodes : Array SceneNode} (h : AllSound nodes)
    (fields : List (String × Datum)) (ht : Datum.isTreeFields fields = true) :
    ∃ ts, (plantFields nodes fields).2 = .items ts ∧ AllSound (plantFields nodes fields).1 ∧
      ∀ j, some j ∈ ts → j < (plantFields nodes fields).1.size := by
  match fields with
  | [] => exact ⟨[], rfl, h, by simp⟩
  | (k, v) :: rest =>
    rw [Datum.isTreeFields] at ht
    simp only [plantFields]
    cases hk : k == "children" with
    | true => rw [hk] at ht; exact plantChildren_sound h v ht
    | false => rw [hk] at ht; exact plantFields_sound h rest ht

theorem plantChildren_sound {nodes : Array SceneNode} (h : AllSound nodes) (d : Datum)
    (ht : Datum.isTreeChildren d = true) :
    ∃ ts, (plantChildren nodes d).2 = .items ts ∧ AllSound (plantChildren nodes d).1 ∧
      ∀ j, some j ∈ ts → j < (plantChildren nodes d).1.size := by
  cases d with
  | list items =>
    obtain ⟨hsound, hlt⟩ := plantItems_sound h items ht
    exact ⟨_, rfl, hsound, hlt⟩
  | text t => exact ⟨_, rfl, h, fun j hj => by simp at hj⟩
  | record fields =>
    rw [Datum.isTreeChildren] at ht
    exact ⟨[], by simp [plantChildren, ht], h, by simp⟩
  | _ =>
    rw [Datum.isTreeChildren.eq_def] at ht
    simp only [Bool.not_eq_true'] at ht
    exact ⟨[], by simp [plantChildren, ht], h, by simp⟩

theorem plantItems_sound {nodes : Array SceneNode} (h : AllSound nodes) (items : List Datum)
    (ht : Datum.isTreeItems items = true) :
    AllSound (plantItems nodes items).1 ∧
      ∀ j, some j ∈ (plantItems nodes items).2 → j < (plantItems nodes items).1.size := by
  match items with
  | [] => exact ⟨h, fun j hj => by cases hj⟩
  | d :: rest =>
    rw [Datum.isTreeItems, Bool.and_eq_true] at ht
    obtain ⟨hsound, hlt⟩ := plant_sound h d ht.1
    obtain ⟨hsound', hlt'⟩ := plantItems_sound hsound rest ht.2
    -- the numbers of the first item's nodes stay valid, as the others are only added
    have hle := (plantItems_covers (plant nodes d).1 rest ht.2).1.1
    rw [plantItems]
    refine ⟨hsound', fun j hj => ?_⟩
    rcases List.mem_cons.1 hj with hj | hj
    · exact (hlt j hj.symm).trans_le hle
    · exact hlt' j hj

end

theorem isGraph_ofDatum {d : Datum} (ht : d.isTree = true) : (ofDatum d).IsGraph := by
  refine isGraph_of_allSound ?_
  have h := (plant_sound (show AllSound #[] by simp [AllSound]) d ht).1
  unfold ofDatum
  generalize plant #[] d = planted at h ⊢
  obtain ⟨nodes, _ | i⟩ := planted <;> exact h

/-! ## Numbered records -/

/-- The children of a numbered record, of which none is written out: numbers below `count`, or items
that are no nodes. -/
def references (count : Nat) (items : List Datum) : List (Option Nat) :=
  items.map fun d => match d with
    | .int n => if 0 ≤ n ∧ n < count then some n.toNat else none
    | _ => none

/-- A record with a list of references, or without children. -/
def IsNumbered (d : Datum) : Prop :=
  d.isRecord = true ∧ (((d.at? "children").getD .null).isTruthy = false ∨
    ∃ items, d.at? "children" = some (.list items) ∧ ∀ item ∈ items, item.isRecord = false)

theorem plantShared_eq {count : Nat} {nodes : Array SceneNode} {items : List Datum}
    (h : ∀ item ∈ items, item.isRecord = false) :
    plantShared count nodes items = (nodes, references count items) := by
  induction items with
  | nil => rfl
  | cons d items ih =>
    obtain ⟨hd, hrest⟩ := List.forall_mem_cons.1 h
    rw [plantShared.eq_def]
    cases d with
    | record fields => cases hd
    | _ => simp only [plant, ih hrest]; rfl

theorem references_lt {count : Nat} {items : List Datum} {j : Nat}
    (h : some j ∈ references count items) : j < count := by
  obtain ⟨d, -, hd⟩ := List.mem_map.1 h
  cases d with
  | int n =>
    simp only at hd
    split at hd
    · cases hd; omega
    · cases hd
  | _ => cases hd

/-- What counts as absent is planted as no children. -/
theorem plantChildren_absent (nodes : Array SceneNode) {d : Datum} (h : d.isTruthy = false) :
    plantChildren nodes d = (nodes, .items []) := by
  cases d with
  | list items =>
    obtain rfl : items = [] := by simpa [Datum.isTruthy] using h
    rfl
  | text t =>
    obtain rfl : t = "" := by simpa [Datum.isTruthy] using h
    rfl
  | record fields =>
    obtain rfl : fields = [] := by simpa [Datum.isTruthy] using h
    rfl
  | _ => simp [plantChildren, h]

/-- A numbered record is put in its place, and nothing else changes. -/
theorem placeShared_eq (count : Nat) {d : Datum} (h : IsNumbered d) :
    ∃ n, Sound count n ∧ ∀ (nodes : Array SceneNode) (i : Nat),
      placeShared count nodes i d = nodes.setIfInBounds i n := by
  obtain ⟨hr, h | ⟨items, hc, hi⟩⟩ := h
  · refine ⟨⟨d, .items []⟩, ⟨hr, [], rfl, by simp⟩, fun nodes i => ?_⟩
    unfold placeShared
    generalize (d.at? "children").getD .null = children at h
    have habsent := plantChildren_absent nodes h
    cases children with
    | list items =>
      obtain rfl : items = [] := by simpa [Datum.isTruthy] using h
      rfl
    | _ => simp only [habsent]
  · refine ⟨⟨d, .items (references count items)⟩, ⟨hr, _, rfl, fun j => references_lt⟩,
      fun nodes i => ?_⟩
    unfold placeShared
    simp only [hc, Option.getD_some, plantShared_eq hi]

/-- Placing records one after the other makes sound nodes from the first place to the last. -/
theorem foldl_placeShared {count : Nat} {ds : List Datum} (h : ∀ d ∈ ds, IsNumbered d) {k : Nat}
    {nodes : Array SceneNode} (hsize : nodes.size = count)
    (hk : ∀ (i : Nat) (n : SceneNode), i < k → nodes[i]? = some n → Sound count n) :
    let placed := (ds.zipIdx k).foldl (fun nodes (d, i) => placeShared count nodes i d) nodes
    placed.size = count ∧ ∀ (i : Nat) (n : SceneNode), i < k + ds.length → placed[i]? = some n →
      Sound count n := by
  induction ds generalizing k nodes with
  | nil => exact ⟨hsize, hk⟩
  | cons d ds ih =>
    obtain ⟨hd, hrest⟩ := List.forall_mem_cons.1 h
    obtain ⟨n, hn, hplace⟩ := placeShared_eq count hd
    rw [List.zipIdx_cons, List.foldl_cons, List.length_cons, ← Nat.add_assoc, Nat.add_right_comm]
    refine ih hrest (by simp [hplace, hsize]) fun i m hi hm => ?_
    simp only [hplace, Array.getElem?_setIfInBounds] at hm
    split at hm
    · split at hm
      · cases hm; exact hn
      · cases hm
    · exact hk i m (by omega) hm

theorem isGraph_ofShared {ds : List Datum} (h : ∀ d ∈ ds, IsNumbered d) (root : Nat) :
    (ofShared ds root).IsGraph := by
  have hblank : (Array.replicate ds.length (default : SceneNode)).size = ds.length := by simp
  obtain ⟨hsize, hsound⟩ := foldl_placeShared (k := 0) h hblank fun i n hi =>
    absurd hi (Nat.not_lt_zero i)
  refine isGraph_of_allSound fun i n hn => ?_
  have hsize' : (ofShared ds root).nodes.size = ds.length := hsize
  rw [hsize']
  refine hsound i n ?_ hn
  have := (Array.getElem?_eq_some_iff.1 hn).1
  omega

end Maquette.Scene
