/-
What the classification of a component depends on. The features of an outline are a sum over the
nodes of its tree, and the depth is the greatest one that a node has; neither minds the order in which
the walk meets the nodes, so trees that differ in the order of children alone have the same features.
A name that tells the archetype settles everything that is said about it, whatever the tree holds.

The sum is one of steps that may fail. They all fail in the same way, so it does not matter either
which of the nodes that cannot be read is met first.
-/
import Maquette.Archetype.Intelligence
import Maquette.Proofs.Interaction.Valid
import Maquette.Proofs.Scene.Shuffled

namespace Maquette.Archetype

open Datum (Shuffled)

/-! ## One node -/

/-- What the features take from a node. -/
structure Glimpse where
  lower : String
  kind : Datum
  variant : Bool

def look (node : Datum) : Outcome Glimpse := do
  let name ← (← node.get "name").textOrEmpty
  let kind ← node.fieldOr "type" (.text "")
  let properties ← node.get "variantProperties"
  return ⟨Text.lower name, kind, properties.isTruthy⟩

def Features.add (f : Features) (g : Glimpse) : Features := f.see g.lower g.kind g.variant

theorem seeNode_eq (f : Features) (node : Datum) : f.seeNode node = f.add <$> look node := by
  simp only [Features.seeNode, look, map_bind, map_pure, Features.add]

theorem look_eq {node : Datum} (h : node.isRecord = true) :
    look node = (fun name => ⟨Text.lower name, (node.at? "type").getD (.text ""),
      ((node.at? "variantProperties").getD .null).isTruthy⟩) <$>
        ((node.at? "name").getD .null).textOrEmpty := by
  unfold look
  rw [Datum.get_eq h, Datum.fieldOr_eq h, Datum.get_eq h, Outcome.ok_bind, map_eq_pure_bind]
  rfl

/-- A node is seen but for its children. -/
theorem look_beside {before after : List (String × Datum)} {v v' : Datum} :
    look (.record (before ++ ("children", v) :: after)) =
      look (.record (before ++ ("children", v') :: after)) := by
  have hfield : ∀ key ≠ "children", (Datum.record (before ++ ("children", v) :: after)).at? key =
      (Datum.record (before ++ ("children", v') :: after)).at? key := fun _ => Datum.at?_beside
  rw [look_eq rfl, look_eq rfl, hfield "name" (by decide), hfield "type" (by decide),
    hfield "variantProperties" (by decide)]

/-- A value that cannot be seen lacks a member: it is no record, or its name no text. -/
theorem look_error {node : Datum} {e : Fault} (h : look node = .error e) : e = .noMember := by
  cases hrecord : node.isRecord with
  | false =>
    have hlook : look node = .error .noMember := by cases node <;> first | rfl | cases hrecord
    rw [hlook] at h
    exact (Except.error.inj h).symm
  | true =>
    rw [look_eq hrecord] at h
    generalize (node.at? "name").getD .null = v at h
    cases hname : v.textOrEmpty with
    | ok name => rw [hname] at h; cases h
    | error e' =>
      rw [hname] at h
      cases h
      unfold Datum.textOrEmpty at hname
      split at hname
      · cases v <;> cases hname <;> rfl
      · cases hname

/-! ## All nodes -/

/-- What one node adds does not depend on the other ones. -/
theorem Features.add_right_comm (f : Features) (g g' : Glimpse) : (f.add g).add g' = (f.add g').add g := by
  simp only [Features.add, Features.see, Features.mk.injEq, true_and]
  and_intros <;> ac_rfl

/-- Steps that all fail in the same way have the same sum in any order. -/
theorem foldlM_perm {α β : Type} {add : β → α → β}
    (hadd : ∀ b x y, add (add b x) y = add (add b y) x) {fault : Fault} {xs ys : List (Outcome α)}
    (h : xs.Perm ys) (hfault : ∀ x ∈ xs, ∀ e, x = .error e → e = fault) (b : β) :
    xs.foldlM (fun b x => add b <$> x) b = ys.foldlM (fun b x => add b <$> x) b := by
  rw [List.foldlM_eq_foldl, List.foldlM_eq_foldl]
  refine h.foldl_eq' (fun x hx y hy acc => ?_) _
  cases acc with
  | error e => rfl
  | ok b =>
    cases hxe : x with
    | ok x' =>
      cases y with
      | ok y => exact congrArg Except.ok (hadd b x' y)
      | error e => rfl
    | error e =>
      cases hye : y with
      | ok y => rfl
      | error e' =>
        -- whichever of the two is met first, the sum fails in the same way
        obtain rfl := hfault x hx e hxe
        obtain rfl := hfault y hy e' hye
        rfl

/-- The sum over the nodes that a walk meets. -/
def seeAll (f : Features) (rows : List (Datum × Nat)) : Outcome Features :=
  rows.foldlM (fun (f : Features) row => f.seeNode row.1) f

/-- The depth of the deepest of the nodes that a walk meets. -/
def deepest (rows : List (Datum × Nat)) : Nat := rows.foldl (fun deepest row => max deepest row.2) 0

section Shuffled

variable {t t' : Datum} (h : Shuffled [t] [t'])
include h

theorem seeAll_shuffled (f : Features) : seeAll f (t.preorder 0) = seeAll f (t'.preorder 0) := by
  have hmap : ∀ rows : List (Datum × Nat), seeAll f rows =
      (rows.map fun row => look row.1).foldlM (fun (f : Features) g => f.add <$> g) f := by
    intro rows
    rw [List.foldlM_map, seeAll]
    simp only [seeNode_eq]
  -- of the nodes only what is seen of them matters, and of that not the order
  have hperm := (h.nodes_perm look look_beside).map Prod.fst
  rw [List.map_map, List.map_map] at hperm
  have hfault : ∀ g ∈ (t.preorder 0).map fun row => look row.1, ∀ e, g = .error e → e = .noMember := by
    intro g hg e he
    obtain ⟨row, -, rfl⟩ := List.mem_map.1 hg
    exact look_error he
  rw [hmap, hmap]
  exact foldlM_perm Features.add_right_comm hperm hfault f

theorem deepest_shuffled : deepest (t.preorder 0) = deepest (t'.preorder 0) := by
  have hmap : ∀ rows : List (Datum × Nat), deepest rows =
      (rows.map Prod.snd).foldl max 0 := fun rows => by rw [List.foldl_map, deepest]
  have hperm := (h.nodes_perm look look_beside).map Prod.snd
  rw [List.map_map, List.map_map] at hperm
  rw [hmap, hmap]
  exact hperm.foldl_eq' (fun x _ y _ z => Nat.max_right_comm z x y) 0

end Shuffled

/-- The features of an outline whose tree holds something are a sum over the nodes of the tree. -/
theorem ofOutline_tree {outline t : Datum} (hget : outline.get "tree" = .ok t)
    (ht : (t.isRecord && t.isTruthy) = true) (htree : t.isTree = true) :
    Features.ofOutline outline =
      seeAll { Features.none with depth := deepest (t.preorder 0) } (t.preorder 0) := by
  obtain ⟨hrecord, htruthy⟩ := Bool.and_eq_true_iff.1 ht
  unfold Features.ofOutline
  rw [hget, Outcome.ok_bind, Walked.ofDatum_tree htruthy hrecord htree]
  simp only [Walked.maxDepth, Walked.foldM, Walked.finish, Outcome.ok_bind, seeAll, deepest]
  exact bind_pure _

/-- Outlines whose trees differ in the order of children alone have the same features. -/
theorem ofOutline_shuffled {outline outline' t t' : Datum} (hget : outline.get "tree" = .ok t)
    (hget' : outline'.get "tree" = .ok t') (htree : t.isTree = true) (h : Shuffled [t] [t']) :
    Features.ofOutline outline = Features.ofOutline outline' := by
  rcases h.root_eq with rfl | ⟨ht, ht'⟩
  · unfold Features.ofOutline
    rw [hget, hget']
  · rw [ofOutline_tree hget ht htree, ofOutline_tree hget' ht' (h.tree_eq ▸ htree),
      seeAll_shuffled h, deepest_shuffled h]

/-! ## The verdict -/

/-- The name that an outline gives its component. -/
def titleOf (outline : Datum) : Outcome Datum := do
  (← outline.fieldOr "meta" .empty).fieldOr "name" (.text "")

def slotsOf (outline : Datum) : Outcome Datum := outline.fieldOr "slots" (.list [])

/-- Two outlines of one name and with the same slots, whose trees differ in the order of children
alone. -/
structure Rearranged (outline outline' : Datum) : Prop where
  tree : ∃ t t', outline.get "tree" = .ok t ∧ outline'.get "tree" = .ok t' ∧ t.isTree = true ∧
    Shuffled [t] [t']
  title : titleOf outline = titleOf outline'
  slots : slotsOf outline = slotsOf outline'

/-- What is known about a component is made of its features, its name and its slots. -/
theorem classify_eq (outline : Datum) :
    classify outline = do
      let f ← Features.ofOutline outline
      let name ← (← titleOf outline).textOrEmpty
      let slots ← (← slotsOf outline).items
      let slotNames ← slots.mapM fun s => s.need "name"
      return (judge name f slots.length).toDatum f slotNames := by
  simp only [classify, titleOf, slotsOf, bind_assoc]

/-- A name to which a rule applies tells an archetype. -/
theorem byName_known {name : String} (h : ∃ rule ∈ nameRules, rule.applies (Text.lower name) = true) :
    byName name ≠ unknown := by
  have hrules : ∀ rule ∈ nameRules, rule.archetype ≠ unknown := by decide
  have hfound := List.find?_isSome.2 h
  obtain ⟨rule, hrule⟩ := Option.isSome_iff_exists.1 hfound
  simp only [byName, hrule, Option.map_some, Option.getD_some]
  exact hrules rule (List.mem_of_find?_eq_some hrule)

/-- A name that tells the archetype outweighs the features and the slots. -/
theorem judge_name {name : String} (h : byName name ≠ unknown) (f : Features) (slotCount : Int) :
    judge name f slotCount = ⟨byName name, .name⟩ := by
  unfold judge
  split
  · rename_i hunknown
    exact absurd hunknown h
  · rfl

/-- What is said about a component whose name tells the archetype. -/
theorem classify_name {outline r : Datum} {name : String} (hname : byName name ≠ unknown)
    (htitle : titleOf outline = .ok (.text name)) (h : classify outline = .ok r) :
    ∃ f slotNames, r = (⟨byName name, .name⟩ : Verdict).toDatum f slotNames := by
  rw [classify_eq, htitle] at h
  simp only [Outcome.ok_bind, Datum.textOrEmpty_text] at h
  obtain ⟨f, -, h⟩ := Outcome.bind_ok h
  obtain ⟨slots, -, h⟩ := Outcome.bind_ok h
  obtain ⟨items, -, h⟩ := Outcome.bind_ok h
  obtain ⟨slotNames, -, h⟩ := Outcome.bind_ok h
  rw [judge_name hname] at h
  cases h
  exact ⟨f, slotNames, rfl⟩

/-- The fields of a verdict that hold nothing of the features or the slots. -/
theorem toDatum_settled (v : Verdict) {key : String}
    (h : key ∈ ["category", "confidence", "detectedFrom", "requiredPrimitives"]) :
    ∃ d, ∀ f slotNames, (v.toDatum f slotNames).at? key = some d := by
  simp only [List.mem_cons, List.not_mem_nil, or_false] at h
  rcases h with rfl | rfl | rfl | rfl <;> exact ⟨_, fun _ _ => rfl⟩

theorem titleOf_valid {outline : Datum} (h : Outline.IsValid outline) :
    ∃ name, titleOf outline = .ok (.text name) := by
  obtain ⟨info, name, hinfo, hrecord, hname⟩ := h.title
  refine ⟨name, ?_⟩
  rw [titleOf, Datum.fieldOr_eq h.record, hinfo, Outcome.ok_bind, Option.getD_some,
    Datum.fieldOr_eq hrecord, hname, Option.getD_some]

/-- The classification does not mind the order of children, and where the name tells the archetype it
does not mind the tree and the slots either, but for the fields that are made of them; a valid outline
always has a classification. -/
theorem classify_stable :
    (∀ outline outline', Rearranged outline outline' → classify outline = classify outline') ∧
    (∀ outline outline' name, titleOf outline = .ok (.text name) → titleOf outline' = .ok (.text name) →
      (∃ rule ∈ nameRules, rule.applies (Text.lower name) = true) →
      ∀ r r', classify outline = .ok r → classify outline' = .ok r' →
        r.at? "detectedFrom" = some (.text "name") ∧
        ∀ key ∈ ["category", "confidence", "detectedFrom", "requiredPrimitives"],
          ∃ d, r.at? key = some d ∧ r'.at? key = some d) ∧
    ∀ outline, Schema.validateOutline outline = .ok () →
      (∃ t, outline.get "tree" = .ok t ∧ t.isRecord = true ∧ t.isTree = true) ∧
      (∃ name, titleOf outline = .ok (.text name)) ∧ ∃ r, classify outline = .ok r := by
  refine ⟨fun outline outline' h => ?_, fun outline outline' name htitle htitle' hrule r r' hr hr' => ?_,
    fun outline h => ?_⟩
  · obtain ⟨t, t', hget, hget', htree, hshuffled⟩ := h.tree
    rw [classify_eq, classify_eq, ofOutline_shuffled hget hget' htree hshuffled, h.title, h.slots]
  · have hname := byName_known hrule
    obtain ⟨f, slotNames, rfl⟩ := classify_name hname htitle hr
    obtain ⟨f', slotNames', rfl⟩ := classify_name hname htitle' hr'
    refine ⟨rfl, fun key hkey => ?_⟩
    obtain ⟨d, hd⟩ := toDatum_settled ⟨byName name, .name⟩ hkey
    exact ⟨d, hd f slotNames, hd f' slotNames'⟩
  · have hvalid := Outline.valid_of_validate h
    obtain ⟨t, ht, hrecord, -, htree, -⟩ := hvalid.tree
    obtain ⟨v, f, slotNames, hc⟩ := Interaction.classify_ok hvalid
    refine ⟨⟨t, ?_, hrecord, htree⟩, titleOf_valid hvalid, _, hc⟩
    rw [Datum.get_eq hvalid.record, ht, Option.getD_some]

/-- An empty layer. -/
def layer (name : String) : Datum :=
  .record [("id", .text name), ("name", .text name), ("type", .text "FRAME")]

/-- An outline of a component with empty layers of the given names. -/
def layered (title : String) (names : List String) : Datum :=
  .record
    [("version", .text "1.0.0"),
     ("meta", .record
       [("name", .text title), ("nodeId", .text "1:1"), ("type", .text "COMPONENT"),
        ("componentType", .text "component"), ("extractedAt", .text Outline.epoch)]),
     ("tree", .record
       [("id", .text "1:1"), ("name", .text title), ("type", .text "COMPONENT"),
        ("children", .list (names.map layer))]),
     ("layoutIntent", .record [("horizontal", .text "fixed"), ("vertical", .text "fixed")])]

/-- The same layers in another order. -/
theorem Rearranged.layered (title : String) {names names' : List String} (h : names.Perm names') :
    Rearranged (layered title names) (layered title names') := by
  have hitems : ∀ d ∈ names.map layer, d.isTree = true := by
    intro d hd
    obtain ⟨name, -, rfl⟩ := List.mem_map.1 hd
    rfl
  have hnode : ∀ before : List (String × Datum), before.lookup "children" = none →
      Shuffled [.record (before ++ [("children", .list (names.map layer))])]
        [.record (before ++ [("children", .list (names'.map layer))])] :=
    fun _ hbefore => .node hbefore (.of_perm (h.map layer)) .nil
  constructor
  case tree =>
    exact ⟨_, _, rfl, rfl, Datum.isTreeItems_iff.2 hitems,
      hnode [("id", .text "1:1"), ("name", .text title), ("type", .text "COMPONENT")] rfl⟩
  case title => rfl
  case slots => rfl

/-- A panel is told by its layers in whichever order they are, a button by its name although one has
a field and the other one nothing. -/
theorem classify_stable_layers :
    (∃ r, classify (layered "Panel" ["Track", "Icon", "List"]) = .ok r ∧
      classify (layered "Panel" ["List", "Icon", "Track"]) = .ok r) ∧
    ∃ r r', classify (layered "Save Button" ["Search Field"]) = .ok r ∧
      classify (layered "Save Button" []) = .ok r' ∧
      r.at? "detectedFrom" = some (.text "name") ∧
      ∃ d, r.at? "category" = some d ∧ r'.at? "category" = some d := by
  obtain ⟨hrearranged, hname, hvalid⟩ := classify_stable
  constructor
  · obtain ⟨-, -, r, hr⟩ := hvalid (layered "Panel" ["Track", "Icon", "List"]) rfl
    have hperm : ["Track", "Icon", "List"].Perm ["List", "Icon", "Track"] :=
      List.reverse_perm ["List", "Icon", "Track"]
    exact ⟨r, hr, by rw [← hrearranged _ _ (.layered "Panel" hperm), hr]⟩
  · obtain ⟨-, -, r, hr⟩ := hvalid (layered "Save Button" ["Search Field"]) rfl
    obtain ⟨-, -, r', hr'⟩ := hvalid (layered "Save Button" []) rfl
    obtain ⟨hfrom, hsame⟩ := hname _ _ "Save Button" rfl rfl (by decide +kernel) r r' hr hr'
    exact ⟨r, r', hr, hr', hfrom, hsame "category" (by decide)⟩

end Maquette.Archetype
