/-
Sets of components that are told by the names of their layers. Whether the layers carry their
properties besides makes no difference to the set: its outline lists the same variants and the same
slots, so the properties have the same axes and the component has the same parameters.
-/
import Maquette.Component.Parameter
import Maquette.Proofs.Outline.Shape
import Maquette.Proofs.Outline.VariantNames

namespace Maquette

open Outline (Alike IsLayer IsOrigin SpelledOut Spellable Variant Slot spelled nameProperties toldVariants)

/-! ## The same walk -/

/-- What a walk meets is told by the children that the nodes have. -/
theorem Scene.walkFrom_congr {s s' : Scene} (h : ∀ i, s'.branchesAt i = s.branchesAt i)
    (byPosition : Bool) (fresh : List ℕ) (pending : List Visit) :
    s'.walkFrom byPosition fresh pending = s.walkFrom byPosition fresh pending := by
  fun_induction s.walkFrom byPosition fresh pending with
  | case1 => rw [walkFrom]
  | case2 fresh v rest hv f hf => rw [walkFrom, dif_pos hv, h, hf]
  | case3 fresh v rest hv ts hts trail ih => rw [walkFrom, dif_pos hv, h, hts]; simp only [ih]; rfl
  | case4 fresh v rest hv ih => rw [walkFrom, dif_neg hv, ih]

namespace Outline

variable {s s' : Scene}

/-- Layers that are alike make the same slots, one after the other. -/
theorem nodes_slots (ha : ∀ i, Alike (s.dataAt i) (s'.dataAt i)) {visits : List Visit}
    {slots a b : List Slot} {rows rows' : List (Visit × List (String × Datum))}
    (h : nodes s slots visits = .ok (rows, a)) (h' : nodes s' slots visits = .ok (rows', b)) : b = a := by
  induction visits generalizing slots rows rows' with
  | nil => cases h; cases h'; rfl
  | cons v rest ih =>
    obtain ⟨⟨fields, slots₁⟩, hnode, h⟩ := Outcome.bind_ok h
    obtain ⟨⟨others, last⟩, hrest, h⟩ := Outcome.bind_ok h
    obtain ⟨⟨fields', slots₁'⟩, hnode', h'⟩ := Outcome.bind_ok h'
    obtain ⟨⟨others', last'⟩, hrest', h'⟩ := Outcome.bind_ok h'
    cases h
    cases h'
    obtain rfl := (ha v.node).slots hnode hnode'
    exact ih hrest hrest'

/-- The list of variants that an outline holds. -/
theorem document_variants {origin : Origin} {t : Option Datum} {slots : List Slot} {doc : Datum}
    (h : document s origin t slots = .ok doc) :
    ∃ vs, Variant.ofScene s = .ok vs ∧ doc.at? "variants" = some (.list (vs.map Variant.toDatum)) := by
  unfold document at h
  obtain ⟨variants, hvariants, h⟩ := Outcome.bind_ok h
  obtain ⟨name, -, h⟩ := Outcome.bind_ok h
  obtain ⟨id, -, h⟩ := Outcome.bind_ok h
  obtain ⟨kind, -, h⟩ := Outcome.bind_ok h
  obtain ⟨intent, -, h⟩ := Outcome.bind_ok h
  obtain ⟨hints, -, h⟩ := Outcome.bind_ok h
  obtain ⟨states, -, h⟩ := Outcome.bind_ok h
  obtain ⟨component, -, h⟩ := Outcome.bind_ok h
  obtain ⟨n, -, h⟩ := Outcome.bind_ok h
  cases h
  exact ⟨variants, hvariants, rfl⟩

theorem Alike.isLayer {layer layer' : Datum} (ha : Alike layer layer') (h : IsLayer layer) :
    IsLayer layer' := by
  have hpart : ∀ {key : String} {P : Datum → Prop}, layer.Part key P →
      key ≠ "children" → key ≠ "variantProperties" → layer'.Part key P := by
    intro key P hp hc hv v hat
    rw [ha.field key hc hv] at hat
    exact hp v hat
  have hparts : ∀ {keys : List String} {P : Datum → Prop}, (∀ key ∈ keys, layer.Part key P) →
      "children" ∉ keys → "variantProperties" ∉ keys → ∀ key ∈ keys, layer'.Part key P :=
    fun hp hc hv key hkey =>
      hpart (hp key hkey) (ne_of_mem_of_not_mem hkey hc) (ne_of_mem_of_not_mem hkey hv)
  exact
    { record := ha.record.trans h.record
      word := hparts h.word (by decide) (by decide)
      measure := hparts h.measure (by decide) (by decide)
      box := hpart h.box (by decide) (by decide)
      fills := hpart h.fills (by decide) (by decide)
      strokes := hpart h.strokes (by decide) (by decide)
      strokeWeight := hpart h.strokeWeight (by decide) (by decide)
      strokeAlign := hpart h.strokeAlign (by decide) (by decide)
      effects := hpart h.effects (by decide) (by decide)
      opacity := hpart h.opacity (by decide) (by decide)
      cornerRadius := hpart h.cornerRadius (by decide) (by decide)
      cornerRadii := hpart h.cornerRadii (by decide) (by decide)
      style := hpart h.style (by decide) (by decide)
      textPath := hpart h.textPath (by decide) (by decide)
      vectorPaths := hparts h.vectorPaths (by decide) (by decide)
      bindings := hpart h.bindings (by decide) (by decide) }

namespace SpelledOut

variable {root : ℕ} {children : List (Option ℕ)} {properties : ℕ → Table String String}
  (h : SpelledOut s s' root children properties)
include h

theorem slots {t t' : Option Datum} {slots slots' : List Slot} (ht : tree s = .ok (t, slots))
    (ht' : tree s' = .ok (t', slots')) : slots' = slots := by
  have hmade : ∀ {u : Scene} {t : Option Datum} {slots : List Slot}, u.root = .node root →
      tree u = .ok (t, slots) → ∃ rows, nodes u [] (u.trailFrom true root).visits = .ok (rows, slots) := by
    intro u t slots hroot hu
    unfold tree at hu
    rw [hroot] at hu
    obtain ⟨⟨rows, made⟩, hrows, hu⟩ := Outcome.bind_ok hu
    dsimp only at hu
    split at hu <;> cases hu
    exact ⟨rows, hrows⟩
  obtain ⟨rows, hrows⟩ := hmade h.begins ht
  obtain ⟨rows', hrows'⟩ := hmade h.begins' ht'
  rw [Scene.trailFrom, Scene.walkFrom_congr h.branches, h.size] at hrows'
  exact nodes_slots h.alike hrows hrows'

/-- Layers that hold what layers hold give both designs an outline. -/
theorem outlined (hs : s.IsGraph) (hlayers : ∀ i, s.Reachable root i → IsLayer (s.dataAt i))
    {origin : Origin} (ho : IsOrigin origin) :
    (∃ doc, ofScene s origin = .ok doc) ∧ ∃ doc', ofScene s' origin = .ok doc' := by
  have hr : root < s.nodes.size := by
    by_contra hge
    have hdata : s.dataAt root = .null := by
      rw [Scene.dataAt, Array.getElem?_eq_none (not_lt.1 hge)]
      rfl
    exact absurd h.isSet (by rw [hdata]; simp [Datum.at?])
  have hs' : s'.IsGraph := by
    refine ⟨fun i hi => ?_, fun i hi => ?_, fun i hi ts hts j hj => ?_⟩
    · rw [(h.alike i).record]
      exact hs.records i (h.size ▸ hi)
    · rw [h.branches]
      exact hs.listed i (h.size ▸ hi)
    · rw [h.branches] at hts
      exact h.size ▸ hs.closed i (h.size ▸ hi) ts hts j hj
  have hreachable : ∀ i, s'.Reachable root i → s.Reachable root i := by
    refine fun i hi => Relation.ReflTransGen.mono (fun a b hstep => ?_) _ _ hi
    obtain ⟨ts, hts, hb⟩ := hstep
    exact ⟨ts, (h.branches a).symm.trans hts, hb⟩
  obtain ⟨doc, hdoc, -⟩ := ofScene_valid hs h.begins hr hlayers ho
  obtain ⟨doc', hdoc', -⟩ := ofScene_valid hs' h.begins' (h.size.symm ▸ hr)
    (fun i hi => (h.alike i).isLayer (hlayers i (hreachable i hi))) ho
  exact ⟨⟨doc, hdoc⟩, ⟨doc', hdoc'⟩⟩

/-- The outlines of the two designs list the same variants and the same slots. -/
theorem outlines {origin : Origin} {doc doc' : Datum} (hdoc : ofScene s origin = .ok doc)
    (hdoc' : ofScene s' origin = .ok doc') : ∃ variants slots : List Datum,
      doc.itemsOf "variants" = .ok variants ∧ doc'.itemsOf "variants" = .ok variants ∧
      doc.itemsOf "slots" = .ok slots ∧ doc'.itemsOf "slots" = .ok slots := by
  have hread : ∀ {d : Datum} {key : String} {items : List Datum}, d.at? key = some (.list items) →
      d.itemsOf key = .ok items := by
    intro d key items hd
    refine Datum.itemsOf_list ?_
    rw [Datum.get_eq (isRecord_of_at? hd), hd]
    rfl
  obtain ⟨t, slots, ht, hd⟩ := ofScene_ok hdoc
  obtain ⟨t', slots', ht', hd'⟩ := ofScene_ok hdoc'
  obtain rfl := h.slots ht ht'
  obtain ⟨vs, hvs, hvariants⟩ := document_variants hd
  obtain ⟨vs', hvs', hvariants'⟩ := document_variants hd'
  obtain rfl : vs = vs' := by
    have hsame := hvs'.symm.trans (h.variants.2.trans (h.variants.1.symm.trans hvs))
    cases hsame
    rfl
  exact ⟨_, _, hread hvariants, hread hvariants', hread (document_ok hd).2.1,
    hread (document_ok hd').2.1⟩

end SpelledOut

end Outline

namespace Component

/-- The parts of a component's parameters that come from an outline are its variants and its slots. -/
theorem Blueprint.read_congr {outline outline' : Datum} {variants slots : List Datum}
    (hv : outline.itemsOf "variants" = .ok variants) (hv' : outline'.itemsOf "variants" = .ok variants)
    (hs : outline.itemsOf "slots" = .ok slots) (hs' : outline'.itemsOf "slots" = .ok slots)
    (interaction : Datum) : Blueprint.read outline' interaction =
      (fun b => { b with outline := outline' }) <$> Blueprint.read outline interaction := by
  unfold Blueprint.read
  rw [hv, hv', hs, hs']
  simp only [map_bind, map_pure]

/-- Reading undoes the spelling of properties: a name that spells properties tells these properties in
their order. So a set of components whose children are told by their names has exactly the variants
that the names tell, one for each child that has properties, and it has the same ones when the children
carry these properties besides. Both designs have an outline when their layers hold what layers hold,
and whenever they have one, their components have the same axes and the same parameters, whatever the
interaction is. -/
theorem spelling_undone : (∀ ps, Spellable ps → nameProperties (spelled ps) = ps) ∧
    ∀ {s s' : Scene} {root : ℕ} {children : List (Option ℕ)} {properties : ℕ → Table String String},
      SpelledOut s s' root children properties →
      Variant.ofScene s = .ok (toldVariants s children properties) ∧
      Variant.ofScene s' = .ok (toldVariants s children properties) ∧
      ∀ origin,
        (s.IsGraph → (∀ i, s.Reachable root i → IsLayer (s.dataAt i)) → IsOrigin origin →
          (∃ doc, Outline.ofScene s origin = .ok doc) ∧ ∃ doc', Outline.ofScene s' origin = .ok doc') ∧
        ∀ doc doc', Outline.ofScene s origin = .ok doc → Outline.ofScene s' origin = .ok doc' →
          ∀ interaction,
            (fun b => axes b.variants) <$> Blueprint.read doc' interaction =
              (fun b => axes b.variants) <$> Blueprint.read doc interaction ∧
            ∀ handlesKeys, (parameters · handlesKeys) <$> Blueprint.read doc' interaction =
              (parameters · handlesKeys) <$> Blueprint.read doc interaction := by
  refine ⟨fun ps h => Outline.nameProperties_spelled h, fun {s s' root children properties} h =>
    ⟨h.variants.1, h.variants.2, fun origin => ⟨fun hs hlayers ho => h.outlined hs hlayers ho, ?_⟩⟩⟩
  intro doc doc' hdoc hdoc' interaction
  obtain ⟨variants, slots, hv, hv', hs, hs'⟩ := h.outlines hdoc hdoc'
  rw [Blueprint.read_congr hv hv' hs hs']
  constructor
  · cases Blueprint.read doc interaction <;> rfl
  · intro handlesKeys
    cases Blueprint.read doc interaction <;> rfl

/-! ## A set of two sizes -/

/-- A value with an equals sign in it, and one that is empty. -/
def sizes : ℕ → Table String String
  | 0 => [("Size", "Large"), ("Note", "a=b")]
  | _ => [("Size", ""), ("Note", "plain")]

/-- The set, with or without the properties besides the names. -/
def sizeSet (carried : Bool) : Datum :=
  let child (i : ℕ) (name : String) : Datum :=
    .record ([("id", .text (toString i)), ("name", .text name)] ++
      (if carried then [("variantProperties", Variant.texts (sizes i))] else []))
  .record [("id", .text "set"), ("name", .text "Field"), ("type", .text "COMPONENT_SET"),
    ("children", .list [child 0 "Size=Large, Note=a=b", child 1 "Size=, Note=plain"])]

theorem spellable_sizes (i : ℕ) : Spellable (sizes i) := by
  have htrimmed : ∀ s ∈ ["Size", "Note", "Large", "a=b", "", "plain"], Outline.IsTrimmed s := by
    unfold Outline.IsTrimmed
    decide
  have hall : ∀ ps ∈ [sizes 0, sizes 1], Spellable ps := by
    intro ps hps
    have hkeys : ps.map Prod.fst = ["Size", "Note"] := by revert ps; decide
    have hvalues : ∀ p ∈ ps, p.2 ∈ ["Size", "Note", "Large", "a=b", "", "plain"] := by revert ps; decide
    refine ⟨by rw [hkeys]; decide, fun p hp => ?_, fun p hp => htrimmed _ (hvalues p hp)⟩
    have hkey : p.1 ∈ ["Size", "Note"] := hkeys ▸ List.mem_map_of_mem hp
    have hplain : ∀ key ∈ ["Size", "Note"], key ≠ "" ∧ '=' ∉ key.toList := by decide
    exact ⟨(hplain _ hkey).1, (hplain _ hkey).2, htrimmed _ (List.mem_append_left _ hkey)⟩
  cases i with
  | zero => exact hall _ (.head _)
  | succ i => exact hall _ (.tail _ (.head _))

theorem spelled_sizes : spelled (sizes 0) = "Size=Large, Note=a=b" ∧
    spelled (sizes 1) = "Size=, Note=plain" := by decide

theorem spelledOut_sizeSet : SpelledOut (.ofDatum (sizeSet false)) (.ofDatum (sizeSet true)) 2
    [some 0, some 1] sizes where
  begins := rfl
  begins' := rfl
  size := rfl
  branches i := match i with
    | 0 | 1 | 2 | _ + 3 => rfl
  below := rfl
  isSet := rfl
  alike i := by
    have hlookup : ∀ {key : String} {v w : Datum}, key ≠ "children" → key ≠ "variantProperties" →
        [("variantProperties", v)].lookup key = none ∧
          [("children", v)].lookup key = [("children", w)].lookup key := by
      intro key v w hc hv
      simp [List.lookup_cons, beq_false_of_ne hc, beq_false_of_ne hv]
    match i with
    | 0 | 1 =>
      refine ⟨rfl, fun key hc hv => ?_⟩
      show (_ ++ [("variantProperties", _)]).lookup key = (_ ++ []).lookup key
      rw [List.lookup_append, (hlookup (w := .null) hc hv).1, Option.or_none, List.append_nil]
    | 2 =>
      refine ⟨rfl, fun key hc hv => ?_⟩
      let front : List (String × Datum) :=
        [("id", .text "set"), ("name", .text "Field"), ("type", .text "COMPONENT_SET")]
      show (front ++ [("children", _)]).lookup key = (front ++ [("children", _)]).lookup key
      rw [List.lookup_append, List.lookup_append, (hlookup hc hv).2]
    | _ + 3 => exact ⟨rfl, fun _ _ _ => rfl⟩
  given i hi := by
    rcases (by simpa using hi : i = 0 ∨ i = 1) with rfl | rfl
    · exact ⟨spellable_sizes 0, by rw [spelled_sizes.1]; rfl, rfl, rfl⟩
    · exact ⟨spellable_sizes 1, by rw [spelled_sizes.2]; rfl, rfl, rfl⟩

theorem isLayer_sizeSet (i : ℕ) (hi : i < (Scene.ofDatum (sizeSet false)).nodes.size) :
    IsLayer ((Scene.ofDatum (sizeSet false)).dataAt i) := by
  match i, hi with
  | 0, _ | 1, _ =>
    refine Outline.isLayer_of_words fun row hrow => .inr ?_
    rcases (by simpa using hrow : row = _ ∨ row = _) with rfl | rfl <;> exact ⟨by decide, rfl⟩
  | 2, _ =>
    refine Outline.isLayer_of_words fun row hrow => ?_
    rcases (by simpa using hrow : row = _ ∨ row = _ ∨ row = _ ∨ row = _) with rfl | rfl | rfl | rfl
    · exact .inr ⟨by decide, rfl⟩
    · exact .inr ⟨by decide, rfl⟩
    · exact .inr ⟨by decide, rfl⟩
    · exact .inl rfl

/-- The two sizes are told by the names, with the equals sign in one value and the other value empty,
and both designs of the set have an outline and the same parameters. -/
theorem spelling_undone_sizes :
    (Spellable (sizes 0) ∧ nameProperties "Size=Large, Note=a=b" = [("Size", "Large"), ("Note", "a=b")]) ∧
    SpelledOut (.ofDatum (sizeSet false)) (.ofDatum (sizeSet true)) 2 [some 0, some 1] sizes ∧
    (let variants : List Variant :=
      [⟨.text "Size=Large, Note=a=b", [("Size", "Large"), ("Note", "a=b")], .text "0"⟩,
       ⟨.text "Size=, Note=plain", [("Size", ""), ("Note", "plain")], .text "1"⟩];
    Variant.ofScene (.ofDatum (sizeSet false)) = .ok variants ∧
      Variant.ofScene (.ofDatum (sizeSet true)) = .ok variants) ∧
    ∃ doc doc', Outline.ofDatum (sizeSet false) ⟨.text "", .text "", .null⟩ = .ok doc ∧
      Outline.ofDatum (sizeSet true) ⟨.text "", .text "", .null⟩ = .ok doc' ∧
      ∀ interaction handlesKeys, (parameters · handlesKeys) <$> Blueprint.read doc' interaction =
        (parameters · handlesKeys) <$> Blueprint.read doc interaction := by
  obtain ⟨hread, hsets⟩ := spelling_undone
  obtain ⟨hv, hv', hmade⟩ := hsets spelledOut_sizeSet
  have hs : (Scene.ofDatum (sizeSet false)).IsGraph := Scene.isGraph_ofDatum rfl
  obtain ⟨hdocs, hsame⟩ := hmade ⟨.text "", .text "", .null⟩
  obtain ⟨⟨doc, hdoc⟩, ⟨doc', hdoc'⟩⟩ := hdocs hs
    (fun i hi => isLayer_sizeSet i (hs.reachable_lt (by decide) hi)) ⟨rfl, rfl, .inl rfl⟩
  have hread := hread _ (spellable_sizes 0)
  have htold : toldVariants (.ofDatum (sizeSet false)) [some 0, some 1] sizes =
      [⟨.text "Size=Large, Note=a=b", [("Size", "Large"), ("Note", "a=b")], .text "0"⟩,
       ⟨.text "Size=, Note=plain", [("Size", ""), ("Note", "plain")], .text "1"⟩] := by
    show [(⟨.text (spelled (sizes 0)), sizes 0, .text "0"⟩ : Variant),
      ⟨.text (spelled (sizes 1)), sizes 1, .text "1"⟩] = _
    rw [spelled_sizes.1, spelled_sizes.2]
    rfl
  rw [htold] at hv hv'
  rw [spelled_sizes.1] at hread
  exact ⟨⟨spellable_sizes 0, hread⟩, spelledOut_sizeSet, ⟨hv, hv'⟩, doc, doc', hdoc, hdoc',
    fun interaction => (hsame doc doc' hdoc hdoc' interaction).2⟩

end Component

end Maquette
