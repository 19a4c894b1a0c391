/-
The rule of the outermost node. Its declarations come from six sources, and only shadows are put together
afterwards. So the shadows of the stroke and of all effects stand in one declaration, and every property is
declared at most once, but for the filter: a blend mode without a counterpart brings one, and layer blurs
bring another. The filter of the blend mode is then declared in vain.
-/
import Maquette.Proofs.Component.Styles
import Maquette.Proofs.Paint.Stacked

namespace Maquette

/-- The items of a field of a node, none if it has no such field. -/
def Datum.itemsAt (node : Datum) (key : String) : List Datum := (node.itemsOf key).toOption.getD []

theorem Datum.itemsAt_eq {node v : Datum} {key : String} {items : List Datum} (hv : node.get key = .ok v)
    (hitems : (v.orElse (.list [])).items = .ok items) : node.itemsAt key = items := by
  rw [itemsAt, itemsOf, hv, Outcome.ok_bind, hitems]
  rfl

/-- What a node says its kind is. -/
def Datum.kind (d : Datum) : Datum := (d.at? "type").getD .null

namespace Paint

/-! ## Effects -/

/-- Whether an effect is not switched off. -/
def isVisible (effect : Datum) : Bool := ((effect.at? "visible").getD (.bool true)).isTruthy

/-- Whether an effect is a shadow that shows. -/
def isShadow (effect : Datum) : Bool :=
  isVisible effect && effect.kind.isOneOf ["drop-shadow", "inner-shadow"]

/-- Whether an effect is a blur of the layer that shows. -/
def isLayerBlur (effect : Datum) : Bool := isVisible effect && effect.kind.isThe "layer-blur"

/-- The shadow of an effect, within the layer or behind it. -/
def effectShadow (effect : Datum) : Outcome String := shadow effect (effect.kind.isThe "inner-shadow")

section Effects

variable {d effect : Datum} {items : List Datum} {es es' : Effects}

/-- One more item of a list of which some are computed. -/
theorem mapM_filter_cons {p : Datum → Bool} {f : Datum → Outcome String} {ss : List String}
    (h : (items.filter p).mapM f = .ok ss) {now : List String}
    (hnow : (p effect = true ∧ ∃ s, f effect = .ok s ∧ now = [s]) ∨ (p effect = false ∧ now = [])) :
    ((effect :: items).filter p).mapM f = .ok (now ++ ss) := by
  rcases hnow with ⟨hp, s, hs, rfl⟩ | ⟨hp, rfl⟩
  · rw [List.filter_cons_of_pos hp, List.mapM_cons, hs, h]
    rfl
  · rw [List.filter_cons_of_neg (Bool.eq_false_iff.1 hp), h]
    rfl

/-- One more effect brings a shadow or a blur of its own, or nothing. -/
theorem Effects.add_ok (h : es.add effect = .ok es') : ∃ shadows filters backdrops,
    es' = ⟨es.shadows ++ shadows, es.filters ++ filters, es.backdrops ++ backdrops⟩ ∧
    ((isShadow effect = true ∧ ∃ s, effectShadow effect = .ok s ∧ shadows = [s]) ∨
      (isShadow effect = false ∧ shadows = [])) ∧
    ((isLayerBlur effect = true ∧ ∃ s, blur effect = .ok s ∧ filters = [s]) ∨
      (isLayerBlur effect = false ∧ filters = [])) := by
  obtain ⟨visible, hvisible, h⟩ := Outcome.bind_ok h
  have hvisible : isVisible effect = visible.isTruthy := by rw [isVisible, Datum.fieldOr_ok hvisible]
  split at h
  · rename_i hoff
    cases h
    have hoff : isVisible effect = false := by simpa [hvisible] using hoff
    exact ⟨[], [], [], by simp, .inr ⟨by simp [isShadow, hoff], rfl⟩, .inr ⟨by simp [isLayerBlur, hoff], rfl⟩⟩
  rename_i hon
  have hon : isVisible effect = true := by simpa [hvisible] using hon
  obtain ⟨kind, hkind, h⟩ := Outcome.bind_ok h
  obtain ⟨-, rfl⟩ := Datum.get_ok hkind
  have hshadow : isShadow effect = effect.kind.isOneOf ["drop-shadow", "inner-shadow"] := by
    rw [isShadow, hon, Bool.true_and]
  have hblur : isLayerBlur effect = effect.kind.isThe "layer-blur" := by
    rw [isLayerBlur, hon, Bool.true_and]
  rw [hshadow, hblur]
  have hapart : effect.kind.isOneOf ["drop-shadow", "inner-shadow"] = true →
      effect.kind.isThe "layer-blur" = false := by
    simp only [Datum.isOneOf, List.any_cons, List.any_nil, Bool.or_false, Bool.or_eq_true, Datum.isThe_iff]
    rintro (hkind | hkind) <;> rw [hkind] <;> decide
  split at h
  · rename_i hkind
    obtain ⟨s, hs, h⟩ := Outcome.bind_ok h
    cases h
    exact ⟨[s], [], [], by simp, .inl ⟨hkind, s, hs, rfl⟩, .inr ⟨hapart hkind, rfl⟩⟩
  rename_i hother
  have hother := Bool.eq_false_iff.2 hother
  split at h
  · rename_i hkind
    obtain ⟨s, hs, h⟩ := Outcome.bind_ok h
    cases h
    exact ⟨[], [s], [], by simp, .inr ⟨hother, rfl⟩, .inl ⟨hkind, s, hs, rfl⟩⟩
  rename_i hlayer
  have hlayer := Bool.eq_false_iff.2 hlayer
  split at h
  · obtain ⟨s, -, h⟩ := Outcome.bind_ok h
    cases h
    exact ⟨[], [], [s], by simp, .inr ⟨hother, rfl⟩, .inr ⟨hlayer, rfl⟩⟩
  · cases h
    exact ⟨[], [], [], by simp, .inr ⟨hother, rfl⟩, .inr ⟨hlayer, rfl⟩⟩

/-- The shadows and the blurs of effects are collected in their order. -/
theorem Effects.foldlM_add (h : items.foldlM Effects.add es = .ok es') : ∃ shadows filters backdrops,
    es' = ⟨es.shadows ++ shadows, es.filters ++ filters, es.backdrops ++ backdrops⟩ ∧
    (items.filter isShadow).mapM effectShadow = .ok shadows ∧
    (items.filter isLayerBlur).mapM blur = .ok filters := by
  induction items generalizing es with
  | nil =>
    cases h
    exact ⟨[], [], [], by simp, rfl, rfl⟩
  | cons effect items ih =>
    rw [List.foldlM_cons] at h
    obtain ⟨mid, hmid, h⟩ := Outcome.bind_ok h
    obtain ⟨shadow, filter, backdrop, rfl, hshadow, hfilter⟩ := Effects.add_ok hmid
    obtain ⟨shadows, filters, backdrops, rfl, hshadows, hfilters⟩ := ih h
    exact ⟨shadow ++ shadows, filter ++ filters, backdrop ++ backdrops, by simp,
      mapM_filter_cons hshadows hshadow, mapM_filter_cons hfilters hfilter⟩

/-- The declarations of effects: one of all shadows, one of all blurs of the layer, and one of what is
behind it. -/
theorem effects_ok {ds : List Css.Declaration} (hitems : (d.orElse (.list [])).items = .ok items)
    (h : effects d = .ok ds) : ∃ shadows filters backdrops,
      (items.filter isShadow).mapM effectShadow = .ok shadows ∧
      (items.filter isLayerBlur).mapM blur = .ok filters ∧
      ds = joined "box-shadow" ", " shadows ++ joined "filter" " " filters ++
        joined "backdrop-filter" " " backdrops := by
  unfold effects at h
  rw [hitems, Outcome.ok_bind] at h
  obtain ⟨es, hes, h⟩ := Outcome.bind_ok h
  obtain ⟨shadows, filters, backdrops, rfl, hshadows, hfilters⟩ := Effects.foldlM_add hes
  cases h
  exact ⟨shadows, filters, backdrops, hshadows, hfilters, rfl⟩

end Effects

/-! ## Strokes -/

/-- The stroke that is drawn as a shadow, if there is one: the first one with a color, when it does not lie
outside of its layer and strokes are not drawn as outlines. -/
def shadowStroke? (strokes : List Datum) (style : StrokeStyle) : Option Datum :=
  (strokes.find? (·.kind.isThe "solid")).filter fun stroke =>
    !((stroke.at? "position").getD .null).isThe "outside" && style = .shadow

/-- A stroke as a shadow within its layer that is not blurred. -/
def strokeShadow (stroke : Datum) : Outcome String := do
  let color ← Color.rgba ((← stroke.get "color").orElse .empty) (.int 1)
  let width ← (← stroke.fieldOr "width" (.int 1)).pixels
  return s!"inset 0 0 0 {width} {color}"

/-- Strokes are declared as a shadow when they are drawn as one, else as an outline if at all. -/
theorem strokes_ok {d : Datum} {items : List Datum} {style : StrokeStyle} {ds : List Css.Declaration}
    (hitems : (d.orElse (.list [])).items = .ok items) (h : strokes d style = .ok ds) :
    (∃ stroke s, shadowStroke? items style = some stroke ∧ strokeShadow stroke = .ok s ∧
      ds = [("box-shadow", s)]) ∨
    (shadowStroke? items style = none ∧ (ds.map (·.1)).Sublist ["outline", "outline-offset"]) := by
  unfold strokes at h
  rw [hitems, Outcome.ok_bind] at h
  obtain ⟨solid, hsolid, h⟩ := Outcome.bind_ok h
  have hsolid : solid = items.filter (·.kind.isThe "solid") := by
    refine Outcome.filterM_eq hsolid fun stroke b hb => ?_
    obtain ⟨kind, hkind, hb⟩ := Outcome.bind_ok hb
    obtain ⟨-, rfl⟩ := Datum.get_ok hkind
    cases hb
    rfl
  have hfirst : items.find? (·.kind.isThe "solid") = solid.head? := by rw [hsolid, List.head?_filter]
  split at h
  · cases h
    rw [shadowStroke?, hfirst]
    exact .inr ⟨rfl, List.nil_sublist _⟩
  · rename_i stroke rest _
    rw [List.head?_cons] at hfirst
    obtain ⟨own, hown, h⟩ := Outcome.bind_ok h
    obtain ⟨color, hcolor, h⟩ := Outcome.bind_ok h
    obtain ⟨wide, hwide, h⟩ := Outcome.bind_ok h
    obtain ⟨width, hwidth, h⟩ := Outcome.bind_ok h
    obtain ⟨position, hposition, h⟩ := Outcome.bind_ok h
    obtain ⟨-, rfl⟩ := Datum.get_ok hposition
    split at h
    · rename_i houtlined
      cases h
      refine .inr ⟨?_, List.Sublist.refl _⟩
      rw [shadowStroke?, hfirst, Option.filter_some, if_neg]
      cases style <;> simp_all
    · rename_i hshadow
      cases h
      refine .inl ⟨stroke, "inset 0 0 0 " ++ width ++ " " ++ color, ?_, ?_, rfl⟩
      · rw [shadowStroke?, hfirst, Option.filter_some, if_pos]
        cases style <;> simp_all
      · rw [strokeShadow, hown, Outcome.ok_bind, hcolor, Outcome.ok_bind, hwide, Outcome.ok_bind, hwidth]
        rfl

/-! ## Blend modes -/

/-- The filter that a blend mode without a counterpart is approximated by. -/
def modeFilter? (mode : Datum) : Option String :=
  match mode with
  | .text s => (filteredModes.lookup s).map (·.2)
  | _ => none

theorem modeFilter?_text (s : String) : modeFilter? (.text s) = (filteredModes.lookup s).map (·.2) := rfl

/-- A blend mode is declared as a mode, and as a filter when it has no counterpart. -/
theorem blendNamed_parts (mode : String) :
    ((blendNamed mode).map (·.1)).Sublist ["mix-blend-mode", "filter"] ∧
      (blendNamed mode).filter (·.1 == "filter") =
        (modeFilter? (.text mode)).toList.map fun s => ("filter", s) := by
  have hunfiltered : ∀ row ∈ blendModes, filteredModes.lookup row.1 = none := by decide
  have hplain : ∀ name ∈ plainModes, filteredModes.lookup name = none := by decide
  rw [modeFilter?_text]
  unfold blendNamed
  split
  · rename_i hmode
    rw [hplain mode (List.contains_iff_mem.1 hmode)]
    exact ⟨List.nil_sublist _, rfl⟩
  split
  · rename_i name hname
    obtain ⟨key, hkey, hrow⟩ := Table.mem_of_lookup hname
    obtain rfl := LawfulBEq.eq_of_beq hkey
    rw [hunfiltered _ hrow]
    exact ⟨List.sublist_append_left _ _, rfl⟩
  split
  · rename_i name filter hfilter
    rw [hfilter]
    exact ⟨List.Sublist.refl _, rfl⟩
  · rename_i hnone
    rw [hnone]
    exact ⟨List.nil_sublist _, rfl⟩

theorem blend_parts {mode : Datum} {ds : List Css.Declaration} (h : blend mode = .ok ds) :
    (ds.map (·.1)).Sublist ["mix-blend-mode", "filter"] ∧
      ds.filter (·.1 == "filter") = (modeFilter? mode).toList.map fun s => ("filter", s) := by
  unfold blend at h
  split at h
  · rename_i hmode
    cases h
    refine ⟨List.nil_sublist _, ?_⟩
    cases mode with
    | text s =>
      -- the text is empty
      have hempty : s = "" := by simpa [Datum.isTruthy] using hmode
      subst hempty
      rfl
    | _ => rfl
  · obtain ⟨key, hkey, h⟩ := Outcome.bind_ok h
    rw [Datum.asKey_ok hkey] at h
    split at h
    · cases h
      exact blendNamed_parts _
    · rename_i hother
      cases h
      refine ⟨List.nil_sublist _, ?_⟩
      cases mode with
      | text s => exact absurd rfl (hother s)
      | _ => rfl

/-! ## Fills and corners -/

theorem fills_names {d box : Datum} {ds : List Css.Declaration} (h : fills d box = .ok ds) :
    (ds.map (·.1)).Sublist ["background-color", "background"] := by
  rcases fills_shape h with rfl | ⟨property, hproperty, value, rfl⟩
  · exact List.nil_sublist _
  · exact List.singleton_sublist.2 hproperty

theorem corners_names {node : Datum} {ds : List Css.Declaration} (h : corners node = .ok ds) :
    (ds.map (·.1)).Sublist ["border-radius"] := by
  have hone : ∀ {radii : Datum} {ds}, (do
      let own ← node.get "cornerRadius"
      let radius ← if own.isNull && radii.isTruthy then radii.nth 0 else pure own
      if radius.isTruthy then return [("border-radius", ← radius.pixels)]
      return []) = Except.ok ds → (ds.map (·.1)).Sublist ["border-radius"] := by
    intro radii ds h
    obtain ⟨own, -, h⟩ := Outcome.bind_ok h
    obtain ⟨radius, -, h⟩ := Outcome.ite_bind_ok h
    dsimp only at h
    split at h
    · obtain ⟨value, -, h⟩ := Outcome.bind_ok h
      cases h
      exact List.Sublist.refl _
    · cases h
      exact List.nil_sublist _
  unfold corners at h
  obtain ⟨radii, -, h⟩ := Outcome.bind_ok h
  split at h
  · obtain ⟨items, -, h⟩ := Outcome.bind_ok h
    obtain ⟨each, -, h⟩ := Outcome.bind_ok h
    split at h
    · obtain ⟨values, -, h⟩ := Outcome.bind_ok h
      cases h
      exact List.Sublist.refl _
    · exact hone h
  · exact hone h

end Paint

namespace Stylesheet

open Paint (StrokeStyle joined)

/-! ## Layouts -/

theorem layout_names {d : Datum} {ps : List Property} (h : layout d = .ok ps) :
    (ps.map (·.1)).Sublist ["display", "flex-direction", "justify-content", "align-items", "gap", "padding",
      "flex-wrap"] := by
  unfold layout at h
  split at h
  · cases h
    exact List.nil_sublist _
  have hdirect : ∀ {property key default : String} {row : Property},
      (do return (property, ← d.fieldOr key (.text default)) : Outcome Property) = .ok row →
      row.1 = property := by
    intro property key default row hrow
    obtain ⟨v, -, hrow⟩ := Outcome.bind_ok hrow
    cases hrow
    rfl
  obtain ⟨display, hdisplay, h⟩ := Outcome.bind_ok h
  obtain ⟨direction, hdirection, h⟩ := Outcome.bind_ok h
  obtain ⟨justify, hjustify, h⟩ := Outcome.bind_ok h
  obtain ⟨align, halign, h⟩ := Outcome.bind_ok h
  obtain ⟨gap, -, h⟩ := Outcome.bind_ok h
  obtain ⟨spaced, hspaced, h⟩ := Outcome.ite_pure_bind_ok h
  obtain ⟨padding, -, h⟩ := Outcome.bind_ok h
  obtain ⟨sides, -, h⟩ := Outcome.bind_ok h
  obtain ⟨padded, hpadded, h⟩ := Outcome.ite_pure_bind_ok h
  obtain ⟨wrap, -, h⟩ := Outcome.bind_ok h
  cases h
  have hspaced : (spaced.map (·.1)).Sublist ["gap"] := by
    rcases hspaced with ⟨value, -, rfl⟩ | rfl
    · exact List.Sublist.refl _
    · exact List.nil_sublist _
  have hpadded : (padded.map (·.1)).Sublist ["padding"] := by
    rcases hpadded with ⟨values, -, rfl⟩ | rfl
    · exact List.Sublist.refl _
    · exact List.nil_sublist _
  have hwrapped : ((if wrap.isTruthy then [("flex-wrap", wrap)] else [] : List Property).map (·.1)).Sublist
      ["flex-wrap"] := by
    split
    · exact List.Sublist.refl _
    · exact List.nil_sublist _
  rw [List.map_append, List.map_append, List.map_append, List.map_cons, List.map_cons, List.map_cons,
    List.map_cons, hdirect hdisplay, hdirect hdirection, hdirect hjustify, hdirect halign]
  exact (((List.Sublist.refl _).append hspaced).append hpadded).append hwrapped

/-! ## Shadows put together -/

section Merged

variable {ps : List Property}

/-- Without shadows nothing is put together; else what stands before the first shadow stays as it is. -/
theorem mergeShadows_cases (ps : List Property) :
    ((∀ d ∈ ps, (d.1 == "box-shadow") = false) ∧ mergeShadows ps = ps) ∨
    ∃ before first after, ps = before ++ first :: after ∧ first.1 = "box-shadow" ∧
      (∀ d ∈ before, (d.1 == "box-shadow") = false) ∧
      mergeShadows ps = before ++ [("box-shadow", .text
        (", ".intercalate ((ps.filter (·.1 == "box-shadow")).map (·.2.shown))))] ++
        after.filter (·.1 != "box-shadow") := by
  have hsplit : ps = ps.takeWhile (·.1 != "box-shadow") ++ ps.dropWhile (·.1 != "box-shadow") :=
    List.takeWhile_append_dropWhile.symm
  have hbefore : ∀ d ∈ ps.takeWhile (·.1 != "box-shadow"), (d.1 == "box-shadow") = false := by
    intro d hd
    simpa using List.mem_takeWhile_imp hd
  unfold mergeShadows
  dsimp only
  rw [List.span_eq_takeWhile_dropWhile]
  cases hrest : ps.dropWhile (·.1 != "box-shadow") with
  | nil =>
    rw [hrest, List.append_nil] at hsplit
    rw [← hsplit] at hbefore ⊢
    exact .inl ⟨hbefore, rfl⟩
  | cons first after =>
    have hfirst := List.head?_dropWhile_not (·.1 != "box-shadow") ps
    rw [hrest] at hfirst hsplit
    exact .inr ⟨_, first, after, hsplit, by simpa using hfirst, hbefore, rfl⟩

/-- Putting the shadows together leaves all other declarations as they are. -/
theorem mergeShadows_others {p : Property → Bool} (hp : ∀ v, p ("box-shadow", v) = false)
    (ps : List Property) : (mergeShadows ps).filter p = ps.filter p := by
  obtain ⟨-, h⟩ | ⟨before, ⟨_, v⟩, after, heq, rfl, -, h⟩ := mergeShadows_cases ps
  · rw [h]
  · have hafter : (after.filter (·.1 != "box-shadow")).filter p = after.filter p := by
      rw [List.filter_filter]
      refine List.filter_congr fun d _ => ?_
      obtain ⟨k, w⟩ := d
      by_cases hk : k = "box-shadow"
      · subst hk
        simp [hp]
      · simp [hk]
    have hps : ps.filter p = before.filter p ++ after.filter p := by
      rw [heq, List.filter_append, List.filter_cons_of_neg (Bool.eq_false_iff.1 (hp v))]
    rw [h, List.filter_append, List.filter_append, hafter, hps,
      List.filter_cons_of_neg (Bool.eq_false_iff.1 (hp _)), List.filter_nil, List.append_nil]

/-- All shadows are in one declaration, if there are any. -/
theorem mergeShadows_shadows (ps : List Property) :
    (mergeShadows ps).filter (·.1 == "box-shadow") =
      written (joined "box-shadow" ", " ((ps.filter (·.1 == "box-shadow")).map (·.2.shown))) := by
  obtain ⟨hnone, h⟩ | ⟨before, ⟨_, v⟩, after, heq, rfl, hbefore, h⟩ := mergeShadows_cases ps
  · rw [h, List.filter_eq_nil_iff.2 fun d hd => by simp [hnone d hd]]
    rfl
  · have hhead : before.filter (·.1 == "box-shadow") = [] :=
      List.filter_eq_nil_iff.2 fun d hd => by simp [hbefore d hd]
    have htail : (after.filter (·.1 != "box-shadow")).filter (·.1 == "box-shadow") = [] :=
      List.filter_eq_nil_iff.2 fun d hd => by simpa using (List.mem_filter.1 hd).2
    have hsome : ((ps.filter (·.1 == "box-shadow")).map (·.2.shown)).isEmpty = false := by
      simp [heq]
    rw [h, List.filter_append, List.filter_append, hhead, htail, joined, hsome]
    rfl

end Merged

/-! ## The whole rule -/

/-- What casts a shadow on the outermost node or within it. -/
inductive Caster where
  | stroke (stroke : Datum)
  | effect (effect : Datum)

def Caster.shadow : Caster → Outcome String
  | .stroke s => Paint.strokeShadow s
  | .effect e => Paint.effectShadow e

/-- All that casts a shadow: the stroke, when it is drawn as one, and the effects in their order. -/
def casters (root : Datum) (style : StrokeStyle) : List Caster :=
  (Paint.shadowStroke? (root.itemsAt "strokes") style).toList.map .stroke ++
    ((root.itemsAt "effects").filter Paint.isShadow).map .effect

/-- The declarations of one property. -/
def declarationsOf (property : String) (ps : List Property) : List Property := ps.filter (·.1 == property)

/-- The properties of the outermost node in the order in which they are declared, before the shadows are put
together. -/
def propertyOrder : List String :=
  ["isolation", "background-color", "background", "mix-blend-mode", "filter", "border-radius", "display",
   "flex-direction", "justify-content", "align-items", "gap", "padding", "flex-wrap", "outline",
   "outline-offset", "box-shadow", "box-shadow", "filter", "backdrop-filter"]

section Root

variable {root : Datum} {tokens : Component.TokenTable} {style : StrokeStyle} {ps : List Property}

theorem names_written (ds : List Css.Declaration) : (written ds).map (·.1) = ds.map (·.1) := by
  rw [written, List.map_map]
  rfl

theorem background_names (h : background tokens root = .ok ps) :
    (ps.map (·.1)).Sublist ["background-color", "background"] := by
  obtain ⟨token, -, h⟩ := Outcome.bind_ok h
  split at h
  · cases h
    exact List.sublist_append_right ["background-color"] _
  · obtain ⟨fills, -, h⟩ := Outcome.bind_ok h
    obtain ⟨box, -, h⟩ := Outcome.bind_ok h
    obtain ⟨ds, hds, h⟩ := Outcome.bind_ok h
    cases h
    rw [names_written]
    exact Paint.fills_names hds

theorem corners_names (h : corners tokens root = .ok ps) : (ps.map (·.1)).Sublist ["border-radius"] := by
  obtain ⟨all, -, h⟩ := Outcome.bind_ok h
  cases all with
  | some token =>
    cases h
    exact List.Sublist.refl _
  | none =>
    obtain ⟨token, -, h⟩ := Outcome.bind_ok h
    cases token with
    | some token =>
      cases h
      exact List.Sublist.refl _
    | none =>
      obtain ⟨ds, hds, h⟩ := Outcome.bind_ok h
      cases h
      rw [names_written]
      exact Paint.corners_names hds

theorem shown_written (ds : List Css.Declaration) : (written ds).map (·.2.shown) = ds.map (·.2) := by
  rw [written, List.map_map]
  rfl

/-- A property is not declared by what declares others only. -/
theorem filter_absent {α : Type} {ds : List (String × α)} {property : String} {order : List String}
    (hs : (ds.map (·.1)).Sublist order) (hp : property ∉ order) : ds.filter (·.1 == property) = [] := by
  refine List.filter_eq_nil_iff.2 fun d hd hname => hp ?_
  rw [← beq_iff_eq.1 hname]
  exact hs.subset (List.mem_map_of_mem hd)

theorem filter_written (property : String) (ds : List Css.Declaration) :
    (written ds).filter (·.1 == property) = written (ds.filter (·.1 == property)) := by
  rw [written, List.filter_map]
  rfl

theorem filter_joined_self (property sep : String) (values : List String) :
    (joined property sep values).filter (·.1 == property) = joined property sep values := by
  unfold joined
  split
  · rfl
  · rw [List.filter_cons_of_pos (by simp), List.filter_nil]

theorem joined_names (property sep : String) (values : List String) :
    ((joined property sep values).map (·.1)).Sublist [property] := by
  unfold joined
  split
  · exact List.nil_sublist _
  · exact List.Sublist.refl _

/-- Values that are joined, after one more value of the same property. -/
theorem joined_values (property sep : String) {before values : List String} (h : before.length ≤ 1) :
    joined property sep (before ++ (joined property sep values).map (·.2)) =
      joined property sep (before ++ values) := by
  cases values with
  | nil => rfl
  | cons first rest =>
    match before, h with
    | [], _ => rw [joined, joined, joined]; rfl
    | [value], _ =>
      have hone : sep.intercalate ([value] ++ [sep.intercalate (first :: rest)]) =
          sep.intercalate (value :: first :: rest) := by
        rw [List.singleton_append, String.intercalate_cons_cons, String.intercalate_singleton,
          String.intercalate_cons_cons]
      show [(property, sep.intercalate ([value] ++ [sep.intercalate (first :: rest)]))] = _
      rw [hone]
      rfl

/-- A stroke casts one shadow at most, which is then all that it declares, and it declares no filter. -/
theorem stroke_parts {d : Datum} {items : List Datum} {ds : List Css.Declaration}
    (hitems : (d.orElse (.list [])).items = .ok items) (h : Paint.strokes d style = .ok ds) :
    ∃ stroke : List String, stroke.length ≤ 1 ∧
      ((Paint.shadowStroke? items style).toList.map Caster.stroke).mapM Caster.shadow = .ok stroke ∧
      (ds.map (·.1)).Sublist ["outline", "outline-offset", "box-shadow"] ∧
      ds.filter (·.1 == "box-shadow") = stroke.map (fun s => ("box-shadow", s)) ∧
      ds.filter (·.1 == "filter") = [] := by
  obtain ⟨stroke, s, hstroke, hs, rfl⟩ | ⟨hnone, hnames⟩ := Paint.strokes_ok hitems h
  · refine ⟨[s], Nat.le_refl 1, ?_, List.sublist_append_right ["outline", "outline-offset"] _, rfl, rfl⟩
    rw [hstroke, Option.toList_some, List.map_singleton, List.mapM_cons, Caster.shadow, hs]
    rfl
  · refine ⟨[], Nat.zero_le 1, ?_, hnames.trans (List.sublist_append_left _ _), filter_absent hnames (by decide),
      filter_absent hnames (by decide)⟩
    rw [hnone]
    rfl

/-- The declarations of the outermost node before the shadows are put together: the properties stand in
their order, the filters are those of the blend mode and of the blurs, and the shadows those of the stroke
and of the effects. -/
theorem rootProperties_parts (h : rootProperties root tokens style = .ok ps) :
    ∃ all mode stroke shadows filters, ps = mergeShadows all ∧ (all.map (·.1)).Sublist propertyOrder ∧
      root.get "blendMode" = .ok mode ∧
      (casters root style).mapM Caster.shadow = .ok (stroke ++ shadows) ∧ stroke.length ≤ 1 ∧
      ((root.itemsAt "effects").filter Paint.isLayerBlur).mapM Paint.blur = .ok filters ∧
      declarationsOf "box-shadow" all =
        written (stroke.map (fun s => ("box-shadow", s)) ++ joined "box-shadow" ", " shadows) ∧
      declarationsOf "filter" all =
        written ((Paint.modeFilter? mode).toList.map (fun s => ("filter", s)) ++ joined "filter" " " filters) := by
  obtain ⟨mode, hmode, h⟩ := Outcome.bind_ok h
  obtain ⟨isolated, -, h⟩ := Outcome.bind_ok h
  obtain ⟨back, hback, h⟩ := Outcome.bind_ok h
  obtain ⟨blend, hblend, h⟩ := Outcome.bind_ok h
  obtain ⟨rounded, hrounded, h⟩ := Outcome.bind_ok h
  obtain ⟨given, -, h⟩ := Outcome.bind_ok h
  obtain ⟨arranged, harranged, h⟩ := Outcome.bind_ok h
  obtain ⟨paints, hpaints, h⟩ := Outcome.bind_ok h
  obtain ⟨stroked, hstroked, h⟩ := Outcome.bind_ok h
  obtain ⟨items, hitems, h⟩ := Outcome.bind_ok h
  obtain ⟨effected, heffected, h⟩ := Outcome.bind_ok h
  cases h
  obtain ⟨drawn, hdrawn, -⟩ := Outcome.bind_ok hstroked
  obtain ⟨shown, hshown, -⟩ := Outcome.bind_ok heffected
  obtain ⟨shadows, filters, backdrops, hshadows, hfilters, rfl⟩ := Paint.effects_ok hshown heffected
  have hisolation : (List.map (·.1) (if isolated then written [("isolation", "isolate")] else [])).Sublist
      ["isolation"] := by
    split
    · exact List.Sublist.refl _
    · exact List.nil_sublist _
  have hback := background_names hback
  obtain ⟨hblend, hmodeFilter⟩ := Paint.blend_parts hblend
  have hrounded := corners_names hrounded
  have harranged := layout_names harranged
  obtain ⟨stroke, hstroke, hcast, hstroked, hstrokeShadow, hstrokeFilter⟩ := stroke_parts hdrawn hstroked
  refine ⟨_, mode, stroke, shadows, filters, rfl, ?_, hmode, ?_, hstroke, ?_, ?_, ?_⟩
  · simp only [List.map_append, names_written]
    exact ((((hisolation.append hback).append hblend).append hrounded).append harranged).append
      (hstroked.append (((joined_names ..).append (joined_names ..)).append (joined_names ..)))
  · rw [casters, Datum.itemsAt_eq hpaints hdrawn, Datum.itemsAt_eq hitems hshown, List.mapM_append, hcast,
      Outcome.ok_bind, List.mapM_map]
    show (List.mapM Paint.effectShadow _ >>= _) = _
    rw [hshadows]
    rfl
  · rw [Datum.itemsAt_eq hitems hshown, hfilters]
  · simp only [declarationsOf, List.filter_append, filter_written, hstrokeShadow, filter_joined_self]
    rw [filter_absent hisolation (by decide), filter_absent hback (by decide), filter_absent hblend (by decide),
      filter_absent hrounded (by decide), filter_absent harranged (by decide),
      filter_absent (joined_names "filter" _ _) (by decide),
      filter_absent (joined_names "backdrop-filter" _ _) (by decide)]
    simp [written]
  · simp only [declarationsOf, List.filter_append, filter_written, hstrokeFilter, hmodeFilter, filter_joined_self]
    rw [filter_absent hisolation (by decide), filter_absent hback (by decide),
      filter_absent hrounded (by decide), filter_absent harranged (by decide),
      filter_absent (joined_names "box-shadow" _ _) (by decide),
      filter_absent (joined_names "backdrop-filter" _ _) (by decide)]
    simp [written]

/-- The shadow of the stroke and those of the effects are put together in one declaration. -/
theorem mergeShadows_joined {stroke shadows : List String} (hstroke : stroke.length ≤ 1)
    (h : declarationsOf "box-shadow" ps =
      written (stroke.map (fun s => ("box-shadow", s)) ++ joined "box-shadow" ", " shadows)) :
    declarationsOf "box-shadow" (mergeShadows ps) = written (joined "box-shadow" ", " (stroke ++ shadows)) := by
  rw [declarationsOf] at h ⊢
  rw [mergeShadows_shadows, h, shown_written, List.map_append, List.map_map,
    ← joined_values "box-shadow" ", " hstroke]
  simp [Function.comp_def]

/-- Each property but shadows and filters has one place in the order. -/
theorem count_propertyOrder {property : String} (hshadow : property ≠ "box-shadow")
    (hfilter : property ≠ "filter") : propertyOrder.count property ≤ 1 := by
  by_cases hmem : property ∈ propertyOrder
  · have hall : ∀ p ∈ propertyOrder, p = "box-shadow" ∨ p = "filter" ∨ propertyOrder.count p ≤ 1 := by decide
    exact ((hall property hmem).resolve_left hshadow).resolve_left hfilter
  · rw [List.count_eq_zero_of_not_mem hmem]
    exact Nat.zero_le 1

theorem count_names (property : String) (ps : List Property) :
    (ps.map (·.1)).count property = (declarationsOf property ps).length := by
  rw [List.count, List.countP_map, List.countP_eq_length_filter]
  rfl

theorem length_joined (property sep : String) (values : List String) :
    (joined property sep values).length = if values = [] then 0 else 1 := by
  cases values <;> rfl

/-- The outermost node declares every property at most once if and only if its blend mode has a counterpart
or its layer is not blurred: a mode without a counterpart and a blur each declare a filter. Every other
property is declared at most once, and the one declaration of shadows lists that of the stroke and those of
the effects in their order. -/
theorem rootProperties_nodup_iff (h : rootProperties root tokens style = .ok ps) :
    ((ps.map (·.1)).Nodup ↔ ¬ ((Paint.modeFilter? ((root.at? "blendMode").getD .null)).isSome ∧
      ∃ e ∈ root.itemsAt "effects", Paint.isLayerBlur e = true)) ∧
    (∀ property ≠ "filter", (ps.map (·.1)).count property ≤ 1) ∧
    ∃ shadows filters, (casters root style).mapM Caster.shadow = .ok shadows ∧
      ((root.itemsAt "effects").filter Paint.isLayerBlur).mapM Paint.blur = .ok filters ∧
      declarationsOf "box-shadow" ps = written (joined "box-shadow" ", " shadows) ∧
      declarationsOf "filter" ps = written
        ((Paint.modeFilter? ((root.at? "blendMode").getD .null)).toList.map (fun s => ("filter", s)) ++
          joined "filter" " " filters) := by
  obtain ⟨all, mode, stroke, shadows, filters, rfl, horder, hmode, hcasters, hstroke, hfilters, hshadows,
    hfilter⟩ := rootProperties_parts h
  obtain ⟨-, rfl⟩ := Datum.get_ok hmode
  have hone := mergeShadows_joined hstroke hshadows
  have hsame : ∀ property ≠ "box-shadow", declarationsOf property (mergeShadows all) =
      declarationsOf property all := fun property hp => mergeShadows_others (fun _ => by simpa using hp.symm) all
  have hfilter := (hsame "filter" (by decide)).trans hfilter
  have hcount : ∀ property ≠ "filter", ((mergeShadows all).map (·.1)).count property ≤ 1 := by
    intro property hp
    rw [count_names]
    by_cases hshadow : property = "box-shadow"
    · subst hshadow
      rw [hone, written, List.length_map, length_joined]
      split <;> decide
    · rw [hsame property hshadow, ← count_names]
      exact (horder.count_le property).trans (count_propertyOrder hshadow hp)
  refine ⟨?_, hcount, _, _, hcasters, hfilters, hone, hfilter⟩
  have hblurred : filters ≠ [] ↔ ∃ e ∈ root.itemsAt "effects", Paint.isLayerBlur e = true := by
    rw [← List.length_pos_iff, ← (Outcome.forall₂_mapM hfilters).length_eq, List.length_pos_iff, ne_eq,
      List.filter_eq_nil_iff]
    push Not
    rfl
  have hlength : ((mergeShadows all).map (·.1)).count "filter" =
      (Paint.modeFilter? ((root.at? "blendMode").getD .null)).toList.length + if filters = [] then 0 else 1 := by
    rw [count_names, hfilter, written, List.length_map, List.length_append, List.length_map, length_joined]
  rw [← hblurred, List.nodup_iff_count_le_one]
  constructor
  · rintro hall ⟨hmode, hne⟩
    have htwo := hall "filter"
    rw [hlength, if_neg hne, Option.length_toList, if_pos hmode] at htwo
    omega
  · intro hnot property
    by_cases hp : property = "filter"
    · subst hp
      rw [hlength]
      by_cases hne : filters = []
      · rw [if_pos hne, Option.length_toList]
        split <;> omega
      · rw [if_neg hne, Option.length_toList, if_neg fun hmode => hnot ⟨hmode, hne⟩]
    · exact hcount property hp

end Root

/-! ## Sample nodes -/

/-- A node with a stroke, two shadows and a blur, and a blend mode. -/
def layeredRoot (mode : String) : Datum :=
  .record [("blendMode", .text mode),
    ("strokes", .list [.record [("type", .text "solid"), ("width", .int 2), ("position", .text "inside")]]),
    ("effects", .list [
      .record [("type", .text "drop-shadow"), ("radius", .int 4)],
      .record [("type", .text "layer-blur"), ("radius", .int 3)],
      .record [("type", .text "inner-shadow"), ("radius", .int 8)]])]

/-- Three shadows of a node share one declaration. -/
theorem rootProperties_nodup_layered : ∃ ps, rootProperties (layeredRoot "SCREEN") (.ok []) .shadow = .ok ps ∧
    (ps.map (·.1)).Nodup ∧ ∃ shadows, shadows.length = 3 ∧
      declarationsOf "box-shadow" ps = [("box-shadow", .text (", ".intercalate shadows))] := by
  have hrun : (rootProperties (layeredRoot "SCREEN") (.ok []) .shadow).toOption.map (fun _ => ()) = some () := by
    decide +kernel
  obtain ⟨ps, hps, -⟩ := Outcome.ok_of_toOption hrun
  obtain ⟨hiff, -, shadows, -, hshadows, -, hone, -⟩ := rootProperties_nodup_iff hps
  have hthree : shadows.length = 3 := by
    rw [← (Outcome.forall₂_mapM hshadows).length_eq]
    decide
  refine ⟨ps, hps, hiff.2 (by decide), shadows, hthree, ?_⟩
  rw [hone]
  match shadows, hthree with
  | _ :: _, _ => rfl

/-- A mode that is approximated by a filter, and a blur: the filter of the mode is declared in vain. -/
theorem rootProperties_burnt : ∃ ps, rootProperties (layeredRoot "LINEAR_BURN") (.ok []) .outline = .ok ps ∧
    ¬ (ps.map (·.1)).Nodup ∧
    (declarationsOf "filter" ps).map (·.2.shown) = ["brightness(0.8) contrast(1.2)", "blur(3px)"] := by
  have hrun : (rootProperties (layeredRoot "LINEAR_BURN") (.ok []) .outline).toOption.map (fun ps =>
      (decide (ps.map (·.1)).Nodup, (declarationsOf "filter" ps).map (·.2.shown))) =
      some (false, ["brightness(0.8) contrast(1.2)", "blur(3px)"]) := by decide +kernel
  obtain ⟨ps, hps, hvalues⟩ := Outcome.ok_of_toOption hrun
  obtain ⟨hnodup, hfilters⟩ := Prod.mk.inj hvalues
  exact ⟨ps, hps, of_decide_eq_false hnodup, hfilters⟩

end Stylesheet

end Maquette
