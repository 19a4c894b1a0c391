/-
Paints, strokes and effects of a design always have the shape that an outline asks for. A gradient may
be nested in further ones, so the shape of paints is shown by induction on how a paint is nested.
-/
import Maquette.Proofs.Outline.Layer
import Maquette.Schema.Outline

namespace Maquette.Outline

open Check

/-! ## Reading parts -/

theorem named_ok (pairs : List (String × String)) {key : Datum} (h : key = .null ∨ IsText key) :
    ∃ r, named pairs key = .ok r ∧ ∀ s ∈ r, s ∈ pairs.map Prod.snd := by
  rcases h with rfl | h
  · exact ⟨none, rfl, by simp⟩
  · obtain ⟨s, rfl⟩ := eq_text h
    refine ⟨pairs.lookup s, rfl, fun t ht => ?_⟩
    obtain ⟨before, after, rfl, -⟩ := List.lookup_eq_some_iff.1 ht
    simp

/-- The items of a list that may be missing. -/
theorem itemsOf_ok {d : Datum} {key : String} {P : Datum → Prop} (h : d.Part key (IsListOf P))
    (hr : d.isRecord = true) : ∃ items, d.itemsOf key = .ok items ∧ ∀ i ∈ items, P i := by
  obtain ⟨v, hv, hlist⟩ := h.get hr
  obtain ⟨items, hitems, hP⟩ := Datum.orElse_of hlist (IsListOf.nil (P := P))
  refine ⟨items, ?_, hP⟩
  rw [Datum.itemsOf, hv, Outcome.ok_bind, hitems]
  rfl

/-! ## Colors -/

theorem color_valid {d : Datum} (h : d = .null ∨ IsColor d) :
    ∃ c, color d = .ok c ∧ Schema.color c = [] := by
  have hd : IsColor (d.orElse .empty) :=
    Datum.orElse_of h ⟨rfl, fun key _ => part_empty key _⟩
  unfold color
  generalize d.orElse .empty = d at hd
  obtain ⟨r, hr, hr'⟩ := (hd.channel "r" (by decide)).fieldOr hd.record zero_isShare
  obtain ⟨g, hg, hg'⟩ := (hd.channel "g" (by decide)).fieldOr hd.record zero_isShare
  obtain ⟨b, hb, hb'⟩ := (hd.channel "b" (by decide)).fieldOr hd.record zero_isShare
  obtain ⟨a, ha, ha'⟩ := (hd.channel "a" (by decide)).fieldOr hd.record one_isShare
  simp only [hr, hg, hb, ha, Outcome.ok_bind]
  refine ⟨_, rfl, ?_⟩
  simp [Schema.color, model, Field.issues, need, may, List.lookup, under, hr'.passes, hg'.passes,
    hb'.passes, ha'.passes]

theorem stop_valid {d : Datum} (h : IsStop d) :
    ∃ s, stop d = .ok s ∧ Schema.gradientStop s = [] := by
  obtain ⟨position, hposition, hposition'⟩ := h.position.fieldOr h.record zero_isNumber
  obtain ⟨v, hv, hv'⟩ := h.color.get h.record
  obtain ⟨c, hc, hc'⟩ := color_valid hv'
  unfold stop
  simp only [hposition, hv, hc, Outcome.ok_bind]
  refine ⟨_, rfl, ?_⟩
  simp [Schema.gradientStop, model, Field.issues, need, List.lookup, under, hposition'.passes, hc']

/-! ## Paints -/

theorem kept_ok {d : Datum} {key : String} {P : Datum → Prop} (h : d.Part key P)
    (hr : d.isRecord = true) : ∃ fields, kept d key = .ok fields ∧
      (fields = [] ∨ ∃ v, P v ∧ fields = [(key, v)]) := by
  obtain ⟨v, hv, hP⟩ := h.get hr
  unfold kept
  simp only [hv, Outcome.ok_bind]
  refine ⟨_, rfl, ?_⟩
  split
  · exact .inr ⟨v, Datum.of_truthy hP (by assumption), rfl⟩
  · exact .inl rfl

theorem parentPaint_eq (fields : List (String × Datum)) :
    parentPaint fields = match fields.lookup "parentGradient" with
      | some v => if v.isRecord then some <$> paint v else .ok none
      | none => .ok none := by
  induction fields with
  | nil => rw [parentPaint]; rfl
  | cons row fields ih =>
    obtain ⟨k, v⟩ := row
    rw [parentPaint, List.lookup_cons]
    by_cases hk : k = "parentGradient"
    · subst hk
      rfl
    · rw [beq_false_of_ne hk, beq_false_of_ne (Ne.symm hk)]
      exact ih

theorem paintFields_plain (parent : Check) : Plain (Schema.paintFields parent) := by
  constructor
  · simp [Schema.paintFields, need, maybe]
  · simp [Schema.paintFields, need, maybe]

theorem paint_model {parent : Check} {given : List (String × Datum)} (htype : given.lookup "type" ≠ none)
    (h : Fits (Schema.paintFields parent) given) :
    model "Paint" (Schema.paintFields parent) (.record given) = [] := by
  refine model_passes (paintFields_plain parent) ?_ h
  simpa [Schema.paintFields, need, maybe] using htype

/-- Every paint of a design makes a paint of the outline, and it passes however deep it is checked. -/
theorem paint_valid {d : Datum} (h : IsPaint d) :
    ∃ p, paint d = .ok p ∧ ∀ depth, Schema.paint depth p = [] := by
  induction h with
  | @intro d hr hword hopacity hcolor hstops htransform hhandles _ ih =>
    obtain ⟨fields, rfl⟩ := Datum.eq_record hr
    obtain ⟨kind, hkind, hkind'⟩ := (hword "type" (by decide)).get hr
    obtain ⟨opacity, hop, hop'⟩ := hopacity.fieldOr hr one_isShare
    obtain ⟨gradient, hgradient, hgradient'⟩ := named_ok gradientKinds hkind'
    suffices ∃ given, paint (.record fields) = .ok (.record given) ∧ given.lookup "type" ≠ none ∧
        ∀ depth, Fits (Schema.paintFields (Schema.paint depth)) given by
      obtain ⟨given, hp, htype, hfits⟩ := this
      refine ⟨_, hp, fun depth => ?_⟩
      cases depth with
      | zero => rfl
      | succ depth => exact paint_model htype (hfits depth)
    rw [paint]
    simp only [hkind, hop, hgradient, Outcome.ok_bind]
    split
    · obtain ⟨v, hv, hv'⟩ := hcolor.get hr
      obtain ⟨c, hc, hc'⟩ := color_valid hv'
      simp only [hv, hc, Outcome.ok_bind]
      refine ⟨_, rfl, by simp [List.lookup], fun depth => ?_⟩
      exact .cons (oneOf_text (by decide)) rfl <| .cons (optional_eq_nil hc') rfl <|
        .single (optional_eq_nil hop'.passes) rfl
    · cases gradient with
      | some kind =>
        obtain ⟨stops, hitems, hstop⟩ := itemsOf_ok hstops hr
        obtain ⟨made, hmade, hmade'⟩ := Outcome.mapM_all hstop fun i => stop_valid
        obtain ⟨transform, ht, ht'⟩ := kept_ok htransform hr
        obtain ⟨handles, hh, hh'⟩ := kept_ok hhandles hr
        obtain ⟨parent, hparent, hparent'⟩ : ∃ p, parentPaint fields = .ok p ∧
            ∀ v ∈ p, ∀ depth, Schema.paint depth v = [] := by
          rw [parentPaint_eq]
          cases hp : fields.lookup "parentGradient" with
          | none => exact ⟨none, rfl, by simp⟩
          | some v =>
            obtain ⟨p, hpaint, hpasses⟩ := ih v hp
            simp only [hpaint]
            split
            · exact ⟨some p, rfl, by simpa using hpasses⟩
            · exact ⟨none, rfl, by simp⟩
        unfold gradientPaint
        simp only [hitems, hmade, ht, hh, hparent, Outcome.ok_bind]
        refine ⟨_, rfl, by simp, fun depth => ?_⟩
        refine .append (.append (.append ?_ ?_) ?_) ?_
        · have hkind : kind ∈ gradientKinds.map Prod.snd := hgradient' kind rfl
          exact .cons (oneOf_text (by decide)) rfl <|
            .cons (optional_eq_nil (oneOf_text hkind)) rfl <|
            .cons (optional_eq_nil (listOf_eq_nil.2 hmade')) rfl <|
            .single (optional_eq_nil hop'.passes) rfl
        · rcases ht' with rfl | ⟨v, hv, rfl⟩
          · exact .nil
          · refine .single (optional_eq_nil ?_) rfl
            exact hv.passes fun row hrow => hrow.passes fun n hn => hn.passes
        · rcases hh' with rfl | ⟨v, hv, rfl⟩
          · exact .nil
          · refine .single (optional_eq_nil (hv.passes fun p hp => ?_)) rfl
            obtain ⟨fields, rfl⟩ := Datum.eq_record hp
            rfl
        · cases parent with
          | none => exact .nil
          | some p => exact .single (optional_eq_nil (hparent' p rfl depth)) rfl
      | none =>
        simp only
        split
        · obtain ⟨ref, href, href'⟩ := (hword "imageRef" (by decide)).get hr
          obtain ⟨hash, hhash, hhash'⟩ := (hword "imageHash" (by decide)).get hr
          obtain ⟨mode, hmode, hmode'⟩ := (hword "scaleMode" (by decide)).fieldOr hr
            (isText_text "FILL")
          have hurl : IsText ((ref.orElse hash).orElse (.text "")) :=
            Datum.orElse_of (Datum.orElse_of (P := fun v => v = .null ∨ IsText v) (.inr href') hhash') rfl
          obtain ⟨transform, ht, ht'⟩ :=
            kept_ok (fun _ _ => trivial : Datum.Part _ "imageTransform" fun _ => True) hr
          obtain ⟨crop, hc, hc'⟩ :=
            kept_ok (fun _ _ => trivial : Datum.Part _ "imageCrop" fun _ => True) hr
          unfold imagePaint
          simp only [href, hhash, hmode, ht, hc, Outcome.ok_bind]
          refine ⟨_, rfl, by simp, fun depth => .append (.append ?_ ?_) ?_⟩
          · exact .cons (oneOf_text (by decide)) rfl <| .cons (optional_eq_nil hurl.passes) rfl <|
              .cons (optional_eq_nil hmode'.passes) rfl <| .single (optional_eq_nil hop'.passes) rfl
          · rcases ht' with rfl | ⟨v, -, rfl⟩
            · exact .nil
            · exact .foreign rfl
          · rcases hc' with rfl | ⟨v, -, rfl⟩
            · exact .nil
            · exact .foreign rfl
        · refine ⟨_, rfl, by simp, fun depth => ?_⟩
          exact .single (oneOf_text (by decide)) rfl

/-! ## Strokes -/

/-- A stroke of a layer, in the weight and the alignment of the layer. -/
theorem stroke_valid {d layer : Datum} (h : IsPaint d) (hl : IsLayer layer) :
    ∃ s, stroke d layer = .ok s ∧ Schema.stroke s = [] := by
  obtain ⟨hr, hword, -, hcolor, -, -, -, -⟩ := h
  obtain ⟨kind, hkind, -⟩ := (hword "type" (by decide)).get hr
  obtain ⟨v, hv, hv'⟩ := hcolor.get hr
  obtain ⟨c, hc, hc'⟩ := color_valid hv'
  obtain ⟨weight, hw, hw'⟩ := hl.strokeWeight.get hl.record
  have hinside : ∃ s ∈ ["INSIDE", "OUTSIDE", "CENTER"], Datum.text "INSIDE" = .text s :=
    ⟨"INSIDE", by decide, rfl⟩
  obtain ⟨align, ha, s, hs, rfl⟩ := hl.strokeAlign.fieldOr hl.record hinside
  have hweight := (Datum.orElse_of hw' one_isShare.isSize).passes
  have hposition : Text.lower (Datum.text s).shown ∈ ["inside", "outside", "center"] := by
    simp only [List.mem_cons, List.not_mem_nil, or_false] at hs
    rcases hs with rfl | rfl | rfl <;> decide
  unfold stroke
  simp only [hkind, hv, hc, hw, ha, Outcome.ok_bind]
  split
  · exact ⟨_, rfl, by rfl⟩
  · refine ⟨_, rfl, ?_⟩
    have hsolid : oneOf ["solid", "none"] (.text "solid") = [] := oneOf_text (by decide)
    simp [Schema.stroke, model, Field.issues, need, maybe, List.lookup, under, hsolid,
      optional_eq_nil hc', optional_eq_nil hweight, optional_eq_nil (oneOf_text hposition)]

/-! ## Effects -/

theorem offset_valid {d : Datum} (h : d = .null ∨ IsOffset d) :
    ∃ x y, (d.orElse .empty).fieldOr "x" (.int 0) = .ok x ∧
      (d.orElse .empty).fieldOr "y" (.int 0) = .ok y ∧
      Schema.offset (.record [("x", x), ("y", y)]) = [] := by
  have hd : IsOffset (d.orElse .empty) :=
    Datum.orElse_of h ⟨rfl, fun key _ => part_empty key _⟩
  obtain ⟨x, hx, hx'⟩ := (hd.side "x" (by decide)).fieldOr hd.record zero_isNumber
  obtain ⟨y, hy, hy'⟩ := (hd.side "y" (by decide)).fieldOr hd.record zero_isNumber
  refine ⟨x, y, hx, hy, ?_⟩
  simp [Schema.offset, model, Field.issues, may, List.lookup, under, hx'.passes, hy'.passes]

theorem effect_valid {d : Datum} (h : IsEffect d) :
    ∃ e, effect d = .ok e ∧ Schema.effect e = [] := by
  obtain ⟨kind, hkind, hkind'⟩ := h.type.get h.record
  obtain ⟨made, hmade, hmade'⟩ := named_ok effectKinds hkind'
  unfold effect
  simp only [hkind, hmade, Outcome.ok_bind]
  cases made with
  | none => exact ⟨_, rfl, by rfl⟩
  | some kind =>
    have hkind : oneOf ["drop-shadow", "inner-shadow", "layer-blur", "background-blur"]
        (.text kind) = [] :=
      oneOf_text (hmade' kind rfl)
    obtain ⟨radius, hradius, hradius'⟩ := h.radius.fieldOr h.record zero_isSize
    obtain ⟨spread, hspread, hspread'⟩ := h.spread.fieldOr h.record zero_isNumber
    obtain ⟨v, hv, hv'⟩ := h.color.get h.record
    obtain ⟨c, hc, hc'⟩ := color_valid hv'
    obtain ⟨offset, ho, ho'⟩ := h.offset.get h.record
    obtain ⟨x, y, hx, hy, hoffset⟩ := offset_valid ho'
    have hvisible : truth (.bool (isVisible d)) = [] := rfl
    simp only [hradius, Outcome.ok_bind]
    split
    · simp only [ho, hv, hc, hx, hy, hspread, Outcome.ok_bind]
      refine ⟨_, rfl, ?_⟩
      simp [Schema.effect, model, Field.issues, need, may, maybe, List.lookup, under, hkind,
        hradius'.passes, hvisible, optional_eq_nil hc', optional_eq_nil hoffset,
        optional_eq_nil hspread'.passes]
    · refine ⟨_, rfl, ?_⟩
      simp [Schema.effect, model, Field.issues, need, may, maybe, List.lookup, under, hkind,
        hradius'.passes, hvisible]

end Maquette.Outline
