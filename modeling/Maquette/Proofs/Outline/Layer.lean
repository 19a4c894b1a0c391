/-
What the layers of a design hold. A layer may be without any of its fields; a field that is there has
the kind that the design tool gives it, and its numbers lie in the range of what they measure.
-/
import Maquette.Proofs.Datum
import Maquette.Proofs.Scene.Planted
import Maquette.Proofs.Schema.Check
import Maquette.Outline.Document

namespace Maquette

/-! ## Parts of a record -/

/-- What a field holds, where it is there. -/
def Datum.Part (d : Datum) (key : String) (P : Datum → Prop) : Prop := ∀ v, d.at? key = some v → P v

namespace Datum.Part

variable {d default v : Datum} {key : String} {P : Datum → Prop}

theorem getD (h : d.Part key P) :
    (d.at? key).getD .null = .null ∨ P ((d.at? key).getD .null) := by
  cases hp : d.at? key with
  | none => exact .inl rfl
  | some v => exact .inr (h v hp)

theorem get (h : d.Part key P) (hr : d.isRecord = true) :
    ∃ v, d.get key = .ok v ∧ (v = .null ∨ P v) :=
  ⟨_, Datum.get_eq hr key, h.getD⟩

/-- A field that could be read is null or of the kind. -/
theorem get_ok (h : d.Part key P) (hv : d.get key = .ok v) : v = .null ∨ P v := by
  rw [(Datum.get_ok hv).2]
  exact h.getD

theorem fieldOr (h : d.Part key P) (hr : d.isRecord = true) (hd : P default) :
    ∃ v, d.fieldOr key default = .ok v ∧ P v := by
  refine ⟨_, Datum.fieldOr_eq hr key default, ?_⟩
  cases hv : d.at? key with
  | none => exact hd
  | some v => exact h v hv

end Datum.Part

theorem Datum.of_truthy {P : Datum → Prop} {d : Datum} (h : d = .null ∨ P d)
    (ht : d.isTruthy = true) : P d := by
  rcases h with rfl | h
  · cases ht
  · exact h

theorem Datum.orElse_of {P : Datum → Prop} {d default : Datum} (h : d = .null ∨ P d)
    (hd : P default) : P (d.orElse default) := by
  unfold Datum.orElse
  split
  · exact of_truthy h (by assumption)
  · exact hd

namespace Outline

/-! ## Kinds of values -/

def IsText (d : Datum) : Prop := d.isText = true

theorem isText_text (s : String) : IsText (.text s) := rfl

/-- The double that a number is read as. -/
def value? : Datum → Option Float
  | .int n => Decimal.ofInt? n
  | .float x => some x
  | _ => none

def IsNumber (d : Datum) : Prop := ∃ x, value? d = some x

/-- A number from zero on. -/
def IsSize (d : Datum) : Prop := ∃ x, value? d = some x ∧ 0 ≤ x

/-- A number from zero to one. -/
def IsShare (d : Datum) : Prop := ∃ x, value? d = some x ∧ 0 ≤ x ∧ x ≤ 1

def IsListOf (P : Datum → Prop) (d : Datum) : Prop := ∃ items, d = .list items ∧ ∀ i ∈ items, P i

/-! ## Paints -/

structure IsColor (d : Datum) : Prop where
  record : d.isRecord = true
  channel : ∀ key ∈ ["r", "g", "b", "a"], d.Part key IsShare

structure IsStop (d : Datum) : Prop where
  record : d.isRecord = true
  position : d.Part "position" IsNumber
  color : d.Part "color" IsColor

/-- A paint; the gradient that it is nested in is a paint itself. -/
inductive IsPaint : Datum → Prop
  | intro {d : Datum} : d.isRecord = true →
      (∀ key ∈ ["type", "imageRef", "imageHash", "scaleMode"], d.Part key IsText) →
      d.Part "opacity" IsShare → d.Part "color" IsColor →
      d.Part "gradientStops" (IsListOf IsStop) →
      d.Part "gradientTransform" (IsListOf (IsListOf IsNumber)) →
      d.Part "gradientHandlePositions" (IsListOf fun p => p.isRecord = true) →
      (∀ parent, d.at? "parentGradient" = some parent → IsPaint parent) → IsPaint d

structure IsOffset (d : Datum) : Prop where
  record : d.isRecord = true
  side : ∀ key ∈ ["x", "y"], d.Part key IsNumber

structure IsEffect (d : Datum) : Prop where
  record : d.isRecord = true
  type : d.Part "type" IsText
  radius : d.Part "radius" IsSize
  color : d.Part "color" IsColor
  offset : d.Part "offset" IsOffset
  spread : d.Part "spread" IsNumber

/-! ## Layers -/

structure IsBox (d : Datum) : Prop where
  record : d.isRecord = true
  place : ∀ key ∈ ["x", "y"], d.Part key IsNumber
  size : ∀ key ∈ ["width", "height"], d.Part key IsSize

/-- A text style. -/
structure IsStyle (d : Datum) : Prop where
  record : d.isRecord = true
  word : ∀ key ∈ ["fontFamily", "textAlignHorizontal", "textDecoration", "textCase"], d.Part key IsText
  size : d.Part "fontSize" IsSize
  weight : d.Part "fontWeight" IsNumber

/-- An outline of a shape, or the curve that a text runs along. -/
structure IsCurve (d : Datum) : Prop where
  record : d.isRecord = true
  word : ∀ key ∈ ["data", "path", "windingRule"], d.Part key IsText

/-- What a property is bound to: a reference to a variable, or a list of them. -/
structure IsBinding (d : Datum) : Prop where
  one : d.Part "id" IsText
  several : ∀ refs, d = .list refs → ∀ ref ∈ refs, ref.Part "id" IsText

/-- A field of a layer that holds a word or a name. -/
def layerWords : List String :=
  ["id", "name", "type", "blendMode", "primaryAxisAlignItems", "counterAxisAlignItems",
   "layoutSizingHorizontal", "layoutSizingVertical", "primaryAxisSizingMode", "counterAxisSizingMode"]

/-- A field of a layer that holds a measure. -/
def layerMeasures : List String :=
  ["itemSpacing", "paddingTop", "paddingRight", "paddingBottom", "paddingLeft"]

/-- A layer without its children. -/
structure IsLayer (d : Datum) : Prop where
  record : d.isRecord = true
  word : ∀ key ∈ layerWords, d.Part key IsText
  measure : ∀ key ∈ layerMeasures, d.Part key IsNumber
  box : d.Part "absoluteBoundingBox" IsBox
  fills : d.Part "fills" (IsListOf IsPaint)
  strokes : d.Part "strokes" (IsListOf IsPaint)
  strokeWeight : d.Part "strokeWeight" IsSize
  strokeAlign : d.Part "strokeAlign" fun v => ∃ s ∈ ["INSIDE", "OUTSIDE", "CENTER"], v = .text s
  effects : d.Part "effects" (IsListOf IsEffect)
  opacity : d.Part "opacity" IsShare
  cornerRadius : d.Part "cornerRadius" IsSize
  cornerRadii : d.Part "rectangleCornerRadii" (IsListOf IsSize)
  style : d.Part "style" IsStyle
  textPath : d.Part "textPath" IsCurve
  vectorPaths : ∀ key ∈ ["vectorPaths", "fillGeometry"], d.Part key (IsListOf IsCurve)
  bindings : d.Part "boundVariables" fun v =>
    ∃ fields, v = .record fields ∧ ∀ row ∈ fields, IsBinding row.2

/-- A design: a layer with the layers below it, in lists of children. -/
structure IsDesign (d : Datum) : Prop where
  record : d.isRecord = true
  tree : d.isTree = true
  layers : ∀ row ∈ d.preorder 0, IsLayer row.1

/-- Where a design comes from, as texts; when it was read may be left open. -/
structure IsOrigin (origin : Origin) : Prop where
  url : IsText origin.url
  fileKey : IsText origin.fileKey
  extractedAt : origin.extractedAt = .null ∨ IsText origin.extractedAt

/-! ## What passes -/

theorem eq_text {d : Datum} (h : IsText d) : ∃ s, d = .text s := by
  cases d <;> first | exact ⟨_, rfl⟩ | cases h

theorem double_eq {d : Datum} {x : Float} (h : value? d = some x) : Check.double d = .ok x := by
  cases d with
  | int n => rw [Check.double, show Decimal.ofInt? n = some x from h]
  | float y => cases h; rfl
  | _ => cases h

theorem IsText.passes {d : Datum} (h : IsText d) : Check.text d = [] := by
  obtain ⟨s, rfl⟩ := eq_text h
  rfl

theorem IsText.isKey {d : Datum} (h : IsText d) : d.isKey = true := by
  obtain ⟨s, rfl⟩ := eq_text h
  rfl

theorem IsNumber.passes {d : Datum} (h : IsNumber d) : Check.number d = [] := by
  obtain ⟨x, hx⟩ := h
  exact Check.number_passes (double_eq hx)

theorem IsSize.passes {d : Datum} (h : IsSize d) : Check.size d = [] := by
  obtain ⟨x, hx, hpos⟩ := h
  exact Check.size_passes (double_eq hx) hpos

theorem IsSize.isNumber {d : Datum} (h : IsSize d) : IsNumber d := by
  obtain ⟨x, hx, -⟩ := h
  exact ⟨x, hx⟩

theorem IsShare.passes {d : Datum} (h : IsShare d) : Check.share d = [] := by
  obtain ⟨x, hx, hlow, hhigh⟩ := h
  exact Check.share_passes (double_eq hx) hlow hhigh

/-- A size that counts as given is positive. -/
theorem IsSize.positive {d : Datum} (h : IsSize d) (ht : d.isTruthy = true) : Check.positive d = [] := by
  obtain ⟨x, hx, hpos⟩ := h
  refine Check.positive_passes (double_eq hx) ?_
  cases d with
  | int n => exact Decimal.ofInt?_pos hx (by simpa [Datum.isTruthy] using ht) hpos
  | float y =>
    cases hx
    exact Decimal.lt_of_le_of_differ hpos (by simpa [Datum.isTruthy] using ht)
  | _ => cases hx

theorem zero_isShare : IsShare (.int 0) := ⟨0.0, rfl, by decide, by decide⟩

theorem one_isShare : IsShare (.int 1) := ⟨1.0, rfl, by decide, by decide⟩

theorem IsShare.isSize {d : Datum} (h : IsShare d) : IsSize d := by
  obtain ⟨x, hx, hlow, -⟩ := h
  exact ⟨x, hx, hlow⟩

theorem zero_isSize : IsSize (.int 0) := zero_isShare.isSize

theorem zero_isNumber : IsNumber (.int 0) := zero_isSize.isNumber

theorem IsListOf.nil {P : Datum → Prop} : IsListOf P (.list []) := ⟨[], rfl, by simp⟩

theorem IsListOf.passes {P : Datum → Prop} {c : Check} {d : Datum} (h : IsListOf P d)
    (hc : ∀ i, P i → c i = []) : Check.listOf c d = [] := by
  obtain ⟨items, rfl, hitems⟩ := h
  exact Check.listOf_eq_nil.2 fun i hi => hc i (hitems i hi)

/-- An empty record has every shape. -/
theorem part_empty (key : String) (P : Datum → Prop) : Datum.empty.Part key P := by
  intro v hv
  cases hv

end Outline

end Maquette
