/-
What passes a check. A list passes when its items do, a table when its values do, and a record fits a
model when it has the fields that have to be there and each of its fields passes.
-/
import Maquette.Proofs.Decimal.Ratio
import Maquette.Schema.Check

namespace Maquette.Check

open Decimal

/-! ## Lists and tables -/

theorem under_eq_nil {key : String} {issues : List Issue} : under key issues = [] ↔ issues = [] :=
  List.map_eq_nil_iff

theorem listOf_eq_nil {c : Check} {items : List Datum} :
    listOf c (.list items) = [] ↔ ∀ d ∈ items, c d = [] := by
  rw [listOf, List.flatMap_eq_nil_iff]
  constructor
  · intro h d hd
    obtain ⟨i, hi, rfl⟩ := List.mem_iff_getElem.1 hd
    exact under_eq_nil.1 (h (items[i], i) (by simp [List.mk_mem_zipIdx_iff_getElem?, hi]))
  · rintro h ⟨d, i⟩ hrow
    exact under_eq_nil.2 (h d (List.fst_mem_of_mem_zipIdx hrow))

theorem tableOf_eq_nil {c : Check} {fields : List (String × Datum)} :
    tableOf c (.record fields) = [] ↔ ∀ row ∈ fields, c row.2 = [] := by
  rw [tableOf, List.flatMap_eq_nil_iff]
  exact forall₂_congr fun row _ => under_eq_nil

/-- A table without odd keys is a table of texts. -/
theorem tableWith_nil (c : Check) : tableWith [] c = tableOf c := by
  funext d
  cases d <;> rfl

/-- A value passes alternatives when it passes one of them. -/
theorem anyOf_passes {members : List (String × Check)} {c : Check} {d : Datum}
    (hc : c ∈ members.map (·.2)) (h : c d = []) : anyOf members d = [] := by
  obtain ⟨⟨name, c⟩, hmem, rfl⟩ := List.mem_map.1 hc
  rw [anyOf, if_pos]
  exact List.any_eq_true.2 ⟨(name, c), hmem, List.isEmpty_iff.2 h⟩

theorem optional_eq_nil {c : Check} {d : Datum} (h : c d = []) : optional c d = [] := by
  cases d <;> first | rfl | exact h

@[simp] theorem text_text (s : String) : text (.text s) = [] := rfl

theorem oneOf_text {options : List String} {s : String} (h : s ∈ options) :
    oneOf options (.text s) = [] := by
  rw [oneOf, if_pos]
  exact List.any_eq_true.2 ⟨s, h, by simp [Datum.isThe]⟩

/-! ## Models -/

/-- Each of the parts passes the check of the field that it is given for. -/
def Fits (fields : List Field) (given : List (String × Datum)) : Prop :=
  ∀ row ∈ given, ∀ f, fields.find? (·.key == row.1) = some f → f.check row.2 = []

namespace Fits

variable {fields : List Field} {given given' : List (String × Datum)}

theorem nil : Fits fields [] := by simp [Fits]

theorem append (h : Fits fields given) (h' : Fits fields given') : Fits fields (given ++ given') := by
  intro row hrow
  rcases List.mem_append.1 hrow with hrow | hrow
  · exact h row hrow
  · exact h' row hrow

/-- One part, for the field of its name. -/
theorem single {key : String} {c : Check} {d : Datum} (h : c d = [])
    (hf : (fields.find? (·.key == key)).map Field.check = some c) : Fits fields [(key, d)] := by
  intro row hrow f hf'
  obtain rfl := List.mem_singleton.1 hrow
  rw [hf'] at hf
  cases hf
  exact h

theorem cons {key : String} {c : Check} {d : Datum} (h : c d = [])
    (hf : (fields.find? (·.key == key)).map Field.check = some c) (hrest : Fits fields given) :
    Fits fields ((key, d) :: given) :=
  (single h hf).append hrest

/-- A part of a name that the model does not know. -/
theorem foreign {key : String} {d : Datum} (hf : fields.find? (·.key == key) = none) :
    Fits fields [(key, d)] := by
  intro row hrow f hf'
  obtain rfl := List.mem_singleton.1 hrow
  rw [hf] at hf'
  cases hf'

theorem ite {p : Prop} [Decidable p] (h : p → Fits fields given) (h' : ¬ p → Fits fields given') :
    Fits fields (if p then given else given') := by
  split
  · exact h (by assumption)
  · exact h' (by assumption)

end Fits

/-- The fields of a model have one name each, and different ones. -/
structure Plain (fields : List Field) : Prop where
  single : ∀ f ∈ fields, f.other = none
  distinct : (fields.map Field.key).Nodup

section Model

variable {name : String} {fields : List Field} {given : List (String × Datum)}

theorem issues_eq_nil {f : Field} (hf : f.other = none) : f.issues given = [] ↔
    (f.required = true → given.lookup f.key ≠ none) ∧
      ∀ d, given.lookup f.key = some d → f.check d = [] := by
  unfold Field.issues
  simp only [hf, Option.toList_none, List.findSome?_cons, List.findSome?_nil]
  cases given.lookup f.key with
  | none => cases f.required <;> simp
  | some d => simp [under_eq_nil]

theorem model_eq_nil (hplain : Plain fields) : model name fields (.record given) = [] ↔
    ∀ f ∈ fields, (f.required = true → given.lookup f.key ≠ none) ∧
      ∀ d, given.lookup f.key = some d → f.check d = [] := by
  show (fields.flatMap (·.issues given)) = [] ↔ _
  rw [List.flatMap_eq_nil_iff]
  exact forall₂_congr fun f hf => issues_eq_nil (hplain.single f hf)

/-- What passes a model is a record. -/
theorem record_of_model {d : Datum} (h : model name fields d = []) : ∃ given, d = .record given := by
  cases d <;> first | exact ⟨_, rfl⟩ | cases h

theorem model_passes (hplain : Plain fields)
    (hneeded : ∀ f ∈ fields, f.required = true → given.lookup f.key ≠ none)
    (hfits : Fits fields given) : model name fields (.record given) = [] := by
  refine (model_eq_nil hplain).2 fun f hf => ⟨hneeded f hf, fun d hd => ?_⟩
  obtain ⟨before, after, rfl, -⟩ := List.lookup_eq_some_iff.1 hd
  refine hfits (f.key, d) (by simp) f ?_
  -- no field before this one has its name
  obtain ⟨l, r, rfl⟩ := List.append_of_mem hf
  have hdistinct := hplain.distinct
  rw [List.map_append, List.map_cons, List.nodup_append] at hdistinct
  rw [List.find?_append, List.find?_cons_of_pos (by simp)]
  have hnone : l.find? (·.key == f.key) = none := by
    rw [List.find?_eq_none]
    intro g hg hkey
    exact hdistinct.2.2 g.key (List.mem_map_of_mem hg) f.key (by simp) (by simpa using hkey)
  rw [hnone]
  rfl

end Model

/-! ## Numbers -/

section Numbers

variable {d : Datum} {x : Float}

theorem number_passes (h : double d = .ok x) : number d = [] := by
  rw [number, numberWhere, h]

theorem size_passes (h : double d = .ok x) (hx : 0 ≤ x) : size d = [] := by
  rw [size, numberWhere, h]
  simp only [if_neg (not_lt_of_le hx)]

theorem share_passes (h : double d = .ok x) (hx : 0 ≤ x) (hx' : x ≤ 1) : share d = [] := by
  rw [share, numberWhere, h]
  simp only [if_neg (not_lt_of_le hx), if_neg (not_lt_of_le hx')]

theorem positive_passes (h : double d = .ok x) (hx : 0 < x) : positive d = [] := by
  rw [positive, numberWhere, h]
  simp only [if_neg fun hle => not_lt_of_le hle hx]

end Numbers

end Maquette.Check
