/-
Scores in other numbers than doubles. How names, colors and quantities are compared, how a token is
scored and how the best one is searched for is told once for any kind of numbers. In doubles this is
what matches are made with; in real numbers nothing is rounded.
-/
import Mathlib.Analysis.Real.Sqrt
import Maquette.Proofs.Token.Reflexive

namespace Maquette.Token

/-! ## Numbers -/

/-- What scores take from the numbers they are reckoned in, beside their arithmetic. -/
structure Reckoning (α : Type) where
  /-- The quotient of two counts. -/
  quotient : ℕ → ℕ → α
  /-- A number out of data. -/
  ofNumber : Number → Outcome α
  /-- The size of a number without its sign. -/
  size : α → α
  isZero : α → Bool
  /-- The distance of two colors, and the greatest one of all colors. -/
  distance : Color.Rgb → Color.Rgb → Outcome α
  maxDistance : α

section Scores

variable {α : Type} [Add α] [Sub α] [Mul α] [Div α] [OfNat α 1] [OfScientific α] [LT α]
  [DecidableLT α] (r : Reckoning α)

/-- The similarity of two normalized names. -/
def namesIn (a b : String) : α :=
  let x := a.toList
  let y := b.toList
  if x.isEmpty || y.isEmpty then 0.0
  else
    let longest := max x.length y.length
    let edit : α := 1.0 - r.quotient (editDistance x y) longest
    let containment : α :=
      if Text.occursIn x y || Text.occursIn y x then r.quotient (min x.length y.length) longest
      else 0.0
    let px := parts x
    let py := parts y
    let shared : α := r.quotient (px.filter py.contains).length (max px.length py.length)
    0.5 * edit + 0.3 * containment + 0.2 * shared

/-- The similarity of two colors. -/
def colorsIn (a b : Datum) : Outcome (Option α) := do
  match ← Color.read a, ← Color.read b with
  | some x, some y => return some (1 - (← r.distance x y) / r.maxDistance)
  | _, _ => return none

/-- A value as a number with a unit: the number that it is, or the double that a text is read as. -/
def measure? (d : Datum) : Option (Number × String) :=
  match d with
  | .int n => some (.int n, "")
  | .float x => some (.float x, "")
  | .text s => (quantityOf? s).map fun (x, unit) => (.float x, unit)
  | _ => none

def quantityIn (d : Datum) : Outcome (Option (α × String)) :=
  match measure? d with
  | some (n, unit) => do return some (← r.ofNumber n, unit)
  | none => return none

/-- The similarity of two numbers with units. -/
def numbersIn (a b : Datum) : Outcome (Option α) := do
  match ← quantityIn r a, ← quantityIn r b with
  | some (x, ux), some (y, uy) =>
    if ux != "" && uy != "" && ux != uy then return none
    let largest := if r.size x < r.size y then r.size y else r.size x
    return some (if r.isZero largest then 1.0 else 1 - r.size (x - y) / largest)
  | _, _ => return none

/-- The greater of two scores. -/
def greater (a b : α) : α := if a < b then b else a

/-- How well a token fits a variable. -/
def scoreIn (var : Datum) (variableName : String) (token : Datum) (tokenName : String) :
    Outcome α := do
  let byName := namesIn r variableName tokenName
  let base : α := if 0.7 < byName then byName else 0.0
  let value ← var.get "value"
  let tokenValue ← token.get "value"
  match ← colorsIn r value tokenValue with
  | some color =>
    return if 0.95 < color then
      greater (greater base (0.3 * byName + 0.7 * color)) (0.9 * color)
    else base
  | none =>
    match ← numbersIn r value tokenValue with
    | some numeric =>
      return if 0.99 < numeric then
        greater (greater base (0.4 * byName + 0.6 * numeric)) (0.95 * numeric)
      else base
    | none => return base

/-- The search for the best token. -/
def searchIn (var : Datum) (variableName : String) :
    Option Datum × α → List Datum → Outcome (Option Datum × α)
  | best, [] => .ok best
  | best, token :: rest => do
    let kind ← ownKind var
    let tokenKind ← ownKind token
    if !areCompatible kind tokenKind then searchIn var variableName best rest
    else
      let tokenName := normalized (← ownName token)
      if tokenName != "" && tokenName == variableName then return (some token, 1.0)
      let s ← scoreIn r var variableName token tokenName
      searchIn var variableName (if best.2 < s then (some token, s) else best) rest

/-- The best token for a variable, if there is one, and its confidence. -/
def bestMatch (var : Datum) (tokens : List Datum) : Outcome (Option Datum × α) := do
  let name ← ownName var
  searchIn r var (normalized name) (none, 0.0) (← byNames tokens)

end Scores

/-! ## Doubles -/

/-- Doubles, the numbers that matches are made with. -/
def doubles : Reckoning Float :=
  ⟨quotient, Number.toFloat, Float.abs, (· == 0), fun x y => Color.distance x.channels y.channels,
    Color.maxDistance⟩

theorem namesIn_doubles (a b : String) : namesIn doubles a b = nameSimilarity a b := rfl

theorem colorsIn_doubles (a b : Datum) : colorsIn doubles a b = colorSimilarity a b := rfl

theorem quantityIn_doubles (d : Datum) : quantityIn doubles d = quantity d := by
  cases d with
  | text s =>
    show (match (quantityOf? s).map fun (x, unit) => (Number.float x, unit) with
      | some (n, unit) => (do return some (← n.toFloat, unit))
      | none => return none) = (.ok (quantityOf? s) : Outcome _)
    cases quantityOf? s <;> rfl
  | _ => rfl

theorem numbersIn_doubles (a b : Datum) : numbersIn doubles a b = numericSimilarity a b := by
  unfold numbersIn numericSimilarity
  rw [quantityIn_doubles, quantityIn_doubles]
  cases quantity a with
  | error f => rfl
  | ok x =>
    cases quantity b with
    | error f => rfl
    | ok y => cases x <;> cases y <;> rfl

theorem scoreIn_doubles (var : Datum) (n : String) (token : Datum) (m : String) :
    scoreIn doubles var n token m = score var n token m := by
  unfold scoreIn score
  simp only [namesIn_doubles, colorsIn_doubles, numbersIn_doubles]
  cases var.get "value" with
  | error f => rfl
  | ok value =>
    cases token.get "value" with
    | error f => rfl
    | ok tokenValue =>
      simp only [Outcome.ok_bind]
      cases colorSimilarity value tokenValue with
      | error f => rfl
      | ok color =>
        cases color with
        | some color => rfl
        | none =>
          simp only [Outcome.ok_bind]
          cases numericSimilarity value tokenValue with
          | error f => rfl
          | ok numeric => cases numeric <;> rfl

theorem searchIn_doubles (var : Datum) (n : String) (best : Best) (tokens : List Datum) :
    searchIn doubles var n best tokens = search var n best tokens := by
  induction tokens generalizing best with
  | nil => rfl
  | cons token rest ih =>
    rw [searchIn, search_cons, verdict_eq]
    simp only [scoreIn_doubles, ih]
    cases ownKind var with
    | error f => rfl
    | ok kind =>
      cases ownKind token with
      | error f => rfl
      | ok tokenKind =>
        simp only [Outcome.ok_bind]
        split
        · rfl
        · cases ownName token with
          | error f => rfl
          | ok name =>
            simp only [Outcome.ok_bind]
            split
            · rfl
            · cases score var n token (normalized name) <;> rfl

/-- A match is the best token in doubles, with its confidence rounded to four places. -/
theorem matchVariable_bestMatch {var : Datum} {n : String} (hn : ownName var = .ok n)
    {tokens : List Datum} (h : ∀ t ∈ tokens, t.isRecord = true) :
    matchVariable var (.ok tokens) =
      (fun best => report var best.1 (Decimal.roundTo 4 best.2)) <$> bestMatch doubles var tokens := by
  obtain ⟨sorted, hsorted, -⟩ := byNames_inNameOrder h
  rw [matchVariable_eq hn hsorted, bestMatch, hn, hsorted, Outcome.ok_bind, Outcome.ok_bind,
    searchIn_doubles]

end Maquette.Token
