/-
A variable matched with a token of its own name and kind. The kinds are compared before the names, and
every kind goes with itself but those of bare numbers: a variable that is a bare number is matched with
spacings, sizes, radii and unknown kinds alone. Where the kinds go together, the token ends the search
with full confidence, if no earlier token with the variable's normalized name does and none before it
has a fault.
-/
import Maquette.Proofs.Token.Best

namespace Maquette.Token

open Decimal

/-! ## Kinds -/

/-- The kind of a variable or a token, empty when it has none. -/
def ownKind (d : Datum) : Outcome String := do (← d.fieldOr "type" (.text "")).textOrEmpty

/-- A kind of bare numbers. -/
def IsBare (kind : String) : Prop := Text.lower kind = "float" ∨ Text.lower kind = "number"

/-- A kind goes with itself, in any letter case, unless it is one of bare numbers. -/
theorem areCompatible_self {kind kind' : String} (h : Text.lower kind' = Text.lower kind) :
    areCompatible kind kind' = true ↔ ¬ IsBare kind := by
  unfold areCompatible IsBare
  rw [h]
  generalize Text.lower kind = k
  by_cases hk : k ∈ knownKinds
  · simp only [knownKinds, List.mem_cons, List.not_mem_nil, or_false] at hk
    rcases hk with rfl | rfl | rfl | rfl | rfl | rfl | rfl | rfl | rfl | rfl | rfl <;> decide
  · have hunknown : (!knownKinds.contains k || !knownKinds.contains k) = true := by simpa using hk
    simp only [hunknown, if_true, true_iff, not_or]
    constructor <;> (rintro rfl; exact hk (by decide))

/-! ## Tokens of the variable's name -/

section Same

variable {var : Datum} {variableName : String}

theorem verdict_eq (token : Datum) : verdict var variableName token = (do
    let kind ← ownKind var
    let tokenKind ← ownKind token
    if !areCompatible kind tokenKind then return .apart
    let tokenName := normalized (← ownName token)
    if tokenName != "" && tokenName == variableName then return .same
    return .scored (← score var variableName token tokenName)) := by
  unfold verdict ownKind
  cases var.fieldOr "type" (.text "") <;> cases token.fieldOr "type" (.text "") <;> rfl

/-- A token of a kind that does not go with the variable's. -/
theorem verdict_apart {token : Datum} {kind tokenKind : String} (hkind : ownKind var = .ok kind)
    (htokenKind : ownKind token = .ok tokenKind) (h : areCompatible kind tokenKind = false) :
    verdict var variableName token = .ok .apart := by
  rw [verdict_eq, hkind, htokenKind, Outcome.ok_bind, Outcome.ok_bind, h]
  rfl

/-- A token has the variable's name where their kinds go together and its normalized name is the
variable's and not empty. -/
theorem verdict_same_iff {token : Datum} : verdict var variableName token = .ok .same ↔
    (∃ kind tokenKind, ownKind var = .ok kind ∧ ownKind token = .ok tokenKind ∧
      areCompatible kind tokenKind = true) ∧
    ∃ name, ownName token = .ok name ∧ normalized name ≠ "" ∧ normalized name = variableName := by
  rw [verdict_eq]
  constructor
  · intro h
    obtain ⟨kind, hkind, h⟩ := Outcome.bind_ok h
    obtain ⟨tokenKind, htokenKind, h⟩ := Outcome.bind_ok h
    split at h
    · cases h
    · rename_i hcompatible
      obtain ⟨name, hname, h⟩ := Outcome.bind_ok h
      simp only at h
      split at h
      · rename_i hsame
        rw [Bool.and_eq_true, bne_iff_ne, beq_iff_eq] at hsame
        exact ⟨⟨kind, tokenKind, hkind, htokenKind, by simpa using hcompatible⟩, name, hname, hsame⟩
      · obtain ⟨s, -, h⟩ := Outcome.bind_ok h
        cases h
  · rintro ⟨⟨kind, tokenKind, hkind, htokenKind, hcompatible⟩, name, hname, hne, hsame⟩
    have hequal : (normalized name != "" && normalized name == variableName) = true := by
      rw [Bool.and_eq_true, bne_iff_ne, beq_iff_eq]
      exact ⟨hne, hsame⟩
    simp only [hkind, htokenKind, hname, Outcome.ok_bind, hcompatible, Bool.not_true,
      Bool.false_eq_true, if_false, hequal, if_true]
    rfl

/-- Where a token has the variable's name, the search ends with such a token, or with the fault of a
token before it. -/
theorem Ends.of_same {tokens : List Datum} {outcome : Outcome Best}
    (h : Ends var variableName tokens outcome) {token : Datum} (hmem : token ∈ tokens)
    (hv : verdict var variableName token = .ok .same) :
    (∃ found ∈ tokens, verdict var variableName found = .ok .same ∧ outcome = .ok (some found, 1.0)) ∨
    ∃ t ∈ tokens, ∃ f, verdict var variableName t = .error f ∧ outcome = .error f := by
  cases h with
  | @same before after found htokens hpassed hfound =>
    exact .inl ⟨found, by simp [htokens], hfound, rfl⟩
  | best hpassed hleads =>
    -- a token with the variable's name is gone past by no search
    obtain ⟨v, hv', hne⟩ := hpassed token hmem
    rw [hv] at hv'
    cases hv'
    exact absurd rfl hne
  | @fault before after t f htokens hpassed hfault =>
    exact .inr ⟨t, by simp [htokens], f, hfault, rfl⟩

end Same

/-! ## Matches with the variable's own name -/

/-- Among tokens of which one has the variable's name and kind, in any letter case of the kind, the
variable is matched with full confidence with a token of its normalized name. Only a token that cannot
be compared keeps it from that, and in plain data this is one with a number that is too large. The
kinds of bare numbers are the exception: a variable of such a kind passes over the tokens of its own. -/
theorem matchVariable_reflexive {var token : Datum} {n kind tokenKind : String} {tokens : List Datum}
    (hn : ownName var = .ok n) (hne : normalized n ≠ "") (hkind : ownKind var = .ok kind)
    (hrecords : ∀ t ∈ tokens, t.isRecord = true) (hmem : token ∈ tokens)
    (hname : fieldOf token "name" = fieldOf var "name") (htokenKind : ownKind token = .ok tokenKind)
    (hcase : Text.lower tokenKind = Text.lower kind) :
    (¬ IsBare kind →
      (∃ found ∈ tokens, ∃ m, ownName found = .ok m ∧ normalized m = normalized n ∧
        matchVariable var (.ok tokens) = .ok (report var (some found) 1.0)) ∨
      ∃ t ∈ tokens, ∃ f, verdict var (normalized n) t = .error f ∧
        matchVariable var (.ok tokens) = .error f ∧
        (IsPlain var → (∀ t ∈ tokens, IsPlain t) → f = .tooLarge)) ∧
    (IsBare kind → verdict var (normalized n) token = .ok .apart) := by
  have hself := areCompatible_self hcase
  constructor
  · intro hbare
    obtain ⟨sorted, hsorted, horder⟩ := byNames_inNameOrder hrecords
    have hown : ownName token = .ok n := by
      have htext := (ownName_record hn).2
      unfold fieldOf at hname htext
      unfold ownName
      rw [Datum.fieldOr_eq (hrecords token hmem), Outcome.ok_bind, hname, htext]
    have hsame : verdict var (normalized n) token = .ok .same :=
      verdict_same_iff.2 ⟨⟨kind, tokenKind, hkind, htokenKind, hself.2 hbare⟩, n, hown, hne, rfl⟩
    have hends : Ends var (normalized n) sorted (search var (normalized n) (none, 0.0) sorted) :=
      search_ends sorted
    rw [matchVariable_eq hn hsorted]
    rcases hends.of_same (horder.perm.mem_iff.2 hmem) hsame with
      ⟨found, hfound, hv, hsearch⟩ | ⟨t, ht, f, hfault, hsearch⟩
    · obtain ⟨-, m, hm, -, hnormal⟩ := verdict_same_iff.1 hv
      refine .inl ⟨found, horder.perm.mem_iff.1 hfound, m, hm, hnormal, ?_⟩
      have hround : roundTo 4 1.0 = 1.0 := by decide
      rw [hsearch]
      show Except.ok (report var (some found) (roundTo 4 1.0)) = _
      rw [hround]
    · have ht := horder.perm.mem_iff.1 ht
      refine .inr ⟨t, ht, f, hfault, by rw [hsearch]; rfl, fun hvar hplain => ?_⟩
      exact verdict_fault hvar (hplain t ht) hfault
  · intro hbare
    refine verdict_apart hkind htokenKind ?_
    rw [← Bool.not_eq_true, hself]
    exact not_not.2 hbare

/-- A gap of some kind and size. -/
def gap (kind : String) (size : Datum) : Datum :=
  .record [("name", .text "Gap/M"), ("type", .text kind), ("value", size)]

theorem normalized_gap : normalized "Gap/M" = "gap-m" := by decide

/-- A spacing is matched with the token of its name; a token of another one stands before it. -/
theorem matchVariable_reflexive_gap :
    ∃ found ∈ [waters "Depth", gap "SPACING" (.text "16px")], ∃ m, ownName found = .ok m ∧
      normalized m = normalized "Gap/M" ∧
      matchVariable (gap "spacing" (.text "16px"))
        (.ok [waters "Depth", gap "SPACING" (.text "16px")]) =
          .ok (report (gap "spacing" (.text "16px")) (some found) 1.0) := by
  have hrecords : ∀ t ∈ [waters "Depth", gap "SPACING" (.text "16px")], t.isRecord = true := by
    decide
  have hne : normalized "Gap/M" ≠ "" := by
    rw [normalized_gap]
    decide
  have hbare : ¬ IsBare "spacing" := by
    unfold IsBare
    decide
  have hname : ownName (gap "spacing" (.text "16px")) = .ok "Gap/M" := rfl
  have hreflexive := (matchVariable_reflexive hname hne rfl hrecords
    (List.mem_cons_of_mem _ List.mem_cons_self) rfl rfl (by decide)).1 hbare
  rcases hreflexive with hfound | ⟨t, ht, f, hfault, -⟩
  · exact hfound
  · rw [normalized_gap] at hfault
    rcases List.mem_cons.1 ht with rfl | ht
    · cases hfault
    · obtain rfl := List.mem_singleton.1 ht
      cases hfault

/-- A spacing of a size that has no double, whose name comes before that of the gap. -/
def vast : Datum :=
  .record [("name", .text "Depth"), ("type", .text "spacing"), ("value", .int (10 ^ 400))]

/-- A number that has no double cannot be compared. -/
theorem quantity_tooLarge {m : ℤ} (h : (Decimal.ofInt? m).isNone = true) :
    quantity (.int m) = .error .tooLarge := by
  have hfloat : (Number.int m).toFloat = .error .tooLarge := by
    unfold Number.toFloat
    simp only [Option.isNone_iff_eq_none.1 h]
  unfold quantity
  simp only [hfloat]
  rfl

theorem verdict_vast : verdict (gap "spacing" (.text "16px")) "gap-m" vast = .error .tooLarge := by
  have hcompatible : areCompatible "spacing" "spacing" = true := by decide
  have hnamed : normalized "Depth" = "depth" := by decide
  have hnumeric : numericSimilarity (.text "16px") (.int (10 ^ 400)) = .error .tooLarge := by
    have hsize : ∃ q, quantity (.text "16px") = .ok (some q) := ⟨_, rfl⟩
    obtain ⟨q, hq⟩ := hsize
    unfold numericSimilarity
    rw [hq, quantity_tooLarge (by decide +kernel)]
    rfl
  have hscore : score (gap "spacing" (.text "16px")) "gap-m" vast "depth" = .error .tooLarge := by
    have hcolor : colorSimilarity (.text "16px") (.int (10 ^ 400)) = .ok none := rfl
    unfold score
    rw [show (gap "spacing" (.text "16px")).get "value" = .ok (.text "16px") from rfl,
      show vast.get "value" = .ok (.int (10 ^ 400)) from rfl, Outcome.ok_bind, Outcome.ok_bind,
      hcolor, Outcome.ok_bind]
    simp only [hnumeric]
    rfl
  rw [verdict_eq, show ownKind vast = .ok "spacing" from rfl,
    show ownKind (gap "spacing" (.text "16px")) = .ok "spacing" from rfl,
    show ownName vast = .ok "Depth" from rfl]
  simp only [Outcome.ok_bind, hcompatible, Bool.not_true, Bool.false_eq_true, if_false, hnamed]
  rw [if_neg (by decide), hscore]
  rfl

/-- A bare number is not matched with the very same token, and a token with a number that is too large
comes before the one of the variable's name. -/
theorem matchVariable_bare :
    normalized "Gap/M" ≠ "" ∧
    matchVariable (gap "float" (.text "16px")) (.ok [gap "float" (.text "16px")]) =
      .ok (report (gap "float" (.text "16px")) none 0.0) ∧
    matchVariable (gap "spacing" (.text "16px")) (.ok [vast, gap "spacing" (.text "16px")]) =
      .error .tooLarge := by
  have hsorted : ∀ {tokens : List Datum}, (∀ t ∈ tokens, t.isRecord = true) →
      (tokens.Pairwise fun a b => decide (sortName a ≤ sortName b) = true) →
      byNames tokens = .ok tokens := by
    intro tokens hrecords hpairs
    rw [byNames_eq hrecords, List.mergeSort_of_pairwise hpairs]
  have hkind : ownKind (gap "float" (.text "16px")) = .ok "float" := rfl
  refine ⟨by rw [normalized_gap]; decide, ?_, ?_⟩
  · rw [matchVariable_eq (n := "Gap/M") rfl (hsorted (by decide) (List.pairwise_singleton _ _)),
      normalized_gap, search_cons, verdict_apart hkind hkind (by decide)]
    have hzero : roundTo 4 0.0 = 0.0 := by decide +kernel
    show Except.ok (report _ none (roundTo 4 0.0)) = _
    rw [hzero]
  · rw [matchVariable_eq (n := "Gap/M") rfl (hsorted (by decide) (by decide)), normalized_gap,
      search_cons, verdict_vast]
    rfl

end Maquette.Token
