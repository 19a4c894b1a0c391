/-
What a match is. Tokens are taken in the order of their names, and the search keeps the first one that
has the greatest score so far: every token before it scores less and none after it scores more. A token
with the variable's own name ends the search and overrides what was kept.

The order of the tokens only counts among equal names, and the greatest score only grows with more
tokens; since no score exceeds one, a token with the variable's name lowers nothing either.
-/
import Maquette.Proofs.Token.Score

namespace Maquette.Token

open Decimal

/-! ## Tokens in the order of their names -/

/-- A field of a variable or a token, empty when it is not there. -/
def fieldOf (d : Datum) (key : String) : Datum := (d.at? key).getD (.text "")

/-- The name by which a token is put in order. -/
def sortName (t : Datum) : String := (fieldOf t "name").shown

/-- The same tokens in ascending order of their names, those of one name in the order given. -/
structure InNameOrder (tokens sorted : List Datum) : Prop where
  perm : sorted.Perm tokens
  ascending : sorted.Pairwise fun a b => sortName a ≤ sortName b
  stable : ∀ name, sorted.filter (sortName · == name) = tokens.filter (sortName · == name)

section Order

variable {tokens tokens' sorted sorted' : List Datum}

theorem byNames_eq (h : ∀ t ∈ tokens, t.isRecord = true) :
    byNames tokens = .ok (tokens.mergeSort fun a b => decide (sortName a ≤ sortName b)) := by
  have hnamed : tokens.mapM (fun t => return ((← t.fieldOr "name" (.text "")).shown, t)) =
      (.ok (tokens.map fun t => (sortName t, t)) : Outcome _) := by
    refine Outcome.mapM_ok fun t ht => ?_
    obtain ⟨fields, rfl⟩ := Datum.eq_record (h t ht)
    rfl
  unfold byNames
  rw [hnamed, Outcome.ok_bind, Outcome.pure_eq]
  congr 1
  rw [← List.map_mergeSort (r := fun a b => decide (sortName a ≤ sortName b)) fun _ _ _ _ => rfl,
    List.map_map]
  exact List.map_id _

theorem byNames_inNameOrder (h : ∀ t ∈ tokens, t.isRecord = true) :
    ∃ sorted, byNames tokens = .ok sorted ∧ InNameOrder tokens sorted := by
  have htrans : ∀ a b c : Datum, decide (sortName a ≤ sortName b) = true →
      decide (sortName b ≤ sortName c) = true → decide (sortName a ≤ sortName c) = true := by
    intro a b c hab hbc
    exact decide_eq_true (String.le_trans (of_decide_eq_true hab) (of_decide_eq_true hbc))
  have htotal : ∀ a b : Datum,
      (decide (sortName a ≤ sortName b) || decide (sortName b ≤ sortName a)) = true := by
    intro a b
    simpa using String.le_total (sortName a) (sortName b)
  refine ⟨_, byNames_eq h, List.mergeSort_perm _ _, ?_, fun name => ?_⟩
  · exact (List.pairwise_mergeSort htrans htotal tokens).imp of_decide_eq_true
  · -- the tokens of one name stand in order already, so they stay as they are
    refine filter_mergeSort htrans htotal (fun a b ha hb => ?_) tokens
    rw [beq_iff_eq.1 ha, beq_iff_eq.1 hb]
    exact decide_eq_true (String.le_refl name)

/-- Tokens with different names have one order. -/
theorem InNameOrder.unique (h : InNameOrder tokens sorted) (h' : InNameOrder tokens' sorted')
    (hperm : tokens.Perm tokens') (hd : (tokens.map sortName).Nodup) : sorted = sorted' := by
  refine List.Perm.eq_of_pairwise ?_ h.ascending h'.ascending
    (h.perm.trans (hperm.trans h'.perm.symm))
  intro a b ha hb hab hba
  exact List.inj_on_of_nodup_map hd (h.perm.mem_iff.1 ha)
    (hperm.mem_iff.2 (h'.perm.mem_iff.1 hb)) (String.le_antisymm hab hba)

end Order

/-! ## Verdicts -/

/-- What a token is to a variable. -/
inductive Verdict where
  /-- The kinds do not go together. -/
  | apart
  /-- The token has the variable's normalized name. -/
  | same
  | scored (score : Float)

/-- The name of a variable or a token, empty when it has none. -/
def ownName (d : Datum) : Outcome String := do (← d.fieldOr "name" (.text "")).textOrEmpty

/-- What a token is to a variable of the given normalized name. -/
def verdict (var : Datum) (variableName : String) (token : Datum) : Outcome Verdict := do
  let kind ← (← var.fieldOr "type" (.text "")).textOrEmpty
  let tokenKind ← (← token.fieldOr "type" (.text "")).textOrEmpty
  if !areCompatible kind tokenKind then return .apart
  let tokenName := normalized (← ownName token)
  if tokenName != "" && tokenName == variableName then return .same
  return .scored (← score var variableName token tokenName)

/-- A step of the search is a verdict on the next token. -/
theorem search_cons (var : Datum) (variableName : String) (best : Best) (token : Datum)
    (rest : List Datum) : search var variableName best (token :: rest) =
      (do
        match ← verdict var variableName token with
        | .apart => search var variableName best rest
        | .same => return (some token, 1.0)
        | .scored s => search var variableName (if best.2 < s then (some token, s) else best) rest) := by
  rw [search]
  unfold verdict ownName
  cases var.fieldOr "type" (.text "") with
  | error f => rfl
  | ok kind =>
    simp only [Outcome.ok_bind]
    cases kind.textOrEmpty with
    | error f => rfl
    | ok kind =>
      simp only [Outcome.ok_bind]
      cases token.fieldOr "type" (.text "") with
      | error f => rfl
      | ok tokenKind =>
        simp only [Outcome.ok_bind]
        cases tokenKind.textOrEmpty with
        | error f => rfl
        | ok tokenKind =>
          simp only [Outcome.ok_bind]
          split
          · rfl
          · cases token.fieldOr "name" (.text "") with
            | error f => rfl
            | ok name =>
              simp only [Outcome.ok_bind]
              cases name.textOrEmpty with
              | error f => rfl
              | ok name =>
                simp only [Outcome.ok_bind]
                split
                · rfl
                · cases score var variableName token (normalized name) <;> rfl

/-! ## The search -/

section Search

variable {var : Datum} {variableName : String}

/-- The search goes past a token. -/
def GonePast (var : Datum) (variableName : String) (token : Datum) : Prop :=
  ∃ v, verdict var variableName token = .ok v ∧ v ≠ .same

/-- `Leads tokens best`: of the tokens gone past, the best one is the first that has the greatest
score; none is kept while no score is positive. -/
inductive Leads (var : Datum) (variableName : String) : List Datum → Best → Prop
  | nothing {tokens : List Datum} :
      (∀ t ∈ tokens, ∀ s, verdict var variableName t = .ok (.scored s) → ¬ 0 < s) →
      Leads var variableName tokens (none, 0.0)
  | first {before after : List Datum} {token : Datum} {s : Float} :
      verdict var variableName token = .ok (.scored s) → 0 < s →
      (∀ t ∈ before, ∀ s', verdict var variableName t = .ok (.scored s') → s' < s) →
      (∀ t ∈ after, ∀ s', verdict var variableName t = .ok (.scored s') → s' ≤ s) →
      Leads var variableName (before ++ token :: after) (some token, s)

/-- What the search comes to: a token with the variable's name, found before any fault; else the token
with the best score, or none; or the first fault. -/
inductive Ends (var : Datum) (variableName : String) (tokens : List Datum) : Outcome Best → Prop
  | same {before after : List Datum} {token : Datum} : tokens = before ++ token :: after →
      (∀ t ∈ before, GonePast var variableName t) → verdict var variableName token = .ok .same →
      Ends var variableName tokens (.ok (some token, 1.0))
  | best {best : Best} : (∀ t ∈ tokens, GonePast var variableName t) →
      Leads var variableName tokens best → Ends var variableName tokens (.ok best)
  | fault {before after : List Datum} {token : Datum} {f : Fault} : tokens = before ++ token :: after →
      (∀ t ∈ before, GonePast var variableName t) → verdict var variableName token = .error f →
      Ends var variableName tokens (.error f)

theorem verdict_scored {token : Datum} {s : Float}
    (h : verdict var variableName token = .ok (.scored s)) : s ≤ 1 := by
  unfold verdict at h
  obtain ⟨kind, -, h⟩ := Outcome.bind_ok h
  obtain ⟨kind, -, h⟩ := Outcome.bind_ok h
  obtain ⟨tokenKind, -, h⟩ := Outcome.bind_ok h
  obtain ⟨tokenKind, -, h⟩ := Outcome.bind_ok h
  split at h
  · cases h
  · obtain ⟨name, -, h⟩ := Outcome.bind_ok h
    simp only at h
    split at h
    · cases h
    · obtain ⟨s', hs, h⟩ := Outcome.bind_ok h
      cases h
      exact score_le_one hs

/-- A token whose kind goes with the variable's has a name once it has a verdict. -/
theorem verdict_named {token : Datum} {v : Verdict} (h : verdict var variableName token = .ok v)
    (hv : v ≠ .apart) : ∃ name, ownName token = .ok name := by
  unfold verdict at h
  obtain ⟨kind, -, h⟩ := Outcome.bind_ok h
  obtain ⟨kind, -, h⟩ := Outcome.bind_ok h
  obtain ⟨tokenKind, -, h⟩ := Outcome.bind_ok h
  obtain ⟨tokenKind, -, h⟩ := Outcome.bind_ok h
  split at h
  · cases h
    exact absurd rfl hv
  · obtain ⟨name, hname, -⟩ := Outcome.bind_ok h
    exact ⟨name, hname⟩

/-- One more token that is gone past. -/
theorem Leads.step {before : List Datum} {best : Best} (h : Leads var variableName before best)
    {token : Datum} {s : Float} (hs : verdict var variableName token = .ok (.scored s)) :
    Leads var variableName (before ++ [token]) (if best.2 < s then (some token, s) else best) := by
  have hranked := (ne_none_of_le (verdict_scored hs)).1
  have honly : ∀ s', verdict var variableName token = .ok (.scored s') → s' = s := by
    intro s' hs'
    rw [hs] at hs'
    cases hs'
    rfl
  cases h with
  | nothing hnone =>
    split
    · -- the first score above zero
      have hpos : 0 < s := lt_of_le_of_lt (by decide : (0 : Float) ≤ 0.0) (by assumption)
      refine .first hs hpos (fun t ht s' hs' => ?_) (by simp)
      have hle := le_of_not_lt (by decide) (ne_none_of_le (verdict_scored hs')).1
        (hnone t ht s' hs')
      exact lt_of_le_of_lt hle hpos
    · refine .nothing (List.forall_mem_append.2 ⟨hnone, List.forall_mem_singleton.2 ?_⟩)
      intro s' hs' hpos
      rw [honly s' hs'] at hpos
      exact absurd (lt_of_le_of_lt (by decide : (0.0 : Float) ≤ 0) hpos) (by assumption)
  | @first before after best score hscore hpos hbefore hafter =>
    have hscored := (ne_none_of_le (verdict_scored hscore)).1
    split
    · -- a score above the best one so far
      have hlt : score < s := by assumption
      refine .first hs (lt_trans hpos hlt) (fun t ht s' hs' => ?_) (by simp)
      rcases List.mem_append.1 ht with ht | ht
      · exact lt_trans (hbefore t ht s' hs') hlt
      · rcases List.mem_cons.1 ht with rfl | ht
        · rw [hscore] at hs'
          cases hs'
          exact hlt
        · exact lt_of_le_of_lt (hafter t ht s' hs') hlt
    · have hle := le_of_not_lt hscored hranked (by assumption)
      rw [List.append_assoc, List.cons_append]
      refine .first hscore hpos hbefore (List.forall_mem_append.2 ⟨hafter, ?_⟩)
      rintro t ht s' hs'
      obtain rfl := List.mem_singleton.1 ht
      rw [honly s' hs']
      exact hle

/-- A token that is no candidate changes nothing. -/
theorem Leads.skip {before : List Datum} {best : Best} (h : Leads var variableName before best)
    {token : Datum} (hs : ∀ s, verdict var variableName token ≠ .ok (.scored s)) :
    Leads var variableName (before ++ [token]) best := by
  cases h with
  | nothing hnone =>
    exact .nothing (List.forall_mem_append.2
      ⟨hnone, List.forall_mem_singleton.2 fun s' hs' => absurd hs' (hs s')⟩)
  | first hscore hpos hbefore hafter =>
    rw [List.append_assoc, List.cons_append]
    exact .first hscore hpos hbefore (List.forall_mem_append.2
      ⟨hafter, List.forall_mem_singleton.2 fun s' hs' => absurd hs' (hs s')⟩)

/-- The search, from the tokens it has gone past already. -/
theorem search_ends_from {before : List Datum} {best : Best}
    (hpassed : ∀ t ∈ before, GonePast var variableName t) (h : Leads var variableName before best)
    (rest : List Datum) :
    Ends var variableName (before ++ rest) (search var variableName best rest) := by
  induction rest generalizing before best with
  | nil =>
    rw [List.append_nil, search]
    exact .best hpassed h
  | cons token rest ih =>
    rw [search_cons]
    have hpassed' : ∀ v, verdict var variableName token = .ok v → v ≠ .same →
        ∀ t ∈ before ++ [token], GonePast var variableName t := fun v hv hne =>
      List.forall_mem_append.2 ⟨hpassed, List.forall_mem_singleton.2 ⟨v, hv, hne⟩⟩
    cases hv : verdict var variableName token with
    | error f => exact .fault rfl hpassed hv
    | ok v =>
      rw [Outcome.ok_bind]
      cases v with
      | apart =>
        rw [List.append_cons]
        exact ih (hpassed' _ hv (by simp)) (h.skip (by simp [hv]))
      | same => exact .same rfl hpassed hv
      | scored s =>
        rw [List.append_cons]
        exact ih (hpassed' _ hv (by simp)) (h.step hv)

theorem search_ends (tokens : List Datum) :
    Ends var variableName tokens (search var variableName (none, 0.0) tokens) :=
  search_ends_from (List.forall_mem_nil _) (.nothing (List.forall_mem_nil _)) tokens

/-! ## Faults -/

/-- A variable or a token whose name and kind are texts and whose value is no color record, as far as
it has them. -/
structure IsPlain (d : Datum) : Prop where
  record : d.isRecord = true
  name : ∀ v, d.at? "name" = some v → v.isText = true
  type : ∀ v, d.at? "type" = some v → v.isText = true
  value : ∀ v, d.at? "value" = some v → Color.isRecord v = false

theorem textOrEmpty_ok {d : Datum} {key : String}
    (h : ∀ v, d.at? key = some v → v.isText = true) : ∃ s, (fieldOf d key).textOrEmpty = .ok s := by
  unfold fieldOf
  cases hv : d.at? key with
  | none => exact ⟨"", rfl⟩
  | some v =>
    have htext := h v hv
    cases v with
    | text s =>
      by_cases hs : (Datum.text s).isTruthy = true <;>
        simp [Datum.textOrEmpty, hs, Datum.textMember]
    | _ => cases htext

/-- A plain token is without a verdict only where a number is too large. -/
theorem verdict_fault {token : Datum} {f : Fault} (hvar : IsPlain var) (htoken : IsPlain token)
    (h : verdict var variableName token = .error f) : f = .tooLarge := by
  obtain ⟨kind, hkind⟩ := textOrEmpty_ok hvar.type
  obtain ⟨tokenKind, htokenKind⟩ := textOrEmpty_ok htoken.type
  obtain ⟨name, hname⟩ := textOrEmpty_ok htoken.name
  unfold fieldOf at hkind htokenKind hname
  unfold verdict ownName at h
  simp only [Datum.fieldOr_eq hvar.record, Datum.fieldOr_eq htoken.record, Outcome.ok_bind, hkind,
    htokenKind, hname] at h
  split at h
  · cases h
  · split at h
    · cases h
    · rcases Outcome.bind_error h with h | ⟨s, -, h⟩
      · exact score_fault hvar.record htoken.record hvar.value htoken.value h
      · cases h

/-! ## Confidence -/

variable {tokens tokens' : List Datum} {best best' : Best}

theorem Ends.named (h : Ends var variableName tokens (.ok best)) :
    ∀ token ∈ best.1, ∃ name, ownName token = .ok name := by
  intro token hmem
  cases h with
  | same _ _ hv =>
    cases hmem
    exact verdict_named hv (by simp)
  | best _ hleads =>
    cases hleads with
    | nothing => cases hmem
    | first hv =>
      cases hmem
      exact verdict_named hv (by simp)

theorem Ends.unit (h : Ends var variableName tokens (.ok best)) : 0 ≤ best.2 ∧ best.2 ≤ 1 := by
  cases h with
  | same =>
    have hone : (0 : Float) ≤ 1.0 ∧ (1.0 : Float) ≤ 1 := by decide
    exact hone
  | best _ hleads =>
    cases hleads with
    | nothing => exact ⟨by decide, by decide⟩
    | first hv hpos => exact ⟨le_of_lt hpos, verdict_scored hv⟩

/-- With more tokens a search ends with no smaller score. -/
theorem Ends.mono (h : Ends var variableName tokens (.ok best))
    (h' : Ends var variableName tokens' (.ok best')) (hsub : tokens ⊆ tokens') : best.2 ≤ best'.2 := by
  cases h' with
  | same =>
    have hone : (1 : Float) ≤ 1.0 := by decide
    exact le_trans h.unit.2 hone
  | best hpassed hleads =>
    cases h with
    | @same before after token htokens _ hv =>
      -- a token with the variable's name is gone past by no search
      obtain ⟨v, hv', hne⟩ := hpassed token (hsub (by simp [htokens]))
      rw [hv] at hv'
      cases hv'
      exact absurd rfl hne
    | best hpassed' hleads' =>
      cases hleads' with
      | nothing =>
        exact le_trans (by decide : (0.0 : Float) ≤ 0) (Ends.best hpassed hleads).unit.1
      | @first before after token s hv hpos _ _ =>
        have hmem : token ∈ tokens' := hsub (by simp)
        cases hleads with
        | nothing hnone => exact absurd hpos (hnone token hmem s hv)
        | @first _ _ token' s' hv' _ hbefore hafter =>
          rcases List.mem_append.1 hmem with hmem | hmem
          · exact le_of_lt (hbefore token hmem s hv)
          · rcases List.mem_cons.1 hmem with rfl | hmem
            · rw [hv] at hv'
              cases hv'
              exact le_self (ne_none_of_le (verdict_scored hv)).1
            · exact hafter token hmem s hv

end Search

/-! ## Matches -/

/-- What a match tells of its token. -/
def described (token : Datum) : Datum :=
  .record [("name", fieldOf token "name"), ("value", fieldOf token "value"),
    ("type", fieldOf token "type"), ("cssVar", .text (cssVar ((ownName token).toOption.getD "")))]

/-- A match of a variable with a token or with none, with its confidence. -/
def report (var : Datum) (token : Option Datum) (confidence : Float) : Datum :=
  .record [("figmaVarName", fieldOf var "name"), ("figmaVarId", fieldOf var "id"),
    ("matchedToken", (token.map described).getD .null), ("confidence", .float confidence)]

section Matches

variable {var : Datum} {n : String} {tokens sorted : List Datum}

theorem ownName_record {d : Datum} {name : String} (h : ownName d = .ok name) :
    d.isRecord = true ∧ (fieldOf d "name").textOrEmpty = .ok name := by
  cases d with
  | record fields => exact ⟨rfl, h⟩
  | _ => cases h

theorem matchedToken_eq {token : Datum} {name : String} (h : ownName token = .ok name) :
    matchedToken token = .ok (described token) := by
  obtain ⟨hrecord, hname⟩ := ownName_record h
  unfold fieldOf at hname
  unfold matchedToken described
  rw [h]
  simp only [Datum.fieldOr_eq hrecord, Outcome.ok_bind, hname]
  rfl

theorem matchVariable_eq (hn : ownName var = .ok n) (hsorted : byNames tokens = .ok sorted) :
    matchVariable var (.ok tokens) = (fun best => report var best.1 (roundTo 4 best.2)) <$>
      search var (normalized n) (none, 0.0) sorted := by
  obtain ⟨hrecord, hname⟩ := ownName_record hn
  have hends : Ends var (normalized n) sorted _ := search_ends sorted
  unfold fieldOf at hname
  unfold matchVariable
  simp only [Datum.fieldOr_eq hrecord, Outcome.ok_bind, hname, hsorted]
  cases hbest : search var (normalized n) (none, 0.0) sorted with
  | error f => rfl
  | ok best =>
    rw [hbest] at hends
    obtain ⟨token, confidence⟩ := best
    cases token with
    | none => rfl
    | some token =>
      obtain ⟨name, hnamed⟩ := hends.named token rfl
      have hmatched : (some token).mapM matchedToken = .ok (some (described token)) := by
        show some <$> matchedToken token = _
        rw [matchedToken_eq hnamed]
        rfl
      rw [Outcome.ok_bind]
      simp only [hmatched, Outcome.ok_bind]
      rfl

theorem InNameOrder.subset {tokens' sorted' : List Datum} (h : InNameOrder tokens sorted)
    (h' : InNameOrder tokens' sorted') (hsub : tokens ⊆ tokens') : sorted ⊆ sorted' :=
  fun _ ht => h'.perm.mem_iff.2 (hsub (h.perm.mem_iff.1 ht))

/-- A match is the best token in the order of names. Different names make it independent of the order
in which the tokens are given, and more tokens never make its confidence less. -/
theorem matchVariable_best (hn : ownName var = .ok n) :
    (∀ tokens, (∀ t ∈ tokens, t.isRecord = true) → ∃ sorted outcome, InNameOrder tokens sorted ∧
      Ends var (normalized n) sorted outcome ∧
      matchVariable var (.ok tokens) =
        (fun best => report var best.1 (roundTo 4 best.2)) <$> outcome ∧
      ((∀ t ∈ tokens, ∃ v, verdict var (normalized n) t = .ok v) → ∃ best, outcome = .ok best) ∧
      (IsPlain var → (∀ t ∈ tokens, IsPlain t) → ∀ f, outcome = .error f → f = .tooLarge)) ∧
    (roundTo 4 1.0 = 1.0 ∧ roundTo 4 0.0 = 0.0) ∧
    (∀ tokens tokens', (∀ t ∈ tokens, t.isRecord = true) → (tokens.map sortName).Nodup →
      tokens.Perm tokens' → matchVariable var (.ok tokens) = matchVariable var (.ok tokens')) ∧
    (∀ tokens tokens' found found' c c', (∀ t ∈ tokens', t.isRecord = true) → tokens ⊆ tokens' →
      matchVariable var (.ok tokens) = .ok found → matchVariable var (.ok tokens') = .ok found' →
      found.at? "confidence" = some (.float c) → found'.at? "confidence" = some (.float c') →
      c ≤ c') := by
  refine ⟨fun tokens hrecords => ?_, by decide +kernel, ?_, ?_⟩
  · obtain ⟨sorted, hsorted, horder⟩ := byNames_inNameOrder hrecords
    have hends : Ends var (normalized n) sorted _ := search_ends sorted
    refine ⟨sorted, _, horder, hends, matchVariable_eq hn hsorted, fun hverdicts => ?_,
      fun hvar hplain f hf => ?_⟩
    · cases hends' : search var (normalized n) (none, 0.0) sorted with
      | ok best => exact ⟨best, rfl⟩
      | error f =>
        rw [hends'] at hends
        cases hends with
        | @fault before after token f htokens _ hv =>
          obtain ⟨v, hv'⟩ := hverdicts token (horder.perm.mem_iff.1 (by simp [htokens]))
          rw [hv] at hv'
          cases hv'
    · rw [hf] at hends
      cases hends with
      | @fault before after token f htokens _ hv =>
        exact verdict_fault hvar (hplain token (horder.perm.mem_iff.1 (by simp [htokens]))) hv
  · intro tokens tokens' hrecords hnames hperm
    obtain ⟨sorted, hsorted, horder⟩ := byNames_inNameOrder hrecords
    obtain ⟨sorted', hsorted', horder'⟩ :=
      byNames_inNameOrder fun t ht => hrecords t (hperm.mem_iff.2 ht)
    rw [matchVariable_eq hn hsorted, matchVariable_eq hn hsorted',
      horder.unique horder' hperm hnames]
  · intro tokens tokens' found found' c c' hrecords hsub hfound hfound' hc hc'
    obtain ⟨sorted, hsorted, horder⟩ := byNames_inNameOrder fun t ht => hrecords t (hsub ht)
    obtain ⟨sorted', hsorted', horder'⟩ := byNames_inNameOrder hrecords
    rw [matchVariable_eq hn hsorted] at hfound
    rw [matchVariable_eq hn hsorted'] at hfound'
    obtain ⟨best, hbest, rfl⟩ := Outcome.map_ok_inv hfound
    obtain ⟨best', hbest', rfl⟩ := Outcome.map_ok_inv hfound'
    cases hc
    cases hc'
    have hends : Ends var (normalized n) sorted _ := search_ends sorted
    have hends' : Ends var (normalized n) sorted' _ := search_ends sorted'
    rw [hbest] at hends
    rw [hbest'] at hends'
    exact roundTo_mono 4 (isFinite_of_unit hends.unit.1 hends.unit.2)
      (isFinite_of_unit hends'.unit.1 hends'.unit.2)
      (hends.mono hends' (horder.subset horder' hsub))

end Matches

/-! ## Two tokens of one score -/

/-- A variable for a color. -/
def primary : Datum :=
  .record [("id", .text "V:1"), ("name", .text "Brand/Primary"), ("type", .text "color"),
    ("value", .text "#336699")]

/-- A token with the color and another name. -/
def waters (name : String) : Datum :=
  .record [("name", .text name), ("type", .text "color"), ("value", .text "#336699")]

/-- Both tokens score the same, and either order of them gives the same match. -/
theorem matchVariable_tied :
    (∃ sorted best, InNameOrder [waters "ocean", waters "lake"] sorted ∧
      Ends primary "brand-primary" sorted (.ok best) ∧
      matchVariable primary (.ok [waters "ocean", waters "lake"]) =
        .ok (report primary best.1 (roundTo 4 best.2))) ∧
    matchVariable primary (.ok [waters "ocean", waters "lake"]) =
      matchVariable primary (.ok [waters "lake", waters "ocean"]) := by
  have hname : ownName primary = .ok "Brand/Primary" := rfl
  have hnormal : normalized "Brand/Primary" = "brand-primary" := by decide +kernel
  obtain ⟨hmatch, -, hperm, -⟩ := matchVariable_best hname
  rw [hnormal] at hmatch
  have hrecords : ∀ t ∈ [waters "ocean", waters "lake"], t.isRecord = true := by decide
  have hverdicts : ∀ t ∈ [waters "ocean", waters "lake"],
      ∃ v, verdict primary "brand-primary" t = .ok v := by
    intro t ht
    rcases List.mem_cons.1 ht with rfl | ht
    · exact ⟨_, rfl⟩
    · obtain rfl := List.mem_singleton.1 ht
      exact ⟨_, rfl⟩
  obtain ⟨sorted, outcome, horder, hends, heq, hfound, -⟩ := hmatch _ hrecords
  obtain ⟨best, rfl⟩ := hfound hverdicts
  exact ⟨⟨sorted, best, horder, hends, heq⟩,
    hperm _ _ hrecords (by decide +kernel) (.swap _ _ _)⟩

end Maquette.Token
