/-
When the set of tokens of a design has the shape that it is checked for. The tokens themselves and
their graph always do, but for a variable without a name and with an empty id; the nodes that use a
token are listed by their ids, so a node that uses one has to have an id.
-/
import Maquette.Proofs.Token.Gather

namespace Maquette

open Outline (IsText IsListOf)

namespace Token

/-! ## Names -/

/-- The name that a variable goes by. -/
def nameOf (id var : Datum) : Datum := ((var.at? "name").getD .null).orElse id

/-- The names of variables by their ids. -/
def namesOf (vars : Variables) : Table Datum Datum := vars.map fun row => (row.1, nameOf row.1 row.2)

/-- Names that could be told are those of records. -/
theorem variableNames_eq {vars : Variables} {names : Table Datum Datum}
    (h : TokenSet.variableNames vars = .ok names) :
    (∀ row ∈ vars, row.2.isRecord = true) ∧ names = namesOf vars := by
  refine Outcome.mapM_inv h ?_
  rintro ⟨id, var⟩ r hr
  obtain ⟨name, hname, hr⟩ := Outcome.bind_ok hr
  cases hr
  obtain ⟨hrecord, rfl⟩ := Datum.get_ok hname
  exact ⟨hrecord, rfl⟩

theorem namesOf_text {vars : Variables} {table : Table Datum Datum} (hw : AreWorded vars table) :
    ∀ row ∈ namesOf vars, IsText row.2 := by
  intro row hrow
  obtain ⟨⟨id, var⟩, hmem, rfl⟩ := List.mem_map.1 hrow
  exact Datum.orElse_of (hw.entries _ hmem "name" (by simp)).getD (hw.ids _ hmem)

theorem lookup_names {vars : Variables} (hids : ∀ row ∈ vars, IsText row.1) (id : String) :
    List.lookup (.text id) (namesOf vars) =
      (List.lookup (.text id) vars).map (nameOf (.text id)) := by
  unfold namesOf
  induction vars with
  | nil => rfl
  | cons row vars ih =>
    obtain ⟨hrow, hrest⟩ := List.forall_mem_cons.1 hids
    obtain ⟨s, hs⟩ := Outline.eq_text hrow
    rw [List.map_cons, List.lookup_cons, List.lookup_cons, hs, ih hrest]
    cases hk : (Datum.text id == Datum.text s) with
    | true =>
      rw [Datum.text_same.1 hk]
      rfl
    | false => rfl

/-- Where all variables are records, the one with an id is what is found under it. -/
theorem lookup_entry {vars : Variables} (hrecords : ∀ row ∈ vars, row.2.isRecord = true)
    (id : String) : List.lookup (.text id) vars = entry vars id := by
  unfold entry
  cases hl : List.lookup (.text id) vars with
  | none => rfl
  | some var =>
    obtain ⟨k, -, hmem⟩ := Table.mem_of_lookup hl
    obtain ⟨fields, rfl⟩ := Datum.eq_record (hrecords _ hmem)
    rfl

/-- A variable goes by an empty name only if its id is empty and it has no other name. -/
theorem nameOf_ne_empty {var : Datum} (hvar : var.Part "name" IsText) {id : String} :
    nameOf (.text id) var ≠ .text "" ↔
      (id = "" → ∃ name, name ≠ "" ∧ var.at? "name" = some (.text name)) := by
  cases hp : var.at? "name" with
  | none => simp [nameOf, hp, Datum.orElse, Datum.isTruthy]
  | some v =>
    obtain ⟨name, rfl⟩ := Outline.eq_text (hvar v hp)
    by_cases hn : name = ""
    · simp [nameOf, hp, Datum.orElse, Datum.isTruthy, hn]
    · simp [nameOf, hp, Datum.orElse, Datum.isTruthy, hn]

/-- All variables go by a name unless one with an empty id has none. -/
theorem named_iff {vars : Variables} {table : Table Datum Datum} (hw : AreWorded vars table)
    (hrecords : ∀ row ∈ vars, row.2.isRecord = true) :
    (∀ row ∈ vars, (List.lookup row.1 (namesOf vars)).getD .null ≠ .text "") ↔
      ∀ var, entry vars "" = some var → ∃ name, name ≠ "" ∧ var.at? "name" = some (.text name) := by
  have hentry : ∀ {id var}, entry vars id = some var →
      (.text id, var) ∈ vars ∧ var.Part "name" IsText := by
    intro id var h
    obtain ⟨k, hk, hmem⟩ := Table.mem_of_lookup ((lookup_entry hrecords id).trans h)
    rw [Datum.text_same.1 hk] at hmem
    exact ⟨hmem, hw.entries _ hmem "name" (by simp)⟩
  constructor
  · intro h var hvar
    obtain ⟨hmem, hname⟩ := hentry hvar
    have hne := h _ hmem
    rw [lookup_names hw.ids, lookup_entry hrecords, hvar] at hne
    exact (nameOf_ne_empty hname).1 hne rfl
  · intro h row hrow
    obtain ⟨id, hid⟩ := Outline.eq_text (hw.ids row hrow)
    rw [hid, lookup_names hw.ids, lookup_entry hrecords]
    cases hvar : entry vars id with
    | none => simp
    | some var =>
      refine (nameOf_ne_empty (hentry hvar).2).2 ?_
      rintro rfl
      exact h var hvar

/-! ## Use -/

/-- The variables that the properties of a layer are bound to. -/
def boundTo (layer : Datum) : List Datum :=
  boundIds (((layer.at? "boundVariables").getD .null).orElse .empty)

/-- The users of all tokens are texts. -/
def UsedByTexts (usage : Table String (List Datum)) : Prop :=
  ∀ row ∈ usage, ∀ user ∈ row.2, IsText user

/-- A node is added to the users unless it is one of them. -/
theorem added_texts {users : List Datum} {node : Datum} :
    (∀ user ∈ if users.any (·.same node) then users else users ++ [node], IsText user) ↔
      (∀ user ∈ users, IsText user) ∧ IsText node := by
  split
  · rename_i hany
    refine ⟨fun h => ⟨h, ?_⟩, And.left⟩
    -- what is the same as a text is this text
    obtain ⟨user, huser, hsame⟩ := List.any_eq_true.1 hany
    obtain ⟨s, rfl⟩ := Outline.eq_text (h user huser)
    rw [Datum.text_same.1 hsame]
    rfl
  · rw [List.forall_mem_append, List.forall_mem_singleton]

theorem addUse_texts {usage : Table String (List Datum)} {token : String} {node : Datum} :
    UsedByTexts (addUse usage token node) ↔ UsedByTexts usage ∧ IsText node :=
  Table.forall_set_iff (Q := fun users : List Datum => ∀ user ∈ users, IsText user)
    (List.forall_mem_nil _) added_texts

/-- A node that uses a token has a text for its id. -/
def IsKnownUser (names : Table Datum Datum) (node : Datum) : Prop :=
  ∀ id ∈ boundTo node, (names.lookup id).isSome = true → IsText ((node.at? "id").getD .null)

theorem usesOf_texts {names : Table Datum Datum} {usage usage' : Table String (List Datum)}
    {node : Datum} (h : usesOf names usage node = .ok usage') :
    UsedByTexts usage' ↔ UsedByTexts usage ∧ IsKnownUser names node := by
  obtain ⟨bindings, hb, h⟩ := Outcome.bind_ok h
  obtain ⟨-, rfl⟩ := Datum.get_ok hb
  -- each variable that the node is bound to adds the condition on the node's id
  refine Outcome.foldlM_iff (fun usage id usage' h => ?_) h
  obtain ⟨key, hkey, h⟩ := Outcome.bind_ok h
  rw [Datum.asKey_ok hkey] at h
  cases hl : names.lookup id with
  | none => rw [hl] at h; cases h; simp
  | some name =>
    rw [hl] at h
    obtain ⟨user, huser, h⟩ := Outcome.bind_ok h
    cases h
    rw [addUse_texts, (Datum.get_ok huser).2]
    simp

theorem usageOf_texts {names : Table Datum Datum} {walks : List Walked}
    {usage : Table String (List Datum)} (h : usageOf names walks = .ok usage) :
    UsedByTexts usage ↔ ∀ w ∈ walks, ∀ row ∈ w.nodes, IsKnownUser names row.1 := by
  have hstart : UsedByTexts [] := by simp [UsedByTexts]
  rw [← and_iff_right (a := UsedByTexts []) (b := ∀ w ∈ walks, _) hstart]
  refine Outcome.foldlM_iff (fun usage w usage' h => ?_) h
  obtain ⟨last, hlast, h⟩ := Outcome.bind_ok h
  unfold Walked.finish at h
  split at h
  · cases h
  · cases h
    exact Outcome.foldlM_iff (fun usage row usage' h => usesOf_texts h) hlast

/-! ## Shapes -/

open Check

theorem edge_passes {e : TokenEdge} (he : e.IsTyped) : Schema.tokenEdge (edgeDatum e) = [] := by
  obtain ⟨source, hsource⟩ := Outline.eq_text he.source
  obtain ⟨target, htarget⟩ := Outline.eq_text he.target
  simp [Schema.tokenEdge, edgeDatum, model, Field.issues, need, List.lookup, under, hsource, htarget,
    oneOf_text he.relationship]

/-- A table of values by mode. -/
theorem values_pass {values : Table Datum Datum}
    (h : ∀ row ∈ values, IsText row.1 ∧ IsValue row.2) :
    tableOf Schema.tokenValue (.ofTable values) = [] := by
  refine tableOf_eq_nil.2 fun row hrow => ?_
  obtain ⟨entry, hentry, rfl⟩ := List.mem_map.1 hrow
  exact (h entry hentry).2

theorem optional_fits {fields : List Field} {key : String} {d : Option Datum}
    (h : ∀ v ∈ d, IsText v)
    (hf : (fields.find? (·.key == key)).map Field.check = some (Check.optional text)) :
    Fits fields (optional key d) := by
  cases d with
  | none => exact Fits.nil
  | some v => exact Fits.single (optional_eq_nil (h v rfl).passes) hf

theorem tokenFields_plain (odd : List OddKey) : Plain (Schema.tokenFields odd) := by
  constructor
  · simp [Schema.tokenFields, need, may, maybe]
  · simp [Schema.tokenFields, need, may, maybe]

/-- A token has the shape of one as soon as it has a name. -/
theorem token_eq_nil {t : Token} (ht : t.IsTyped) :
    Schema.token [] t.toDatum = [] ↔ t.name ≠ "" := by
  have hname : nonEmptyText (.text t.name) = [] ↔ t.name ≠ "" := by simp [nonEmptyText, offence]
  rw [← hname]
  constructor
  · intro h
    exact ((model_eq_nil (tokenFields_plain [])).1 h (need "name" nonEmptyText)
      (by simp [Schema.tokenFields])).2 _ rfl
  · intro h
    refine model_passes (tokenFields_plain []) ?_ ?_
    · simp [Schema.tokenFields, need, may, maybe, List.lookup]
    · refine Fits.append (Fits.append (Fits.append ?_ (optional_fits ht.collection rfl))
        (optional_fits ht.description rfl)) (optional_fits ht.aliasOf rfl)
      exact Fits.cons h rfl <| Fits.cons (c := Check.optional text) rfl rfl <|
        Fits.cons ht.value rfl <| Fits.cons (oneOf_text ht.kind) rfl <|
        Fits.cons (c := tableWith [] Schema.tokenValue)
          (by rw [tableWith_nil]; exact values_pass ht.modes) rfl <|
        Fits.single (optional_eq_nil ht.variableId.passes) rfl

end Token

/-! ## Sets of tokens -/

theorem Schema.validate_ok {kind : DocumentKind} {c : Check} {d : Datum} :
    validate kind c d = .ok () ↔ c d = [] := by
  unfold validate
  cases c d <;> simp

namespace TokenSet

open Check
open Token (AreVariables AreWorded IsValue UsedByTexts IsKnownUser boundTo entry namesOf)

theorem tokensFields_plain (odd : List OddKey) : Plain (Schema.tokensFields odd) := by
  constructor
  · simp [Schema.tokensFields, need, may]
  · simp [Schema.tokensFields, need, may]

theorem oddModes_nil {s : TokenSet} (h : ∀ row ∈ s.modeValues, IsText row.1) : s.oddModes = [] := by
  refine List.filter_eq_nil_iff.2 fun mode hmode => ?_
  obtain ⟨row, hrow, rfl⟩ := List.mem_map.1 hmode
  simpa [IsText] using h row hrow

theorem modeValues_pass {values : Table Datum (Table String Datum)}
    (h : ∀ row ∈ values, IsText row.1 ∧ ∀ cell ∈ row.2, IsValue cell.2) :
    tableOf (tableOf Schema.tokenValue)
      (.ofTable (values.map fun (mode, row) => (mode, .record row))) = [] := by
  refine tableOf_eq_nil.2 fun field hfield => ?_
  obtain ⟨entry, hentry, rfl⟩ := List.mem_map.1 hfield
  obtain ⟨row, hrow, rfl⟩ := List.mem_map.1 hentry
  exact tableOf_eq_nil.2 (h row hrow).2

theorem graph_passes {tokens : List Token} {edges : List TokenEdge} (he : ∀ e ∈ edges, e.IsTyped) :
    Schema.tokenGraph (.record [("nodes", .list (tokens.map fun t => .text t.name)),
      ("edges", .list (edges.map Token.edgeDatum))]) = [] := by
  have hnodes : listOf text (.list (tokens.map fun t => .text t.name)) = [] :=
    listOf_eq_nil.2 (by simp)
  have hedges : listOf Schema.tokenEdge (.list (edges.map Token.edgeDatum)) = [] := by
    refine listOf_eq_nil.2 fun d hd => ?_
    obtain ⟨e, hmem, rfl⟩ := List.mem_map.1 hd
    exact Token.edge_passes (he e hmem)
  simp [Schema.tokenGraph, model, Field.issues, may, List.lookup, under, hnodes, hedges]

theorem usage_eq_nil {usage : Table String (List Datum)} :
    tableOf (listOf text) (.record (usage.map fun (name, users) => (name, .list users))) = [] ↔
      UsedByTexts usage := by
  have htext : ∀ d, text d = [] ↔ IsText d := by
    intro d
    cases d <;> simp [text, offence, IsText, Datum.isText]
  simp only [tableOf_eq_nil, List.forall_mem_map, listOf_eq_nil, htext]
  rfl

/-- A set whose parts are of their kinds has the shape of one as soon as its tokens have names and
their users are texts. -/
theorem validateTokenSet_ok {s : TokenSet}
    (hs : Gathered.IsTyped ⟨s.tokens, s.modeValues, s.edges⟩) : Schema.validateTokenSet s = .ok () ↔
      (∀ t ∈ s.tokens, t.name ≠ "") ∧ UsedByTexts s.usage := by
  rw [Schema.validateTokenSet, oddModes_nil fun row hrow => (hs.modeValues row hrow).1,
    Schema.validate_ok, List.map_nil, ← usage_eq_nil]
  have htokens : listOf (Schema.token []) (.list (s.tokens.map Token.toDatum)) = [] ↔
      ∀ t ∈ s.tokens, t.name ≠ "" := by
    rw [listOf_eq_nil, List.forall_mem_map]
    exact forall₂_congr fun t ht => Token.token_eq_nil (hs.tokens t ht)
  rw [← htokens]
  constructor
  · intro h
    have hall := (model_eq_nil (tokensFields_plain [])).1 h
    exact ⟨(hall (may "tokens" (listOf (Schema.token []))) (by simp [Schema.tokensFields])).2 _ rfl,
      (hall (may "tokenUsage" (tableOf (listOf text))) (by simp [Schema.tokensFields])).2 _ rfl⟩
  · rintro ⟨h, husage⟩
    refine model_passes (tokensFields_plain []) ?_ ?_
    · simp [Schema.tokensFields, need, may, List.lookup]
    · exact Fits.cons (c := text) rfl rfl <| Fits.cons h rfl <|
        Fits.cons (c := tableWith [] (tableOf Schema.tokenValue))
          (by rw [tableWith_nil]; exact modeValues_pass hs.modeValues) rfl <|
        Fits.cons (graph_passes hs.edges) rfl <|
        Fits.single husage rfl

/-! ## Building -/

/-- A layer uses a token when one of its properties is bound to a variable of the table. -/
def Uses (vars : Token.Variables) (layer : Datum) : Prop := ∃ row ∈ vars, row.1 ∈ boundTo layer

theorem isKnownUser_iff {vars : Token.Variables} (hids : ∀ row ∈ vars, IsText row.1)
    {layer : Datum} : IsKnownUser (namesOf vars) layer ↔
      (Uses vars layer → ∃ id, layer.at? "id" = some (.text id)) := by
  have hid : IsText ((layer.at? "id").getD .null) ↔ ∃ id, layer.at? "id" = some (.text id) := by
    cases layer.at? "id" with
    | none => simp [IsText, Datum.isText]
    | some v => cases v <;> simp [IsText, Datum.isText]
  rw [IsKnownUser, hid]
  constructor
  · rintro h ⟨row, hrow, hbound⟩
    refine h row.1 hbound ?_
    obtain ⟨id, hid⟩ := Outline.eq_text (hids row hrow)
    rw [hid, Token.lookup_names hids, Option.isSome_map, Option.isSome_iff_ne_none, Ne,
      List.lookup_eq_none_iff]
    intro hnone
    have hdiffers := hnone row hrow
    rw [hid] at hdiffers
    simp [bne, Datum.text_same.2 (rfl : Datum.text id = .text id)] at hdiffers
  · intro h id hbound hsome
    obtain ⟨name, hname⟩ := Option.isSome_iff_exists.1 hsome
    obtain ⟨k, hk, hmem⟩ := Table.mem_of_lookup hname
    obtain ⟨row, hrow, heq⟩ := List.mem_map.1 hmem
    cases heq
    obtain ⟨s, hs⟩ := Outline.eq_text (hids row hrow)
    rw [hs, Datum.same_text] at hk
    exact h ⟨row, hrow, by rw [hs, ← hk]; exact hbound⟩

section Build

variable {vars : Token.Variables} {table : Table Datum Datum} {walks : List Walked} {maxDepth : Datum}
  {s : TokenSet} {ns : List Notice}

/-- What building a set of tokens returns. -/
theorem build_typed (hv : AreVariables vars) (hw : AreWorded vars table)
    (h : (build vars (.ok table) (.ok walks) maxDepth).exec = (.ok s, ns)) :
    Gathered.IsTyped ⟨s.tokens, s.modeValues, s.edges⟩ ∧ (∀ row ∈ vars, row.2.isRecord = true) ∧
      (s.tokens.map (.text ·.name) =
        vars.map fun row => (List.lookup row.1 (namesOf vars)).getD .null) ∧
      (UsedByTexts s.usage ↔ ∀ w ∈ walks, ∀ row ∈ w.nodes,
        Uses vars row.1 → ∃ id, row.1.at? "id" = some (.text id)) := by
  obtain ⟨names, hnames, h⟩ := Run.after_lift_bind_ok h
  obtain ⟨g, ns', hg, h⟩ := Run.after_bind_ok h
  obtain ⟨derived, hderived, h⟩ := Run.after_lift_bind_ok h
  obtain ⟨walks', hwalks, h⟩ := Run.after_lift_bind_ok h
  obtain ⟨usage, husage, h⟩ := Run.after_lift_bind_ok h
  rw [← Except.ok.inj hwalks] at husage
  cases h
  obtain ⟨hrecords, rfl⟩ := Token.variableNames_eq hnames
  obtain ⟨hg, htokens⟩ := readVariables_typed hv hw rfl (Token.namesOf_text hw) hg
  refine ⟨⟨hg.tokens, hg.modeValues, fun e he => ?_⟩, hrecords, htokens, ?_⟩
  · rcases List.mem_append.1 he with he | he
    · exact hg.edges e he
    · exact derivedEdges_typed hderived e he
  · rw [Token.usageOf_texts husage]
    simp only [isKnownUser_iff hw.ids]

end Build

/-! ## A card with and without an id -/

/-- A variable with one mode. -/
def accent : Datum := .record [("name", .text "accent"), ("valuesByMode", .record [("m", .text "x")])]

def accentVariables : Token.Variables := [(.text "V:1", accent)]

/-- A card whose fills are bound to the variable. -/
def boundCard (id : Option String) : Datum :=
  .record (Token.optional "id" (id.map .text) ++
    [("name", .text "Card"), ("boundVariables", .record
      [("fills", .record [("type", .text "VARIABLE_ALIAS"), ("id", .text "V:1")])])])

/-- The set of tokens in which the variable has some users. -/
def accentSet (users : List Datum) : TokenSet :=
  { tokens := [{ name := "accent", semanticName := "accent", value := .text "x", kind := "other",
                 modes := [(.text "m", .text "x")], variableId := .text "V:1", collection := none,
                 description := none, aliasOf := none }]
    modeValues := [(.text "m", [("accent", .text "x")])]
    edges := []
    usage := [("accent", users)] }

theorem areVariables_accent : AreVariables accentVariables := by
  intro row hrow
  obtain rfl := List.mem_singleton.1 hrow
  refine .inr ⟨rfl, rfl, rfl, fun value hvalue ha => ?_⟩
  obtain rfl := List.mem_singleton.1 hvalue
  cases ha

theorem areWorded_accent : AreWorded accentVariables [] := by
  refine ⟨?_, ?_, by simp, by simp⟩
  · intro row hrow
    obtain rfl := List.mem_singleton.1 hrow
    rfl
  · intro row hrow key hkey v hv
    obtain rfl := List.mem_singleton.1 hrow
    simp only [List.mem_cons, List.not_mem_nil, or_false] at hkey
    rcases hkey with rfl | rfl <;> cases hv
    rfl

theorem isDesign_card : Outline.IsDesign (boundCard none) := by
  refine ⟨rfl, rfl, fun row hrow => ?_⟩
  obtain rfl := List.mem_singleton.1 hrow
  constructor
  case record => rfl
  case word =>
    intro key hkey v hv
    simp only [Outline.layerWords, List.mem_cons, List.not_mem_nil, or_false] at hkey
    rcases hkey with rfl | rfl | rfl | rfl | rfl | rfl | rfl | rfl | rfl | rfl <;> cases hv
    rfl
  case measure =>
    intro key hkey v hv
    simp only [Outline.layerMeasures, List.mem_cons, List.not_mem_nil, or_false] at hkey
    rcases hkey with rfl | rfl | rfl | rfl | rfl <;> cases hv
  case vectorPaths =>
    intro key hkey v hv
    simp only [List.mem_cons, List.not_mem_nil, or_false] at hkey
    rcases hkey with rfl | rfl <;> cases hv
  case bindings =>
    intro v hv
    cases hv
    refine ⟨_, rfl, fun row hrow => ?_⟩
    obtain rfl := List.mem_singleton.1 hrow
    refine ⟨fun v hv => ?_, fun refs hrefs => by cases hrefs⟩
    cases hv
    rfl
  all_goals
    intro v hv
    cases hv

theorem walked_card (id : Option String) :
    Walked.ofDatum (boundCard id) = ⟨[(boundCard id, 0)], none⟩ := by
  cases id with
  | none => exact Walked.ofDatum_tree rfl rfl rfl
  | some id => exact Walked.ofDatum_tree rfl rfl rfl

/-- The tables that the variable is read with. -/
def accentContext : Context :=
  ⟨accentVariables, .ok [], Token.defaultMaxDepth, [(.text "V:1", .text "accent")]⟩

theorem resolve_accent : Token.resolve accentVariables (.ok []) Token.defaultMaxDepth (.text "V:1")
    (.text "m") = pure ⟨.text "x", true, [.text "V:1"]⟩ := by
  obtain ⟨fresh, -, h⟩ := Token.resolve_seek areVariables_accent [] "V:1" "m" rfl
  exact (h 10).trans (Token.seek_value rfl)

theorem readMode_accent :
    readMode accentContext ⟨.text "V:1", .text "accent", [], .text "m"⟩
        (⟨[], [], []⟩, ⟨[], .null⟩) "m" (.text "x") =
      pure (⟨[], (accentSet []).modeValues, []⟩, ⟨[(.text "m", .text "x")], .text "x"⟩) := by
  unfold readMode
  simp only [accentContext, resolve_accent]
  rfl

theorem readVariable_accent : readVariable accentContext ⟨[], [], []⟩ (.text "V:1") accent =
    pure ⟨(accentSet []).tokens, (accentSet []).modeValues, []⟩ := by
  show ((readMode accentContext ⟨.text "V:1", .text "accent", [], .text "m"⟩
    (⟨[], [], []⟩, ⟨[], .null⟩) "m" (.text "x") >>= pure) >>= _ : Run Gathered) = _
  rw [readMode_accent]
  rfl

theorem build_accent (id : Option String) :
    (build accentVariables (.ok []) (.ok [Walked.ofDatum (boundCard id)])
      Token.defaultMaxDepth).exec = (.ok (accentSet [(id.map .text).getD .null]), []) := by
  rw [walked_card]
  show ((readVariable accentContext ⟨[], [], []⟩ (.text "V:1") accent >>= pure) >>= _ :
    Run TokenSet).exec = _
  rw [readVariable_accent]
  cases id <;> rfl

end TokenSet

end Maquette
