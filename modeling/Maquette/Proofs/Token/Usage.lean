/-
Which nodes use a token. A node uses the tokens of the variables that its bindings refer to, at any
depth; tokens are listed under the names of variables, so variables of one name share a list. Every use
is logged in the order of the walks, and what is listed for a name is the log of this name, each node
where it is met first.
-/
import Maquette.Proofs.Scene.Shared
import Maquette.Proofs.Token.SetShape

namespace Maquette

open Outline (IsText)

/-! ## First occurrences -/

section FirstOccurrences

variable {α β : Type} [DecidableEq α]

theorem eraseDups_filter (p : α → Bool) :
    ∀ l : List α, (l.filter p).eraseDups = l.eraseDups.filter p
  | [] => rfl
  | a :: l => by
    have hlt : (l.filter fun b => !b == a).length < l.length + 1 :=
      Nat.lt_succ_of_le (List.length_filter_le ..)
    rw [List.eraseDups_cons, List.filter_cons, List.filter_cons, ← eraseDups_filter,
      List.filter_comm]
    split
    · rw [List.eraseDups_cons]
    · -- the first item has gone, and with it all that are equal to it
      rename_i ha
      congr 1
      refine (List.filter_eq_self.2 fun b hb => ?_).symm
      have hp := (List.mem_filter.1 hb).2
      simp only [Bool.not_eq_true', beq_eq_false_iff_ne]
      rintro rfl
      exact ha hp
termination_by l => l.length

theorem nodup_eraseDups : ∀ l : List α, l.eraseDups.Nodup
  | [] => List.nodup_nil
  | a :: l => by
    have hlt : (l.filter fun b => !b == a).length < l.length + 1 :=
      Nat.lt_succ_of_le (List.length_filter_le ..)
    rw [List.eraseDups_cons]
    exact List.nodup_cons.2 ⟨by simp [List.mem_eraseDups], nodup_eraseDups _⟩
termination_by l => l.length

/-- What occurs first in two lists one after the other depends on what occurs first in each. -/
theorem eraseDups_append_congr {a a' b b' : List α} (ha : a.eraseDups = a'.eraseDups)
    (hb : b.eraseDups = b'.eraseDups) : (a ++ b).eraseDups = (a' ++ b').eraseDups := by
  have hsame (x : α) : a.contains x = a'.contains x := by
    rw [Bool.eq_iff_iff, List.contains_iff_mem, List.contains_iff_mem, ← List.mem_eraseDups, ha,
      List.mem_eraseDups]
  have hrest : (b.removeAll a).eraseDups = (b'.removeAll a').eraseDups := by
    unfold List.removeAll
    rw [eraseDups_filter, eraseDups_filter, hb]
    simp only [List.elem_eq_contains, hsame]
  rw [List.eraseDups_append, List.eraseDups_append, ha, hrest]

theorem eraseDups_const {l : List α} {a : α} (h : ∀ b ∈ l, b = a) (hne : l ≠ []) :
    l.eraseDups = [a] := by
  cases l with
  | nil => exact absurd rfl hne
  | cons b l =>
    obtain ⟨rfl, hl⟩ := List.forall_mem_cons.1 h
    rw [List.eraseDups_cons, List.filter_eq_nil_iff.2 fun c hc => by simp [hl c hc], List.eraseDups_nil]

end FirstOccurrences

/-! ## References -/

namespace Token

/-- The fields of a reference: an id, and nothing that says it is of another type. -/
def IsReference (fields : List (String × Datum)) (id : Datum) : Prop :=
  fields.lookup "id" = some id ∧ id.isTruthy = true ∧
    ∀ type, fields.lookup "type" = some type → type = .text "VARIABLE_ALIAS"

/-- A binding refers to an id: it is a reference to it, or a part of it, at any depth, refers to it. A
reference has no parts of this kind. -/
inductive Refers (id : Datum) : Datum → Prop
  | here {fields : List (String × Datum)} : IsReference fields id → Refers id (.record fields)
  | field {fields : List (String × Datum)} {key : String} {d : Datum} :
      (∀ other, ¬ IsReference fields other) → (key, d) ∈ fields → Refers id d →
      Refers id (.record fields)
  | item {items : List Datum} {d : Datum} : d ∈ items → Refers id d → Refers id (.list items)

/-- What `boundIds` tests at a record: whether it is a reference, and to what. -/
theorem isReference_iff {fields : List (String × Datum)} {id : Datum} :
    IsReference fields id ↔ (fields.lookup "id").getD .null = id ∧
      (((fields.lookup "id").getD .null).isTruthy &&
        ((fields.lookup "type").getD (.text "VARIABLE_ALIAS")).isThe "VARIABLE_ALIAS") = true := by
  have htype : ((fields.lookup "type").getD (.text "VARIABLE_ALIAS")).isThe "VARIABLE_ALIAS" = true ↔
      ∀ type, fields.lookup "type" = some type → type = .text "VARIABLE_ALIAS" := by
    cases fields.lookup "type" <;> simp [Datum.isThe_iff]
  rw [Bool.and_eq_true, htype, IsReference]
  cases fields.lookup "id" with
  | none =>
    simp only [reduceCtorEq, false_and, Option.getD_none, false_iff, not_and]
    rintro - h
    cases h
  | some other =>
    rw [Option.getD_some, Option.some.injEq]
    constructor
    · rintro ⟨rfl, h⟩
      exact ⟨rfl, h⟩
    · rintro ⟨rfl, h⟩
      exact ⟨rfl, h⟩

mutual

theorem mem_boundIds {id : Datum} : ∀ {d : Datum}, id ∈ boundIds d ↔ Refers id d
  | .record fields => by
    rw [boundIds]
    split
    · rename_i htest
      rw [List.mem_singleton]
      constructor
      · rintro rfl
        exact .here (isReference_iff.2 ⟨rfl, htest⟩)
      · rintro (href | ⟨hno, -, -⟩)
        · exact (isReference_iff.1 href).1.symm
        · exact absurd (isReference_iff.2 ⟨rfl, htest⟩) (hno _)
    · rename_i htest
      have hno (other : Datum) : ¬ IsReference fields other := fun href =>
        htest (isReference_iff.1 href).2
      rw [mem_boundIdsOfFields]
      constructor
      · rintro ⟨row, hrow, h⟩
        exact .field hno hrow h
      · rintro (href | ⟨-, hrow, h⟩)
        · exact absurd href (hno _)
        · exact ⟨_, hrow, h⟩
  | .list items => by
    rw [boundIds, mem_boundIdsOfItems]
    constructor
    · rintro ⟨d, hd, h⟩
      exact .item hd h
    · intro h
      cases h with
      | item hd h => exact ⟨_, hd, h⟩
  | .null => ⟨fun h => absurd h List.not_mem_nil, nofun⟩
  | .bool _ => ⟨fun h => absurd h List.not_mem_nil, nofun⟩
  | .int _ => ⟨fun h => absurd h List.not_mem_nil, nofun⟩
  | .float _ => ⟨fun h => absurd h List.not_mem_nil, nofun⟩
  | .text _ => ⟨fun h => absurd h List.not_mem_nil, nofun⟩

theorem mem_boundIdsOfItems {id : Datum} : ∀ {items : List Datum},
    id ∈ boundIdsOfItems items ↔ ∃ d ∈ items, Refers id d
  | [] => by simp [boundIdsOfItems]
  | d :: rest => by
    rw [boundIdsOfItems, List.mem_append, mem_boundIds, mem_boundIdsOfItems]
    simp

theorem mem_boundIdsOfFields {id : Datum} : ∀ {fields : List (String × Datum)},
    id ∈ boundIdsOfFields fields ↔ ∃ row ∈ fields, Refers id row.2
  | [] => by simp [boundIdsOfFields]
  | (key, d) :: rest => by
    rw [boundIdsOfFields, List.mem_append, mem_boundIds, mem_boundIdsOfFields]
    simp

end

/-- The properties of a layer refer to an id. -/
def RefersTo (layer id : Datum) : Prop := ∃ d, layer.at? "boundVariables" = some d ∧ Refers id d

theorem Refers.isTruthy {id d : Datum} (h : Refers id d) : d.isTruthy = true := by
  cases h with
  | @here fields href =>
    cases fields with
    | nil => exact absurd href.1 (by simp)
    | cons => rfl
  | @field fields _ _ _ hrow =>
    cases fields with
    | nil => exact absurd hrow List.not_mem_nil
    | cons => rfl
  | @item items _ hd =>
    cases items with
    | nil => exact absurd hd List.not_mem_nil
    | cons => rfl

theorem mem_boundTo {layer id : Datum} : id ∈ boundTo layer ↔ RefersTo layer id := by
  rw [boundTo, RefersTo, mem_boundIds]
  cases hb : layer.at? "boundVariables" with
  | none =>
    simp only [reduceCtorEq, false_and, exists_false, iff_false]
    exact fun h => absurd h.isTruthy (by decide)
  | some d =>
    rw [Option.getD_some, Datum.orElse]
    simp only [Option.some.injEq, exists_eq_left']
    split
    · rfl
    · rename_i hd
      exact ⟨fun h => absurd h.isTruthy (by decide), fun h => absurd h.isTruthy hd⟩

/-! ## Named variables -/

/-- Variables with distinct texts for their ids, which go by texts. -/
structure AreNamed (vars : Variables) : Prop where
  ids : ∀ row ∈ vars, IsText row.1
  distinct : (vars.map Prod.fst).Nodup
  records : ∀ row ∈ vars, row.2.isRecord = true
  names : ∀ row ∈ vars, IsText (nameOf row.1 row.2)

/-- A layer uses a token when its properties refer to a variable of this name. -/
def IsUsedBy (vars : Variables) (token : String) (layer : Datum) : Prop :=
  ∃ id var, RefersTo layer id ∧ (id, var) ∈ vars ∧ nameOf id var = .text token

theorem lookup_namesOf {vars : Variables} (hv : AreNamed vars) {id name : Datum} :
    (namesOf vars).lookup id = some name ↔ ∃ var, (id, var) ∈ vars ∧ name = nameOf id var := by
  constructor
  · intro h
    obtain ⟨k, hk, hmem⟩ := Table.mem_of_lookup h
    obtain ⟨⟨id', var⟩, hrow, heq⟩ := List.mem_map.1 hmem
    obtain ⟨hid, rfl⟩ := Prod.mk.inj heq
    obtain ⟨s, hs⟩ := Outline.eq_text (hv.ids _ hrow)
    obtain rfl : id = id' := by
      rw [← hid] at hk
      rw [show id' = .text s from hs] at hk ⊢
      exact Datum.same_text.1 hk
    exact ⟨var, hrow, rfl⟩
  · rintro ⟨var, hrow, rfl⟩
    obtain ⟨s, rfl⟩ := Outline.eq_text (hv.ids _ hrow)
    rw [lookup_names hv.ids, (Table.lookup_text hv.distinct).2 hrow]
    rfl

/-! ## The log of uses -/

/-- The users that a log has for a token, each where it is met first. -/
def usersIn (log : List (String × String)) (token : String) : List String :=
  ((log.filter (·.1 == token)).map Prod.snd).eraseDups

/-- A table of uses lists what was logged. -/
structure Lists (usage : Table String (List Datum)) (log : List (String × String)) : Prop where
  distinct : (usage.map Prod.fst).Nodup
  found : ∀ token, usage.lookup token =
    if usersIn log token = [] then none else some ((usersIn log token).map .text)

theorem Lists.mem_iff {usage : Table String (List Datum)} {log : List (String × String)}
    (h : Lists usage log) {token : String} {users : List Datum} :
    (token, users) ∈ usage ↔ usersIn log token ≠ [] ∧ users = (usersIn log token).map .text := by
  rw [← Table.lookup_eq_some_iff h.distinct, h.found]
  by_cases hnone : usersIn log token = []
  · simp [hnone]
  · simp [hnone, eq_comm]

/-- The tokens listed are those that are logged with a user. -/
theorem Lists.mem_keys {usage : Table String (List Datum)} {log : List (String × String)}
    (h : Lists usage log) {token : String} :
    token ∈ usage.map Prod.fst ↔ ∃ user, user ∈ usersIn log token := by
  simp [List.mem_map, h.mem_iff, List.eq_nil_iff_forall_not_mem]

theorem mem_usersIn {log : List (String × String)} {token user : String} :
    user ∈ usersIn log token ↔ (token, user) ∈ log := by
  simp [usersIn]

theorem usersIn_snoc_self (log : List (String × String)) (token user : String) :
    usersIn (log ++ [(token, user)]) token =
      if user ∈ usersIn log token then usersIn log token else usersIn log token ++ [user] := by
  simp only [usersIn, List.filter_append, List.map_append, List.eraseDups_append, List.mem_eraseDups]
  generalize (log.filter (·.1 == token)).map Prod.snd = users
  by_cases hu : user ∈ users <;> simp [List.removeAll, hu, List.eraseDups_cons]

theorem usersIn_snoc_ne (log : List (String × String)) {token name user : String} (h : token ≠ name) :
    usersIn (log ++ [(name, user)]) token = usersIn log token := by
  simp [usersIn, List.filter_append, h.symm]

theorem addUse_lists {usage : Table String (List Datum)} {log : List (String × String)}
    (h : Lists usage log) (token user : String) :
    Lists (addUse usage token (.text user)) (log ++ [(token, user)]) := by
  refine ⟨Table.nodup_set h.distinct, fun name => ?_⟩
  by_cases hname : name = token
  · subst hname
    have hbefore : (usage.lookup name).getD [] = (usersIn log name).map .text := by
      rw [h.found]
      split <;> simp [*]
    have hknown : ((usersIn log name).map Datum.text).any (·.same (.text user)) =
        decide (user ∈ usersIn log name) := by
      rw [Bool.eq_iff_iff, List.any_map, List.any_eq_true, decide_eq_true_iff]
      simp [Datum.same, Datum.sameScalar]
    rw [addUse, Table.lookup_set_self, hbefore, hknown, usersIn_snoc_self]
    by_cases hu : user ∈ usersIn log name
    · simp [hu, List.ne_nil_of_mem hu]
    · simp [hu]
  · rw [addUse, Table.lookup_set_ne hname, h.found, usersIn_snoc_ne log hname]

/-! ## The uses by a layer -/

/-- The id of a layer. -/
def idOf (layer : Datum) : String := (((layer.at? "id").getD .null).text?).getD ""

/-- A layer that has an id if it uses a token, and refers to what may be an id. -/
structure IsBindable (vars : Variables) (layer : Datum) : Prop where
  keys : ∀ id, RefersTo layer id → id.isKey = true
  known : ∀ token, IsUsedBy vars token layer → ∃ id, layer.at? "id" = some (.text id)

/-- What a layer is logged with: itself, for each name of a variable that it refers to. -/
def logOf (names : Table Datum Datum) (layer : Datum) : List (String × String) :=
  ((boundTo layer).filterMap fun id => names.lookup id).map fun name => (name.shown, idOf layer)

theorem mem_logOf {vars : Variables} (hv : AreNamed vars) {layer : Datum} {use : String × String} :
    use ∈ logOf (namesOf vars) layer ↔ IsUsedBy vars use.1 layer ∧ use.2 = idOf layer := by
  obtain ⟨token, user⟩ := use
  simp only [logOf, List.mem_map, List.mem_filterMap, lookup_namesOf hv, mem_boundTo, Prod.mk.injEq]
  constructor
  · rintro ⟨name, ⟨id, href, var, hrow, rfl⟩, rfl, rfl⟩
    obtain ⟨name, hname⟩ := Outline.eq_text (hv.names _ hrow)
    exact ⟨⟨id, var, href, hrow, by rw [hname]; rfl⟩, rfl⟩
  · rintro ⟨⟨id, var, href, hrow, hname⟩, rfl⟩
    exact ⟨_, ⟨id, href, var, hrow, rfl⟩, by rw [hname]; rfl, rfl⟩

/-- What layers are logged with are their ids. -/
theorem mem_logs {vars : Variables} (hv : AreNamed vars) {layers : List Datum}
    (hlayers : ∀ layer ∈ layers, IsBindable vars layer) {token user : String} :
    (token, user) ∈ layers.flatMap (logOf (namesOf vars)) ↔ ∃ layer ∈ layers,
      IsUsedBy vars token layer ∧ layer.at? "id" = some (.text user) := by
  rw [List.mem_flatMap]
  refine exists_congr fun layer => and_congr_right fun hlayer => ?_
  rw [mem_logOf hv]
  refine and_congr_right fun hused => ?_
  obtain ⟨id, hid⟩ := (hlayers layer hlayer).known token hused
  rw [idOf, hid]
  simp [Datum.text?, eq_comm]

/-- The uses by a layer are noted with its id, in the order of its references. -/
theorem usesOf_lists {vars : Variables} (hv : AreNamed vars) {layer : Datum}
    (hrecord : layer.isRecord = true) (hl : IsBindable vars layer)
    {usage : Table String (List Datum)} {log : List (String × String)} (h : Lists usage log) :
    ∃ usage', usesOf (namesOf vars) usage layer = .ok usage' ∧
      Lists usage' (log ++ logOf (namesOf vars) layer) := by
  rw [usesOf, Datum.get_eq hrecord, Outcome.ok_bind]
  refine Outcome.exists_foldlM (P := fun ids usage => Lists usage
    (log ++ (ids.filterMap fun id => (namesOf vars).lookup id).map fun name =>
      (name.shown, idOf layer)))
    (fun before id hid usage h => ?_) (by simpa using h)
  have href : RefersTo layer id := mem_boundTo.1 hid
  rw [Datum.asKey_eq (hl.keys id href), Outcome.ok_bind, List.filterMap_append]
  cases hname : (namesOf vars).lookup id with
  | none => exact ⟨usage, rfl, by simpa [hname] using h⟩
  | some name =>
    obtain ⟨var, hrow, rfl⟩ := (lookup_namesOf hv).1 hname
    obtain ⟨token, htoken⟩ := Outline.eq_text (hv.names _ hrow)
    obtain ⟨user, huser⟩ := hl.known token ⟨id, var, href, hrow, htoken⟩
    refine ⟨_, by rw [Datum.get_eq hrecord]; rfl, ?_⟩
    have hid : idOf layer = user := by rw [idOf, huser]; rfl
    simpa [hname, hid, huser] using addUse_lists h _ user

/-! ## The uses by the layers of walks -/

/-- Walks that nothing stops are gone through as one list of layers. -/
theorem usageOf_eq (names : Table Datum Datum) {walks : List Walked}
    (hwalks : ∀ w ∈ walks, w.fault = none) :
    usageOf names walks = (walks.flatMap fun w => w.nodes.map (·.1)).foldlM (usesOf names) [] := by
  unfold usageOf
  generalize ([] : Table String (List Datum)) = usage
  induction walks generalizing usage with
  | nil => rfl
  | cons w walks ih =>
    obtain ⟨hw, hrest⟩ := List.forall_mem_cons.1 hwalks
    have hone : w.foldM (fun usage node _ => usesOf names usage node) usage =
        (w.nodes.map (·.1)).foldlM (usesOf names) usage := by
      rw [List.foldlM_map, Walked.foldM]
      cases h : w.nodes.foldlM (fun usage row => usesOf names usage row.1) usage with
      | error f => rfl
      | ok usage' => rw [Outcome.ok_bind, Walked.finish, hw]
    rw [List.foldlM_cons, hone, List.flatMap_cons, List.foldlM_append]
    exact congrArg _ (funext fun usage => ih hrest usage)

/-- All uses by layers that have what it takes are noted. -/
theorem foldlM_usesOf {vars : Variables} (hv : AreNamed vars) {layers : List Datum}
    (hlayers : ∀ layer ∈ layers, layer.isRecord = true ∧ IsBindable vars layer) :
    ∃ usage, layers.foldlM (usesOf (namesOf vars)) [] = .ok usage ∧
      Lists usage (layers.flatMap (logOf (namesOf vars))) := by
  refine Outcome.exists_foldlM
    (P := fun layers usage => Lists usage (layers.flatMap (logOf (namesOf vars))))
    (fun before layer hlayer usage h => ?_) ⟨List.nodup_nil, fun _ => rfl⟩
  obtain ⟨usage', husage', h'⟩ := usesOf_lists hv (hlayers layer hlayer).1 (hlayers layer hlayer).2 h
  exact ⟨usage', husage', by simpa [List.flatMap_append] using h'⟩

open Classical in
/-- What is listed for a token are the layers that use it, each id where it is met first. -/
theorem usersIn_logs {vars : Variables} (hv : AreNamed vars) (layers : List Datum) (token : String) :
    usersIn (layers.flatMap (logOf (namesOf vars))) token =
      ((layers.filter fun layer => IsUsedBy vars token layer).map idOf).eraseDups := by
  unfold usersIn
  induction layers with
  | nil => rfl
  | cons layer layers ih =>
    -- a layer is logged once for each reference to a variable of the name, always with its id
    have huses : ∀ user ∈ ((logOf (namesOf vars) layer).filter (·.1 == token)).map Prod.snd,
        user = idOf layer := by
      intro user huser
      obtain ⟨use, huse, rfl⟩ := List.mem_map.1 huser
      exact ((mem_logOf hv).1 (List.mem_filter.1 huse).1).2
    rw [List.flatMap_cons, List.filter_append, List.map_append, List.filter_cons]
    by_cases hused : IsUsedBy vars token layer
    · have hne : ((logOf (namesOf vars) layer).filter (·.1 == token)).map Prod.snd ≠ [] := by
        have hmem : (token, idOf layer) ∈ logOf (namesOf vars) layer :=
          (mem_logOf hv).2 ⟨hused, rfl⟩
        exact List.ne_nil_of_mem
          (List.mem_map.2 ⟨_, List.mem_filter.2 ⟨hmem, beq_self_eq_true token⟩, rfl⟩)
      have hone : [idOf layer].eraseDups = [idOf layer] :=
        eraseDups_const (fun user huser => List.mem_singleton.1 huser) (List.cons_ne_nil _ _)
      rw [if_pos (decide_eq_true hused), List.map_cons, ← List.singleton_append]
      exact eraseDups_append_congr ((eraseDups_const huses hne).trans hone.symm) ih
    · have hnone : (logOf (namesOf vars) layer).filter (·.1 == token) = [] := by
        refine List.filter_eq_nil_iff.2 fun use huse heq => hused ?_
        exact beq_iff_eq.1 heq ▸ ((mem_logOf hv).1 huse).1
      rw [if_neg (by simpa using hused), hnone]
      exact ih

end Token

/-! ## The layers of scenes -/

namespace Scene

/-- A graph that begins at one of its nodes, or at nothing. -/
structure IsRooted (s : Scene) : Prop where
  isGraph : s.IsGraph
  root : s.rootData.isTruthy = true → ∃ r < s.nodes.size, s.root = .node r

/-- A node can be reached from the root. -/
def Reaches (s : Scene) (i : Nat) : Prop :=
  s.rootData.isTruthy = true ∧ ∃ r, s.root = .node r ∧ s.Reachable r i

/-- The layers of a scene as the search from its root visits them. -/
def Lays (s : Scene) (layers : List Datum) : Prop :=
  if s.rootData.isTruthy = true then
    ∃ r forest, s.root = .node r ∧ s.Explored r forest ∧
      layers = forest.preorder.map fun v => s.dataAt v.node
  else layers = []

variable {s : Scene} {layers : List Datum}

theorem mem_lays (h : s.Lays layers) {layer : Datum} :
    layer ∈ layers ↔ ∃ i, s.Reaches i ∧ s.dataAt i = layer := by
  unfold Lays at h
  split at h
  · rename_i hroot
    obtain ⟨r, forest, hr, hexplored, rfl⟩ := h
    have hreaches (i : Nat) : s.Reaches i ↔ i ∈ forest.preorder.map Visit.node := by
      rw [mem_explored hexplored, Reaches, hr]
      simp [hroot]
    simp [hreaches]
  · rename_i hroot
    simp [h, Reaches, hroot]

theorem Reaches.lt_size (hs : s.IsRooted) {i : Nat} (h : s.Reaches i) : i < s.nodes.size := by
  obtain ⟨htruthy, r, hr, hi⟩ := h
  obtain ⟨r', hlt, hr'⟩ := hs.root htruthy
  obtain rfl : r = r' := SceneRoot.node.inj (hr.symm.trans hr')
  exact hs.isGraph.reachable_lt hlt hi

theorem exists_lays (hs : s.IsRooted) :
    ∃ layers, s.Lays layers ∧ (Walked.ofScene s).fault = none ∧
      (Walked.ofScene s).nodes.map (·.1) = layers := by
  unfold Lays Walked.ofScene trail
  by_cases htruthy : s.rootData.isTruthy = true
  · obtain ⟨r, hlt, hr⟩ := hs.root htruthy
    obtain ⟨below, hexplored⟩ := exists_explored hs.isGraph hlt
    have htrail := trailFrom_explored hs.isGraph hlt hexplored false
    refine ⟨_, by rw [if_pos htruthy]; exact ⟨r, _, hr, hexplored, rfl⟩, ?_⟩
    simp [htruthy, hr, htrail]
  · exact ⟨[], by rw [if_neg htruthy], by simp [htruthy]⟩

/-- The layers of several scenes, one scene after the other. -/
theorem exists_forall₂_lays {scenes : List Scene} (hs : ∀ s ∈ scenes, s.IsRooted) :
    ∃ layers, List.Forall₂ Lays scenes layers ∧
      (∀ w ∈ scenes.map Walked.ofScene, w.fault = none) ∧
      ((scenes.map Walked.ofScene).flatMap fun w => w.nodes.map (·.1)) = layers.flatten := by
  induction scenes with
  | nil => exact ⟨[], .nil, by simp, rfl⟩
  | cons s scenes ih =>
    obtain ⟨hroot, hrest⟩ := List.forall_mem_cons.1 hs
    obtain ⟨first, hfirst, hfault, hnodes⟩ := exists_lays hroot
    obtain ⟨layers, hlayers, hfaults, hflat⟩ := ih hrest
    refine ⟨first :: layers, .cons hfirst hlayers, List.forall_mem_cons.2 ⟨hfault, hfaults⟩, ?_⟩
    rw [List.map_cons, List.flatMap_cons, hnodes, hflat, List.flatten_cons]

theorem mem_flatten_lays {scenes : List Scene} {layers : List (List Datum)}
    (h : List.Forall₂ Lays scenes layers) {layer : Datum} :
    layer ∈ layers.flatten ↔ ∃ s ∈ scenes, ∃ i, s.Reaches i ∧ s.dataAt i = layer := by
  induction h with
  | nil => simp
  | cons hlays _ ih => simp [mem_lays hlays, ih]

end Scene

namespace Token

theorem build_usage {vars : Variables} {table : Collections} {walks : List Walked} {maxDepth : Datum}
    {set : TokenSet} {ns : List Notice}
    (h : (TokenSet.build vars table (.ok walks) maxDepth).exec = (.ok set, ns)) :
    usageOf (namesOf vars) walks = .ok set.usage := by
  obtain ⟨names, hnames, h⟩ := Run.after_lift_bind_ok h
  obtain ⟨g, ns', -, h⟩ := Run.after_bind_ok h
  obtain ⟨derived, -, h⟩ := Run.after_lift_bind_ok h
  obtain ⟨walks', hwalks, h⟩ := Run.after_lift_bind_ok h
  obtain ⟨usage, husage, h⟩ := Run.after_lift_bind_ok h
  cases h
  rwa [← Except.ok.inj hwalks, (variableNames_eq hnames).2] at husage

open Classical in
/-- The uses of tokens by the layers of scenes: a token has users exactly if a layer that can be
reached uses it, and its users are the ids of these layers, each once, as the searches through the
scenes meet them first. -/
theorem usage_exact {vars : Variables} {scenes : List Scene} (hv : AreNamed vars)
    (hs : ∀ s ∈ scenes, s.IsRooted)
    (hlayers : ∀ s ∈ scenes, ∀ i, s.Reaches i → IsBindable vars (s.dataAt i)) :
    ∃ usage layers, usageOf (namesOf vars) (scenes.map Walked.ofScene) = .ok usage ∧
      (∀ collections maxDepth set ns,
        (TokenSet.build vars collections (.ok (scenes.map Walked.ofScene)) maxDepth).exec =
          (.ok set, ns) → set.usage = usage) ∧
      List.Forall₂ Scene.Lays scenes layers ∧
      (usage.map Prod.fst).Nodup ∧
      (∀ token, token ∈ usage.map Prod.fst ↔
        ∃ s ∈ scenes, ∃ i, s.Reaches i ∧ IsUsedBy vars token (s.dataAt i)) ∧
      ∀ token users, (token, users) ∈ usage →
        users = (((layers.flatten.filter fun layer => IsUsedBy vars token layer).map
          idOf).eraseDups).map .text ∧
        users.Nodup ∧
        ∀ user, user ∈ users ↔ ∃ s ∈ scenes, ∃ i, s.Reaches i ∧
          IsUsedBy vars token (s.dataAt i) ∧ (s.dataAt i).at? "id" = some user := by
  obtain ⟨layers, hlays, hfaults, hflat⟩ := Scene.exists_forall₂_lays hs
  have hbindable : ∀ layer ∈ layers.flatten, layer.isRecord = true ∧ IsBindable vars layer := by
    intro layer hlayer
    obtain ⟨s, hmem, i, hi, rfl⟩ := (Scene.mem_flatten_lays hlays).1 hlayer
    exact ⟨(hs s hmem).isGraph.records i (hi.lt_size (hs s hmem)), hlayers s hmem i hi⟩
  obtain ⟨usage, husage, hlists⟩ := foldlM_usesOf hv hbindable
  rw [← hflat, ← usageOf_eq _ hfaults] at husage
  have hmem {token user : String} :
      user ∈ usersIn (layers.flatten.flatMap (logOf (namesOf vars))) token ↔
        ∃ s ∈ scenes, ∃ i, s.Reaches i ∧ IsUsedBy vars token (s.dataAt i) ∧
          (s.dataAt i).at? "id" = some (.text user) := by
    rw [mem_usersIn, mem_logs hv fun layer hlayer => (hbindable layer hlayer).2]
    constructor
    · rintro ⟨layer, hlayer, hused, hid⟩
      obtain ⟨s, hmem, i, hi, rfl⟩ := (Scene.mem_flatten_lays hlays).1 hlayer
      exact ⟨s, hmem, i, hi, hused, hid⟩
    · rintro ⟨s, hmem, i, hi, hused, hid⟩
      exact ⟨_, (Scene.mem_flatten_lays hlays).2 ⟨s, hmem, i, hi, rfl⟩, hused, hid⟩
  refine ⟨usage, layers, husage, fun table maxDepth set ns h => ?_, hlays, hlists.distinct, ?_, ?_⟩
  case refine_1 => exact Except.ok.inj ((build_usage h).symm.trans husage)
  case refine_2 =>
    intro token
    rw [hlists.mem_keys]
    constructor
    · rintro ⟨user, huser⟩
      obtain ⟨s, hs', i, hi, hused, -⟩ := hmem.1 huser
      exact ⟨s, hs', i, hi, hused⟩
    · rintro ⟨s, hs', i, hi, hused⟩
      obtain ⟨user, hid⟩ := (hlayers s hs' i hi).known token hused
      exact ⟨user, hmem.2 ⟨s, hs', i, hi, hused, hid⟩⟩
  case refine_3 =>
    intro token users hrow
    obtain rfl := (hlists.mem_iff.1 hrow).2
    refine ⟨by rw [usersIn_logs hv], ?_, fun user => ?_⟩
    · exact (nodup_eraseDups _).map fun a b h => Datum.text.inj h
    · rw [List.mem_map]
      constructor
      · rintro ⟨user, huser, rfl⟩
        exact hmem.1 huser
      · rintro ⟨s, hs', i, hi, hused, hid⟩
        obtain ⟨user', hid'⟩ := (hlayers s hs' i hi).known token hused
        obtain rfl := Option.some.inj (hid.symm.trans hid')
        exact ⟨user', hmem.2 ⟨s, hs', i, hi, hused, hid'⟩, rfl⟩

/-! ## A card and its badge -/

/-- Two variables of one name, and one without a name. -/
def inks : Variables :=
  [(.text "V:1", .record [("name", .text "ink")]), (.text "V:2", .record []),
    (.text "V:3", .record [("name", .text "ink")])]

/-- A card that refers to a variable below what is no reference, and lists its badge twice; below the
badge's reference nothing counts, and the card is listed below it again. -/
def inkLayers : List Datum :=
  let reference (id : String) : List (String × Datum) := [("id", .text id)]
  [.record [("id", .text "card"), ("children", .list [.int 1, .int 1]),
      ("boundVariables", .record [("fills", .list [.record
        [("type", .text "GROUP"), ("id", .text "V:2"), ("inner", .record (reference "V:3"))]])])],
    .record [("id", .text "badge"), ("children", .list [.int 0]),
      ("boundVariables", .record (reference "V:2" ++ [("inner", .record (reference "V:1"))]))]]

theorem areNamed_inks : AreNamed inks := by
  refine ⟨?_, by simp [inks], ?_, ?_⟩
  all_goals
    intro row hrow
    simp only [inks, List.mem_cons, List.not_mem_nil, or_false] at hrow
    rcases hrow with rfl | rfl | rfl <;> rfl

theorem isNumbered_inks : ∀ d ∈ inkLayers, Scene.IsNumbered d := by
  intro d hd
  simp only [inkLayers, List.mem_cons, List.not_mem_nil, or_false] at hd
  rcases hd with rfl | rfl <;> exact ⟨rfl, .inr ⟨_, rfl, by decide⟩⟩

def inkScene : Scene := Scene.ofShared inkLayers 0

theorem isRooted_inks : inkScene.IsRooted :=
  ⟨Scene.isGraph_ofShared isNumbered_inks 0, fun _ => ⟨0, by decide, rfl⟩⟩

theorem isBindable_inks : ∀ i, inkScene.Reaches i → IsBindable inks (inkScene.dataAt i) := by
  intro i hi
  have hlt : i < 2 := hi.lt_size isRooted_inks
  have hkeys : ∀ i < 2, ∀ id ∈ boundTo (inkScene.dataAt i), id.isKey = true := by decide
  refine ⟨fun id hid => hkeys i hlt id (mem_boundTo.2 hid), fun token _ => ?_⟩
  interval_cases i <;> exact ⟨_, rfl⟩

/-- The card uses the name of the variable that it refers to, and is listed for it. -/
theorem usage_exact_inks : AreNamed inks ∧ inkScene.IsRooted ∧
    (∀ i, inkScene.Reaches i → IsBindable inks (inkScene.dataAt i)) ∧
    ∃ usage users, usageOf (namesOf inks) [Walked.ofScene inkScene] = .ok usage ∧
      ("ink", users) ∈ usage ∧ .text "card" ∈ users := by
  refine ⟨areNamed_inks, isRooted_inks, isBindable_inks, ?_⟩
  have hrooted : ∀ s ∈ [inkScene], s.IsRooted := by simpa using isRooted_inks
  have hbindable : ∀ s ∈ [inkScene], ∀ i, s.Reaches i → IsBindable inks (s.dataAt i) := by
    simpa using isBindable_inks
  obtain ⟨usage, layers, husage, -, -, -, hkeys, hrows⟩ :=
    usage_exact areNamed_inks hrooted hbindable
  have hcard : inkScene.Reaches 0 ∧ IsUsedBy inks "ink" (inkScene.dataAt 0) :=
    ⟨⟨rfl, 0, rfl, .refl⟩, .text "V:3", .record [("name", .text "ink")],
      mem_boundTo.1 List.mem_cons_self, by simp [inks], rfl⟩
  obtain ⟨⟨-, users⟩, hrow, rfl⟩ :=
    List.mem_map.1 ((hkeys "ink").2 ⟨inkScene, List.mem_cons_self, 0, hcard⟩)
  exact ⟨usage, users, husage, hrow,
    ((hrows _ users hrow).2.2 _).2 ⟨inkScene, List.mem_cons_self, 0, hcard.1, hcard.2, rfl⟩⟩

end Token

end Maquette
