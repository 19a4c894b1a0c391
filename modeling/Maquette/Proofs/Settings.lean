/-
Settings from a file. The settings are put together from what is found in the sections of a settings file;
a setting of the wrong kind is noted, but not every such setting gives way to its default: texts are passed
on as they are, switches are taken by whether they count as given, and truth values count as numbers.
-/
import Maquette.Settings
import Maquette.Proofs.Datum

namespace Maquette

/-! ## Runs that only leave notices -/

namespace Run

variable {α : Type}

/-- A run that returns, with the given notices. -/
def Leaves (r : Run Unit) (notices : List Notice) : Prop :=
  ∀ before, r.after before = (.ok (), before ++ notices)

theorem Leaves.bind {r r' : Run Unit} {ns ns' : List Notice} (h : r.Leaves ns) (h' : r'.Leaves ns') :
    (r >>= fun _ => r').Leaves (ns ++ ns') := fun before => by
  rw [after_ok_bind (h before), h', List.append_assoc]

theorem leaves_forM {f : α → Run Unit} {notices : α → List Notice} :
    ∀ {xs : List α}, (∀ x ∈ xs, (f x).Leaves (notices x)) → (xs.forM f).Leaves (xs.flatMap notices)
  | [], _ => fun before => by simp
  | x :: xs, h => by
    obtain ⟨hx, hxs⟩ := List.forall_mem_cons.1 h
    rw [List.flatMap_cons]
    exact hx.bind (leaves_forM hxs)

theorem leaves_note (n : Notice) : (note n).Leaves [n] := fun _ => rfl

theorem leaves_notes (ns : List Notice) : (ns.forM note).Leaves ns := by
  have h := leaves_forM fun n (_ : n ∈ ns) => leaves_note n
  rwa [List.flatMap_singleton'] at h

end Run

namespace Settings

/-! ## Settings files -/

/-- A settings file as it is read: a record whose fields have distinct names, with sections alike. -/
structure IsFile (config : Datum) : Prop where
  isRecord : config.isRecord = true
  distinct : ∀ {name fields}, config.at? name = some (.record fields) → (fields.map Prod.fst).Nodup

/-- What a settings file holds for a setting, if it does. -/
def found (config : Datum) (name key : String) : Option Datum :=
  ((config.at? name).getD .null).at? key

/-- The kind of a setting that is known. -/
def kind? (name key : String) : Option Kind := (sections.lookup name).bind (·.lookup key)

/-! ## What is noted -/

/-- What is noted about a section. -/
def sectionNotices (config : Datum) (name : String) (known : Table String Kind) : List Notice :=
  match (config.at? name).getD .empty with
  | .record fields => fields.filterMap fun (key, value) => settingNotice? name known key value
  | d => [.sectionKind name d.kindName]

theorem checkSettings_leaves {config : Datum} (h : config.isRecord = true) (name : String)
    (known : Table String Kind) : (checkSettings config name known).Leaves (sectionNotices config name known) := by
  intro before
  unfold checkSettings sectionNotices
  rw [Datum.fieldOr_eq h, Run.lift_ok, pure_bind]
  cases (config.at? name).getD .empty with
  | record fields => exact Run.leaves_notes _ before
  | _ => exact Run.leaves_note _ before

/-- What is noted about a name that a settings file has. -/
def nameNotices (name : Datum) : List Notice :=
  if (sections.map (·.1)).any name.isThe then [] else [.unknownSection name.shown (sortedKeys sections)]

theorem checkSection_leaves (name : String) : (checkSection (.text name)).Leaves (nameNotices (.text name)) := by
  intro before
  unfold checkSection nameNotices
  rw [Datum.asKey_eq rfl, Run.lift_ok, pure_bind]
  cases (sections.map (·.1)).any (Datum.text name).isThe with
  | true => exact (Run.after_pure () before).trans (by rw [if_pos rfl, List.append_nil])
  | false => exact Run.leaves_note _ before

/-- Checking always returns, with notices on unknown names, on settings and on the limit. -/
theorem check_leaves {config : Datum} (h : config.isRecord = true) :
    ∃ names : List Datum, (check config).Leaves (names.flatMap nameNotices ++
      (if config.isTruthy then sections.flatMap (fun row => sectionNotices config row.1 row.2) ++
        (limitNotice? config).toList else [])) := by
  obtain ⟨fields, rfl⟩ := Datum.eq_record h
  unfold check
  cases (Datum.record fields).isTruthy with
  | false => exact ⟨[], fun before => by simp⟩
  | true =>
    refine ⟨fields.map fun (k, _) => .text k, ?_⟩
    simp only [if_true]
    show (Run.Leaves (liftM (.ok (fields.map fun (k, _) => Datum.text k) : Outcome _) >>= _) _)
    rw [Run.lift_ok, pure_bind]
    refine (Run.leaves_forM fun name hname => ?_).bind
      ((Run.leaves_forM fun row _ => checkSettings_leaves h row.1 row.2).bind (Run.leaves_notes _))
    obtain ⟨row, -, rfl⟩ := List.mem_map.1 hname
    exact checkSection_leaves row.1

/-- A setting is noted for its kind. -/
def IsNoted (config : Datum) (name key : String) : Prop :=
  ∃ kind, Notice.settingKind name key kind ∈ (check config).exec.2

theorem settingNotice?_eq {name key name' key' shown : String} {known : Table String Kind} {v : Datum} :
    settingNotice? name' known key' v = some (.settingKind name key shown) ↔
      name' = name ∧ key' = key ∧
        ∃ kind, known.lookup key = some kind ∧ kind.fits v = false ∧ v.kindName = shown := by
  unfold settingNotice?
  cases hkind : known.lookup key' with
  | none =>
    refine ⟨fun h => by simp at h, ?_⟩
    rintro ⟨-, rfl, kind, hk, -⟩
    rw [hk] at hkind
    cases hkind
  | some kind =>
    constructor
    · intro h
      simp only [Option.ite_none_left_eq_some, Option.some.injEq, Notice.settingKind.injEq] at h
      obtain ⟨hfits, rfl, rfl, rfl⟩ := h
      exact ⟨rfl, rfl, kind, hkind, Bool.eq_false_iff.2 hfits, rfl⟩
    · rintro ⟨rfl, rfl, kind', hk, hfits, rfl⟩
      obtain rfl : kind = kind' := Option.some.inj (hkind.symm.trans hk)
      simp [hfits]

theorem settingKind_mem_sectionNotices {config : Datum} (h : IsFile config) {name name' key shown : String}
    {known : Table String Kind} :
    .settingKind name key shown ∈ sectionNotices config name' known ↔
      name' = name ∧ ∃ kind v, known.lookup key = some kind ∧ found config name key = some v ∧
        kind.fits v = false ∧ v.kindName = shown := by
  unfold sectionNotices found
  cases hat : config.at? name' with
  | none =>
    refine ⟨fun hmem => by simp at hmem, ?_⟩
    rintro ⟨rfl, kind, v, -, hv, -⟩
    rw [hat] at hv
    cases hv
  | some d =>
    by_cases hd : d.isRecord = true
    · obtain ⟨fields, rfl⟩ := Datum.eq_record hd
      have hrow {v : Datum} : fields.lookup key = some v ↔ (key, v) ∈ fields :=
        Table.lookup_eq_some_iff (h.distinct hat)
      simp only [Option.getD_some, List.mem_filterMap, settingNotice?_eq]
      constructor
      · rintro ⟨⟨_, v⟩, hmem, rfl, rfl, kind, hkind, hfits⟩
        rw [hat]
        exact ⟨rfl, kind, v, hkind, hrow.2 hmem, hfits⟩
      · rintro ⟨rfl, kind, v, hkind, hv, hfits⟩
        rw [hat] at hv
        exact ⟨(key, v), hrow.1 hv, rfl, rfl, kind, hkind, hfits⟩
    · refine ⟨fun hmem => ?_, ?_⟩
      · rw [Option.getD_some] at hmem
        cases d <;> first | cases hd rfl | simp at hmem
      · rintro ⟨rfl, kind, v, -, hv, -⟩
        rw [hat] at hv
        cases d <;> first | cases hd rfl | cases hv

theorem settingKind_not_mem_nameNotices {name key shown : String} (names : List Datum) :
    .settingKind name key shown ∉ names.flatMap nameNotices := by
  intro h
  obtain ⟨d, -, hd⟩ := List.mem_flatMap.1 h
  unfold nameNotices at hd
  split at hd
  · cases hd
  · cases List.mem_singleton.1 hd

theorem settingKind_not_mem_limitNotice {config : Datum} {name key shown : String} :
    .settingKind name key shown ∉ (limitNotice? config).toList := by
  intro h
  unfold limitNotice? at h
  dsimp only at h
  split at h
  · split at h
    · cases List.mem_singleton.1 h
    · cases h
  · cases h

theorem mem_sections {name : String} {known : Table String Kind} :
    (name, known) ∈ sections ↔ sections.lookup name = some known :=
  (Table.lookup_eq_some_iff (by decide)).symm

/-- Exactly the settings that are known and of another kind are noted. -/
theorem isNoted_iff {config : Datum} (h : IsFile config) {name key : String} :
    IsNoted config name key ↔
      ∃ kind v, kind? name key = some kind ∧ found config name key = some v ∧ kind.fits v = false := by
  obtain ⟨names, hleaves⟩ := check_leaves h.isRecord
  unfold IsNoted
  rw [Run.exec_eq, hleaves, List.nil_append]
  simp only [List.mem_append, settingKind_not_mem_nameNotices, false_or]
  constructor
  · rintro ⟨shown, hmem⟩
    split at hmem
    · rcases List.mem_append.1 hmem with hmem | hmem
      · obtain ⟨⟨name', known⟩, hrow, hmem⟩ := List.mem_flatMap.1 hmem
        obtain ⟨rfl, kind, v, hkind, hv, hfits, -⟩ := (settingKind_mem_sectionNotices h).1 hmem
        refine ⟨kind, v, ?_, hv, hfits⟩
        rw [kind?, mem_sections.1 hrow, Option.bind_some, hkind]
      · exact absurd hmem settingKind_not_mem_limitNotice
    · cases hmem
  · rintro ⟨kind, v, hkind, hv, hfits⟩
    obtain ⟨known, hknown, hkey⟩ := Option.bind_eq_some_iff.1 hkind
    have htruthy : config.isTruthy = true := by
      obtain ⟨fields, rfl⟩ := Datum.eq_record h.isRecord
      cases fields with
      | nil => cases hv
      | cons => rfl
    refine ⟨v.kindName, ?_⟩
    rw [if_pos htruthy, List.mem_append, List.mem_flatMap]
    exact .inl ⟨(name, known), mem_sections.2 hknown,
      (settingKind_mem_sectionNotices h).2 ⟨rfl, kind, v, hkey, hv, hfits, rfl⟩⟩

/-! ## What is used -/

/-- The settings of what is found. -/
def assembled (found : String → String → Option Datum) (environmentToken : Option String)
    (debounce : Float) : Settings where
  token := ((found "figma" "personalAccessToken").getD .null).orElse
    ((environmentToken.map Datum.text).getD .null)
  fileKey := (found "figma" "fileKey").getD .null
  nodeId := (found "figma" "nodeId").getD .null
  outputFolder := (found "output" "dir").getD (.text defaultFolder)
  snapshotFolder := (found "output" "snapshotDir").getD .null
  writesPage := ((found "output" "docs").getD (.bool true)).isTruthy
  writesSheet := ((found "output" "tokenCss").getD (.bool true)).isTruthy
  maxDepth := usableDepth ((found "tokens" "maxAliasDepth").getD .null)
  projectTokens := (found "tokens" "projectTokens").getD .null
  debounce

theorem sectionOf_eq {config : Datum} (h : config.isRecord = true) (name : String) :
    ∃ d : Datum, sectionOf config name = .ok d ∧ d.isRecord = true ∧ ∀ key, d.at? key = found config name key := by
  obtain ⟨fields, rfl⟩ := Datum.eq_record h
  have hor : ((Datum.record fields).orElse .empty).get name = .ok ((fields.lookup name).getD .null) := by
    cases fields <;> rfl
  unfold sectionOf found
  rw [hor, Outcome.ok_bind]
  show ∃ d : Datum, _ ∧ _ ∧ ∀ key, d.at? key = ((fields.lookup name).getD .null).at? key
  cases (fields.lookup name).getD .null with
  | record inner => exact ⟨.record inner, rfl, rfl, fun _ => rfl⟩
  | _ => exact ⟨.empty, rfl, rfl, fun _ => rfl⟩

theorem ofConfig_eq {config : Datum} (h : config.isRecord = true) (environmentToken : Option String) :
    ofConfig config environmentToken =
      assembled (found config) environmentToken <$> usableDebounce (value config "watch" "debounce") := by
  obtain ⟨service, hservice, hs, hsAt⟩ := sectionOf_eq h "figma"
  obtain ⟨output, houtput, ho, hoAt⟩ := sectionOf_eq h "output"
  obtain ⟨tokens, htokens, ht, htAt⟩ := sectionOf_eq h "tokens"
  obtain ⟨watch, hwatch, hw, hwAt⟩ := sectionOf_eq h "watch"
  unfold ofConfig
  rw [hservice, houtput, htokens, hwatch]
  simp only [Outcome.ok_bind, Datum.get_eq hs, Datum.get_eq ho, Datum.get_eq ht, Datum.get_eq hw,
    Datum.fieldOr_eq ho, hsAt, hoAt, htAt, hwAt]
  show (usableDebounce (value config "watch" "debounce") >>= _) = _
  cases usableDebounce (value config "watch" "debounce") <;> rfl

/-! ## Settings that are taken away -/

end Settings

/-- A record without a field. -/
def Datum.without (d : Datum) (key : String) : Datum :=
  match d with
  | .record fields => .record (Table.erase fields key)
  | d => d

namespace Settings

/-- A settings file without a setting. -/
def without (config : Datum) (name key : String) : Datum :=
  match config with
  | .record fields => .record (fields.map fun (n, d) => (n, if n == name then d.without key else d))
  | d => d

theorem lookup_mapped (f : String → Datum → Datum) (name : String) (fields : List (String × Datum)) :
    (fields.map fun (n, d) => (n, f n d)).lookup name = (fields.lookup name).map (f name) := by
  induction fields with
  | nil => rfl
  | cons row fields ih =>
    obtain ⟨n, d⟩ := row
    rw [List.map_cons, List.lookup_cons, List.lookup_cons]
    cases hn : name == n with
    | true => rw [beq_iff_eq.1 hn]; rfl
    | false => exact ih

theorem lookup_erase (key key' : String) (fields : List (String × Datum)) :
    (Table.erase fields key).lookup key' = if key' = key then none else fields.lookup key' := by
  induction fields with
  | nil => simp [Table.erase]
  | cons row fields ih =>
    obtain ⟨k, d⟩ := row
    unfold Table.erase at ih ⊢
    by_cases hk : k = key
    · rw [List.filter_cons_of_neg (by simp [hk]), ih, List.lookup_cons]
      split
      · rfl
      · rename_i hne
        rw [beq_eq_false_iff_ne.2 (hk ▸ hne)]
    · rw [List.filter_cons_of_pos (by simp [hk]), List.lookup_cons, List.lookup_cons, ih]
      cases hk' : key' == k with
      | true => exact (if_neg fun h => hk ((beq_iff_eq.1 hk').symm.trans h)).symm
      | false => rfl

/-- What is found with a setting taken away. -/
theorem found_without {config : Datum} (h : config.isRecord = true) (name key name' key' : String) :
    found (without config name key) name' key' =
      if name' = name ∧ key' = key then none else found config name' key' := by
  obtain ⟨fields, rfl⟩ := Datum.eq_record h
  unfold found without
  simp only [Datum.at?]
  rw [lookup_mapped fun n d => if n == name then d.without key else d]
  cases hd : fields.lookup name' with
  | none => simp
  | some d =>
    rw [Option.map_some, Option.getD_some, Option.getD_some]
    by_cases hn : name' = name
    · simp only [hn, beq_self_eq_true, if_true, true_and]
      cases d with
      | record inner => exact lookup_erase key key' inner
      | _ => simp [Datum.without]
    · simp [hn]

/-! ## Falling back -/

/-- Whether a setting that is of another kind or out of range gives way to its default. -/
def givesWay (key : String) (v : Datum) : Bool :=
  match key, v with
  | "personalAccessToken", v => !v.isTruthy
  | "dir", _ => false
  | "docs", v => v.isTruthy
  | "tokenCss", v => v.isTruthy
  | "maxAliasDepth", .bool b => !b
  | "maxAliasDepth", _ => true
  | "debounce", .bool b => b
  | "debounce", _ => true
  | _, v => v.isNull

/-- Whether a limit is less than one, or a time is negative or no number at all. -/
def isOutOfRange (name key : String) (v : Datum) : Bool :=
  match name, key, v.number? with
  | "tokens", "maxAliasDepth", some (.int n) => n < 1
  | "watch", "debounce", some n => !Number.le 0 n
  | _, _, _ => false

/-- Whether a value is a text, or absent. -/
def IsOptionalText (d : Datum) : Prop := d = .null ∨ ∃ s, d = .text s

/-- Settings that are of the kinds that the program works with. -/
structure IsTyped (s : Settings) : Prop where
  token : IsOptionalText s.token
  fileKey : IsOptionalText s.fileKey
  nodeId : IsOptionalText s.nodeId
  outputFolder : ∃ t, s.outputFolder = .text t
  snapshotFolder : IsOptionalText s.snapshotFolder
  maxDepth : ∃ n, s.maxDepth = .int n
  projectTokens : IsOptionalText s.projectTokens

/-- The settings that are known, with their sections. -/
def known : List (String × String × Kind) :=
  sections.flatMap fun (name, keys) => keys.map fun (key, kind) => (name, key, kind)

theorem kind?_eq_some_iff {name key : String} {kind : Kind} :
    kind? name key = some kind ↔ (name, key, kind) ∈ known := by
  unfold kind? known
  simp only [Option.bind_eq_some_iff, ← mem_sections, List.mem_flatMap, List.mem_map, Prod.exists,
    Prod.mk.injEq]
  constructor
  · rintro ⟨keys, hkeys, hkey⟩
    obtain ⟨key', hsame, hmem⟩ := Table.mem_of_lookup hkey
    exact ⟨name, keys, hkeys, key, kind, beq_iff_eq.1 hsame ▸ hmem, rfl, rfl, rfl⟩
  · rintro ⟨name', keys, hkeys, key', kind', hmem, rfl, rfl, rfl⟩
    have hdistinct : ∀ row ∈ sections, (row.2.map Prod.fst).Nodup := by decide
    exact ⟨keys, hkeys, (Table.lookup_eq_some_iff (hdistinct _ hkeys)).2 hmem⟩

section Fields

variable {o : Option Datum}

theorem text_fits {v : Datum} : Kind.text.fits v = true ↔ ∃ s, v = .text s := by
  cases v <;> simp [Kind.fits]

theorem isOptionalText_iff : IsOptionalText (o.getD .null) ↔
    ∀ v, o = some v → Kind.text.fits v = false → v.isNull = true := by
  cases o with
  | none => simp [IsOptionalText]
  | some v => cases v <;> simp [IsOptionalText, Kind.fits, Datum.isNull]

theorem isOptionalText_orElse_iff {d : Datum} (hd : IsOptionalText d) :
    IsOptionalText ((o.getD .null).orElse d) ↔
      ∀ v, o = some v → Kind.text.fits v = false → v.isTruthy = false := by
  cases o with
  | none => simpa [Datum.orElse, Datum.isTruthy] using hd
  | some v =>
    by_cases ht : v.isTruthy = true
    · cases v <;> simp_all [IsOptionalText, Datum.orElse, Kind.fits, Datum.isTruthy]
    · simp [Datum.orElse, ht, hd]

theorem isText_getD_iff {t : String} : (∃ s, o.getD (.text t) = .text s) ↔
    ∀ v, o = some v → Kind.text.fits v = true := by
  cases o with
  | none => simp
  | some v => simp [text_fits]

theorem usableDepth_isInt_iff : (∃ n, usableDepth (o.getD .null) = .int n) ↔
    ∀ v, o = some v → Kind.count.fits v = false → givesWay "maxAliasDepth" v = true := by
  cases o with
  | none => simp [usableDepth, Datum.number?]
  | some v =>
    cases v with
    | bool b => cases b <;> simp [usableDepth, Datum.number?, Kind.fits, givesWay]
    | int n => simp [usableDepth, Datum.number?, Kind.fits, givesWay]; split <;> exact ⟨_, rfl⟩
    | _ => simp [usableDepth, Datum.number?, Kind.fits, givesWay]

end Fields

/-- Settings are of the right kinds exactly if all texts and limits that are not gave way. -/
theorem isTyped_assembled_iff {found : String → String → Option Datum} {environmentToken : Option String}
    {x : Float} :
    (assembled found environmentToken x).IsTyped ↔ ∀ row ∈ known, row.2.2 = .text ∨ row.2.2 = .count →
      ∀ v, found row.1 row.2.1 = some v → row.2.2.fits v = false → givesWay row.2.1 v = true := by
  have henv : IsOptionalText ((environmentToken.map Datum.text).getD .null) := by
    cases environmentToken with
    | none => exact .inl rfl
    | some t => exact .inr ⟨t, rfl⟩
  have hfields : (assembled found environmentToken x).IsTyped ↔ _ :=
    ⟨fun ⟨a, b, c, d, e, f, g⟩ => (⟨a, b, c, d, e, f, g⟩ : _ ∧ _ ∧ _ ∧ _ ∧ _ ∧ _ ∧ _),
      fun ⟨a, b, c, d, e, f, g⟩ => ⟨a, b, c, d, e, f, g⟩⟩
  rw [hfields]
  simp only [assembled, isOptionalText_orElse_iff henv, isOptionalText_iff, isText_getD_iff,
    usableDepth_isInt_iff]
  simp [known, sections, givesWay]

/-! ## The time between changes -/

theorem usableDebounce_absent : usableDebounce .null = .ok 1.0 := rfl

theorem usableDebounce_outOfRange {v : Datum} (h : isOutOfRange "watch" "debounce" v = true) :
    usableDebounce v = .ok 1.0 := by
  unfold isOutOfRange at h
  unfold usableDebounce
  cases hn : v.number? with
  | none => rfl
  | some n =>
    simp only [hn, Bool.not_eq_true'] at h
    simp [h]

/-- A time that is amiss is the default, but for truth values, which are zero and one. -/
theorem usableDebounce_amiss {v : Datum}
    (h : Kind.number.fits v = false ∨ isOutOfRange "watch" "debounce" v = true) :
    ∃ x, usableDebounce v = .ok x ∧ (x = 1.0 ↔ givesWay "debounce" v = true) := by
  have hzero : (0.0 : Float) ≠ 1.0 := by decide
  cases v with
  | bool b =>
    cases b with
    | false => exact ⟨0.0, rfl, by simp [givesWay, hzero]⟩
    | true => exact ⟨1.0, rfl, by simp [givesWay]⟩
  | int n => exact ⟨1.0, usableDebounce_outOfRange (h.resolve_left nofun), by simp [givesWay]⟩
  | float x => exact ⟨1.0, usableDebounce_outOfRange (h.resolve_left nofun), by simp [givesWay]⟩
  | _ => exact ⟨1.0, rfl, by simp [givesWay]⟩

theorem le_zero_int {n : ℤ} : Number.le 0 (.int n) = true ↔ 0 ≤ n := by
  have hlt : Number.lt 0 (.int n) = decide (0 < n) := rfl
  have heq : Number.eq 0 (.int n) = (0 == n) := rfl
  rw [Number.le, hlt, heq, Bool.or_eq_true, decide_eq_true_eq, beq_iff_eq]
  omega

/-- There is a time exactly unless it is an integer that is too large for a double. -/
theorem usableDebounce_ok_iff {v : Datum} :
    (∃ x, usableDebounce v = .ok x) ↔ ∀ n : ℤ, v = .int n → 0 ≤ n → (Decimal.ofInt? n).isSome = true := by
  cases v with
  | int n =>
    simp only [usableDebounce, Datum.number?, le_zero_int, Number.toFloat, Datum.int.injEq, forall_eq']
    cases hn : Decimal.ofInt? n with
    | none => by_cases hle : 0 ≤ n <;> simp [hle]
    | some x => by_cases hle : 0 ≤ n <;> simp [hle]
  | float x =>
    refine ⟨fun _ _ => nofun, fun _ => ?_⟩
    simp only [usableDebounce, Datum.number?, Number.toFloat]
    split <;> exact ⟨_, rfl⟩
  | bool b => exact ⟨fun _ _ => nofun, fun _ => by cases b <;> exact ⟨_, rfl⟩⟩
  | _ => exact ⟨fun _ _ => nofun, fun _ => ⟨_, rfl⟩⟩

/-! ## Settings with and without -/

theorem isRecord_without {config : Datum} (h : config.isRecord = true) (name key : String) :
    (without config name key).isRecord = true := by
  obtain ⟨fields, rfl⟩ := Datum.eq_record h
  rfl

variable {config : Datum} {environmentToken : Option String} {s : Settings}

theorem ofConfig_ok_iff (h : config.isRecord = true) :
    (∃ s, ofConfig config environmentToken = .ok s) ↔
      ∀ n : ℤ, found config "watch" "debounce" = some (.int n) → 0 ≤ n → (Decimal.ofInt? n).isSome = true := by
  have hvalue (n : ℤ) : value config "watch" "debounce" = .int n ↔
      found config "watch" "debounce" = some (.int n) := by
    show (found config "watch" "debounce").getD .null = .int n ↔ _
    cases found config "watch" "debounce" <;> simp
  simp only [← hvalue, ← usableDebounce_ok_iff, ofConfig_eq h]
  cases usableDebounce (value config "watch" "debounce") <;> simp

/-- A setting other than the time that is taken away. -/
theorem ofConfig_without (h : config.isRecord = true) {name key : String} {x : Float}
    (hx : usableDebounce (value config "watch" "debounce") = .ok x) (hne : key ≠ "debounce") :
    ofConfig (without config name key) environmentToken =
      .ok (assembled (fun n k => if n = name ∧ k = key then none else found config n k) environmentToken x) := by
  have hvalue : value (without config name key) "watch" "debounce" = value config "watch" "debounce" := by
    show (found (without config name key) "watch" "debounce").getD .null =
      (found config "watch" "debounce").getD .null
    rw [found_without h, if_neg fun hsame => hne hsame.2.symm]
  rw [ofConfig_eq (isRecord_without h name key), hvalue, hx, funext₂ (found_without h name key)]
  rfl

/-- Without a time there is the default. -/
theorem ofConfig_without_time (h : config.isRecord = true) :
    ofConfig (without config "watch" "debounce") environmentToken =
      .ok (assembled (found config) environmentToken 1.0) := by
  have hvalue : value (without config "watch" "debounce") "watch" "debounce" = .null := by
    show (found (without config "watch" "debounce") "watch" "debounce").getD .null = .null
    rw [found_without h, if_pos ⟨rfl, rfl⟩, Option.getD_none]
  rw [ofConfig_eq (isRecord_without h _ _), hvalue, usableDebounce_absent,
    funext₂ (found_without h "watch" "debounce")]
  simp [assembled]

theorem null_eq_iff {v : Datum} : .null = v ↔ v.isNull = true := by
  cases v <;> simp [Datum.isNull]

theorem orElse_eq_iff {v d : Datum} (hv : Kind.text.fits v = false) (hd : IsOptionalText d) :
    d = v.orElse d ↔ v.isTruthy = false := by
  unfold Datum.orElse
  cases ht : v.isTruthy with
  | false => simp
  | true =>
    simp only [if_true, Bool.true_eq_false, iff_false]
    rintro rfl
    rcases hd with rfl | ⟨t, rfl⟩
    · cases ht
    · cases hv

theorem usableDepth_eq_iff {v : Datum}
    (hv : Kind.count.fits v = false ∨ isOutOfRange "tokens" "maxAliasDepth" v = true) :
    usableDepth .null = usableDepth v ↔ givesWay "maxAliasDepth" v = true := by
  cases v with
  | bool b => cases b <;> simp [usableDepth, Datum.number?, givesWay]
  | int n =>
    have hn : n < 1 := by simpa [Kind.fits, isOutOfRange, Datum.number?] using hv
    simp [usableDepth, Datum.number?, givesWay, hn.not_ge]
  | _ => simp [usableDepth, Datum.number?, givesWay]

/-- The settings are the same without a setting that is amiss exactly if it gives way. -/
theorem assembled_without_iff {found : String → String → Option Datum} {environmentToken : Option String} {x : Float}
    {name key : String} {kind : Kind} {v : Datum} (hrow : (name, key, kind) ∈ known) (hne : key ≠ "debounce")
    (hfound : found name key = some v) (hv : kind.fits v = false ∨ isOutOfRange name key v = true) :
    assembled (fun n k => if n = name ∧ k = key then none else found n k) environmentToken x =
      assembled found environmentToken x ↔ givesWay key v = true := by
  have henv : IsOptionalText ((environmentToken.map Datum.text).getD .null) := by
    cases environmentToken with
    | none => exact .inl rfl
    | some t => exact .inr ⟨t, rfl⟩
  have hnull : Datum.orElse .null ((environmentToken.map Datum.text).getD .null) =
    (environmentToken.map Datum.text).getD .null := rfl
  simp only [known, sections, List.flatMap_cons, List.flatMap_nil, List.map_cons, List.map_nil, List.cons_append,
    List.nil_append, List.append_nil, List.mem_cons, Prod.mk.injEq, List.not_mem_nil, or_false] at hrow
  rcases hrow with ⟨rfl, rfl, rfl⟩ | ⟨rfl, rfl, rfl⟩ | ⟨rfl, rfl, rfl⟩ | ⟨rfl, rfl, rfl⟩ | ⟨rfl, rfl, rfl⟩ |
    ⟨rfl, rfl, rfl⟩ | ⟨rfl, rfl, rfl⟩ | ⟨rfl, rfl, rfl⟩ | ⟨rfl, rfl, rfl⟩ | ⟨rfl, rfl, rfl⟩
  case inr.inr.inr.inr.inr.inr.inr.inr.inr => exact absurd rfl hne
  case inr.inr.inr.inr.inr.inr.inr.inl =>
    simpa [assembled, hfound] using usableDepth_eq_iff hv
  -- the texts that are only passed on give way if they are null
  all_goals simp [assembled, hfound, isOutOfRange, givesWay, null_eq_iff, hnull] at hv ⊢
  case inl => exact orElse_eq_iff hv henv
  case inr.inr.inr.inl =>
    rintro rfl
    cases hv
  all_goals exact eq_comm

theorem isNoted_known (h : IsFile config) {name key : String} (hnoted : IsNoted config name key) {v : Datum}
    (hv : found config name key = some v) :
    ∃ kind, (name, key, kind) ∈ known ∧ kind.fits v = false := by
  obtain ⟨kind, v', hkind, hv', hfits⟩ := (isNoted_iff h).1 hnoted
  obtain rfl : v = v' := Option.some.inj (hv.symm.trans hv')
  exact ⟨kind, kind?_eq_some_iff.1 hkind, hfits⟩

theorem isOutOfRange_known {name key : String} {v : Datum} (h : isOutOfRange name key v = true) :
    ∃ kind, (name, key, kind) ∈ known := by
  unfold isOutOfRange at h
  split at h
  · exact ⟨.count, by decide⟩
  · exact ⟨.number, by decide⟩
  · cases h

/-- Exactly the settings that give way are those without which a settings file says the same. -/
theorem ofConfig_without_iff (h : IsFile config) (hs : ofConfig config environmentToken = .ok s)
    {name key : String} {v : Datum} (hfound : found config name key = some v)
    (hamiss : IsNoted config name key ∨ isOutOfRange name key v = true) :
    ofConfig (without config name key) environmentToken = .ok s ↔ givesWay key v = true := by
  rw [ofConfig_eq h.isRecord] at hs
  obtain ⟨x, hx, rfl⟩ := Outcome.map_ok_inv hs
  obtain ⟨kind, hrow, hunfit⟩ : ∃ kind, (name, key, kind) ∈ known ∧
      (kind.fits v = false ∨ isOutOfRange name key v = true) := by
    rcases hamiss with hnoted | hrange
    · obtain ⟨kind, hrow, hfits⟩ := isNoted_known h hnoted hfound
      exact ⟨kind, hrow, .inl hfits⟩
    · obtain ⟨kind, hrow⟩ := isOutOfRange_known hrange
      exact ⟨kind, hrow, .inr hrange⟩
  by_cases hkey : key = "debounce"
  · subst hkey
    obtain ⟨rfl, rfl⟩ : name = "watch" ∧ kind = .number := by simpa [known, sections] using hrow
    obtain ⟨y, hy, hdefault⟩ := usableDebounce_amiss hunfit
    have hvalue : value config "watch" "debounce" = v := by
      show (found config "watch" "debounce").getD .null = v
      rw [hfound, Option.getD_some]
    obtain rfl : x = y := by
      rw [hvalue, hy] at hx
      exact (Except.ok.inj hx).symm
    rw [ofConfig_without_time h.isRecord, Except.ok.injEq, ← hdefault]
    simp [assembled, eq_comm]
  · rw [ofConfig_without h.isRecord hx hkey, Except.ok.injEq]
    exact assembled_without_iff hrow hkey hfound hunfit

/-- Settings from a file. There are settings exactly unless the time is an integer that is too large for a
double. They are of the right kinds exactly if every text, and the limit, that is noted for its kind gives way;
and a setting that is noted, or out of range, is as good as absent exactly if it gives way: a token that does
not count as given, another text that is null (the folder never does), a switch that counts as given, a limit
that is not true, and a time that is not false. -/
theorem ofConfig_falls_back (h : IsFile config) (environmentToken : Option String) :
    ((∃ s, ofConfig config environmentToken = .ok s) ↔ ∀ n : ℤ,
      found config "watch" "debounce" = some (.int n) → 0 ≤ n → (Decimal.ofInt? n).isSome = true) ∧
    ∀ s, ofConfig config environmentToken = .ok s →
      (s.IsTyped ↔ ∀ name key v, found config name key = some v → IsNoted config name key →
        kind? name key = some .text ∨ kind? name key = some .count → givesWay key v = true) ∧
      ∀ name key v, found config name key = some v → IsNoted config name key ∨ isOutOfRange name key v = true →
        (ofConfig (without config name key) environmentToken = .ok s ↔ givesWay key v = true) := by
  refine ⟨ofConfig_ok_iff h.isRecord, fun s hs => ⟨?_, fun name key v => ofConfig_without_iff h hs⟩⟩
  rw [ofConfig_eq h.isRecord] at hs
  obtain ⟨x, -, rfl⟩ := Outcome.map_ok_inv hs
  rw [isTyped_assembled_iff]
  constructor
  · intro hall name key v hv hnoted hkind
    obtain ⟨kind, v', hknown, hv', hfits⟩ := (isNoted_iff h).1 hnoted
    obtain rfl : v = v' := Option.some.inj (hv.symm.trans hv')
    rw [hknown, Option.some.injEq, Option.some.injEq] at hkind
    exact hall (name, key, kind) (kind?_eq_some_iff.1 hknown) hkind v hv hfits
  · intro hall ⟨name, key, kind⟩ hrow hkind v hv hfits
    have hknown : kind? name key = some kind := kind?_eq_some_iff.2 hrow
    refine hall name key v hv ((isNoted_iff h).2 ⟨kind, v, hknown, hv, hfits⟩) ?_
    rwa [hknown, Option.some.injEq, Option.some.injEq]

/-- A limit that is a text, and a negative time. -/
def untidy : Datum :=
  .record [("tokens", .record [("maxAliasDepth", .text "3")]), ("watch", .record [("debounce", .int (-1))])]

theorem isFile_of_sections {fields : List (String × Datum)}
    (h : ∀ row ∈ fields, ∃ inner, row.2 = .record inner ∧ (inner.map Prod.fst).Nodup) : IsFile (.record fields) where
  isRecord := rfl
  distinct hat := by
    obtain ⟨k, hk, hmem⟩ := Table.mem_of_lookup hat
    obtain ⟨inner, hinner, hdistinct⟩ := h _ hmem
    cases hinner
    exact hdistinct

theorem ofConfig_falls_back_untidy :
    IsFile untidy ∧ ∃ s, ofConfig untidy none = .ok s ∧
      ofConfig (without untidy "tokens" "maxAliasDepth") none = .ok s ∧
      ofConfig (without untidy "watch" "debounce") none = .ok s := by
  have hfile : IsFile untidy := isFile_of_sections (by simp)
  obtain ⟨hok, hall⟩ := ofConfig_falls_back hfile none
  obtain ⟨s, hs⟩ := hok.2 fun n hn hle => by
    obtain rfl : -1 = n := Datum.int.inj (Option.some.inj hn)
    cases hle
  have hsame := (hall s hs).2
  have hdepth : IsNoted untidy "tokens" "maxAliasDepth" :=
    (isNoted_iff hfile).2 ⟨.count, .text "3", rfl, rfl, rfl⟩
  refine ⟨hfile, s, hs, ?_, ?_⟩
  · exact (hsame "tokens" "maxAliasDepth" (.text "3") rfl (.inl hdepth)).2 rfl
  · exact (hsame "watch" "debounce" (.int (-1)) rfl (.inr rfl)).2 rfl

/-- A key of a file that is a number. -/
def numbered : Datum := .record [("figma", .record [("fileKey", .int 5)])]

/-- A key of another kind is noted, and passed on all the same; and a time can be too large. -/
theorem fileKey_kept :
    IsFile numbered ∧ IsNoted numbered "figma" "fileKey" ∧
      (∃ s, ofConfig numbered none = .ok s ∧ ¬s.IsTyped ∧
        ofConfig (without numbered "figma" "fileKey") none ≠ .ok s) ∧
      ofConfig (.record [("watch", .record [("debounce", .int (10 ^ 400))])]) none = .error .tooLarge := by
  have hfile : IsFile numbered := isFile_of_sections (by simp)
  have hnoted : IsNoted numbered "figma" "fileKey" := (isNoted_iff hfile).2 ⟨.text, .int 5, rfl, rfl, rfl⟩
  refine ⟨hfile, hnoted, ⟨_, rfl, fun htyped => ?_, ?_⟩, ?_⟩
  · rcases htyped.fileKey with h | ⟨t, h⟩ <;> cases h
  · intro h
    have hkey : (Except.ok .null : Outcome Datum) = .ok (.int 5) := congrArg (Functor.map Settings.fileKey) h
    cases hkey
  · have hlarge : usableDebounce (.int (10 ^ 400)) = .error .tooLarge := by
      have hnone : Decimal.ofInt? (10 ^ 400) = none := Option.isNone_iff_eq_none.1 (by decide +kernel)
      simp only [usableDebounce, Datum.number?, le_zero_int, Number.toFloat, hnone]
      exact if_pos (by positivity)
    rw [ofConfig_eq rfl, show value _ "watch" "debounce" = .int (10 ^ 400) from rfl, hlarge]
    rfl

end Settings

end Maquette
