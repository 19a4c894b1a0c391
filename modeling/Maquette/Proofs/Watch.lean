/-
Which changes a watch keeps up with. A build reads the files as the change that brought it about left
them, and a change is taken up unless it follows too fast on the last one that was. So what the last
build has read is what the last change taken up has left, and all changes after that one come within
the gap.
-/
import Maquette.Proofs.Act
import Maquette.Proofs.Datum
import Maquette.Watch

namespace Maquette

/-! ## What a build reads -/

namespace Job

variable {reads writes : Prop}

theorem within_loadTokens (path : Datum) (h : reads) :
    Within reads writes (Settings.loadTokens path) := by
  simp only [Settings.loadTokens]
  split
  · exact within_pure _
  split
  · refine (within_readDocument _ h).bind fun doc => ?_
    split
    all_goals
      refine Within.bind (by trivial) fun listed => ?_
      split
      · exact within_pure _
      · exact (within_note _).bind fun _ => within_pure _
  · exact within_throw _

theorem within_compile (d : Design) (s : Settings) (h : reads) :
    Within reads writes (Build.compile d s) :=
  (within_loadTokens _ h).bind fun _ => within_run _

theorem within_writeAll (h : writes) : ∀ files, Within reads writes (Delivery.writeAll files)
  | [] => within_pure _
  | (path, text) :: rest =>
    (within_folder _ h).bind fun _ => (within_write path text h).bind fun _ => within_writeAll h rest

theorem within_save (d : Delivery) (c : Compiled) (h : writes) :
    Within reads writes (d.save c) :=
  (within_lift _).bind fun _ => (within_writeAll h _).bind fun _ => within_pure _

end Job

/-- A build reads all its files before it writes one. -/
theorem Build.run_readsFirst (d : Design) (s : Settings) : (Build.run d s).run.ReadsFirst := by
  refine Job.run_readsFirst (Job.within_compile d s trivial) fun c => ?_
  refine Act.Blind.readsFirst ?_
  refine Job.Within.bind (Job.within_lift _) fun delivery => ?_
  refine Job.Within.bind (Job.within_save _ _ trivial) fun written => ?_
  exact Job.Within.bind (Job.within_lift _) fun lines => Job.within_forM_say lines

namespace Watch

variable (w : Watch)

theorem build_readsFirst : w.build.run.ReadsFirst := by
  have tried : (Design.load w.path w.nodeId >>= fun d => Build.run d w.settings).run.ReadsFirst := by
    refine Job.run_readsFirst ?_ fun d => Build.run_readsFirst d w.settings
    exact (Job.within_readDocument _ trivial).bind fun content => Job.within_lift _
  refine tried.bind_blind fun r => ?_
  cases r with
  | ok x => trivial
  | error f =>
    by_cases hf : f.isForeseen
    · simp only [hf, if_true]
      exact Job.within_say _
    · simp only [hf]
      trivial

/-- The first file that a build reads is the export. -/
theorem build_looks (desk : Desk) : ∃ rest, w.build.run.looks desk =
    (Path.tidy w.path, desk.workspace.read (Path.tidy w.path)) :: rest := ⟨_, rfl⟩

/-- Whether an act finds the export first and all it reads as the files stand. -/
def Finds (files : Workspace) (looks : List (String × Outcome String)) : Prop :=
  looks.head? = some (Path.tidy w.path, files.read (Path.tidy w.path)) ∧
    ∀ look ∈ looks, look.2 = files.read look.1

variable {w} {files : Workspace} {looks : List (String × Outcome String)}

theorem Finds.ne_nil (h : w.Finds files looks) : looks ≠ [] := by
  rintro rfl
  exact absurd h.1 (by simp)

theorem finds_build (w : Watch) (desk : Desk) :
    w.Finds desk.workspace (w.build.run.looks desk) := by
  obtain ⟨rest, hrest⟩ := w.build_looks desk
  refine ⟨?_, w.build_readsFirst desk⟩
  rw [hrest, List.head?_cons]

theorem finds_start (w : Watch) (desk : Desk) :
    w.Finds desk.workspace (w.start.run.looks desk) := by
  rw [start, Job.run_say_bind, Job.run_say_bind, Act.looks, Act.looks]
  exact finds_build w ((desk.say _).say _)

/-- A change that is taken up is built from the files as it finds them, and starts the gap anew. -/
theorem onChange_taken {c : Change} (hc : w.concerns c = true)
    (ht : w.debounce.accepts c.time = true) (desk : Desk) :
    ((w.onChange c).run desk).1 = { w with debounce := { w.debounce with last := c.time } } ∧
      w.Finds desk.workspace ((w.onChange c).looks desk) := by
  rw [onChange, hc, ht, Bool.and_self, if_pos rfl, Act.say_bind, Act.bind_eq]
  constructor
  · rw [Act.run, Act.run_bind, Debounce.after, if_pos ht]
    rfl
  · rw [Act.looks, Act.looks_bind]
    simp only [pure, Act.looks, List.append_nil]
    exact finds_build w (desk.say _)

/-- A change that is not taken up leaves no trace. -/
theorem onChange_passed {c : Change} (h : (w.concerns c && w.debounce.accepts c.time) = false) :
    w.onChange c = .done w := by
  rw [onChange, h]
  rfl

end Watch

/-! ## Watches at work -/

/-- A change and what it makes of the files. -/
structure Update where
  change : Change
  edit : Workspace → Workspace

/-- A watch at work: its desk, the files as the last change left them, and what the last build has
read of them. -/
structure Vigil where
  watch : Watch
  desk : Desk
  found : Workspace
  compiled : List (String × Outcome String)

namespace Vigil

/-- A watch that has begun and has built once. -/
def start (w : Watch) (desk : Desk) : Vigil :=
  { watch := w
    desk := (w.start.run.run desk).2
    found := desk.workspace
    compiled := w.start.run.looks desk }

/-- After an update; an act that reads no file has built nothing. -/
def after (v : Vigil) (u : Update) : Vigil :=
  let desk := { v.desk with workspace := u.edit v.desk.workspace }
  let act := v.watch.onChange u.change
  { watch := (act.run desk).1
    desk := (act.run desk).2
    found := desk.workspace
    compiled := if (act.looks desk).isEmpty then v.compiled else act.looks desk }

def run (v : Vigil) (us : List Update) : Vigil := us.foldl after v

/-- The last build has read the files as the last change left them. -/
def IsCurrent (v : Vigil) : Prop := v.watch.Finds v.found v.compiled

variable {v : Vigil} {u : Update}

theorem start_isCurrent (w : Watch) (desk : Desk) : (start w desk).IsCurrent :=
  Watch.finds_start w desk

theorem run_append (v : Vigil) (us us' : List Update) : v.run (us ++ us') = (v.run us).run us' :=
  List.foldl_append ..

/-- An update that is taken up is built, and the next gap is counted from it. -/
theorem after_taken (hc : v.watch.concerns u.change = true)
    (ht : ¬ u.change.time - v.watch.debounce.last < v.watch.debounce.gap) :
    (v.after u).watch =
        { v.watch with debounce := { v.watch.debounce with last := u.change.time } } ∧
      (v.after u).IsCurrent := by
  have accepts : v.watch.debounce.accepts u.change.time = true := by
    simpa [Debounce.accepts] using ht
  obtain ⟨hw, hfinds⟩ := Watch.onChange_taken hc accepts
    { v.desk with workspace := u.edit v.desk.workspace }
  refine ⟨hw, ?_⟩
  have hpath : (v.after u).watch.path = v.watch.path := by rw [after, hw]
  have hread : (v.after u).compiled =
      (v.watch.onChange u.change).looks { v.desk with workspace := u.edit v.desk.workspace } := by
    simp only [after, List.isEmpty_iff, hfinds.ne_nil, if_false]
  rw [IsCurrent, Watch.Finds, hpath, hread]
  exact hfinds

theorem after_passed (ht : u.change.time - v.watch.debounce.last < v.watch.debounce.gap) :
    (v.after u).watch = v.watch ∧ (v.after u).compiled = v.compiled := by
  have h : v.watch.onChange u.change = .done v.watch := by
    apply Watch.onChange_passed
    simp [Debounce.accepts, ht]
  simp [after, h, Act.run, Act.looks]

/-! ## The last change that was taken up -/

/-- No change of a list has been taken up since a time. -/
def AllWithin (gap time : Float) (us : List Update) : Prop :=
  ∀ u ∈ us, u.change.time - time < gap

/-- Either no update has been taken up, or one was, which has been built, and none after it. -/
theorem run_cases (v : Vigil) (us : List Update)
    (concerned : ∀ u ∈ us, v.watch.concerns u.change = true) :
    ((v.run us).compiled = v.compiled ∧ AllWithin v.watch.debounce.gap v.watch.debounce.last us) ∨
      ∃ before u rest, us = before ++ u :: rest ∧ (v.run (before ++ [u])).IsCurrent ∧
        (v.run us).compiled = (v.run (before ++ [u])).compiled ∧
        AllWithin v.watch.debounce.gap u.change.time rest := by
  induction us generalizing v with
  | nil => exact .inl ⟨rfl, fun u hu => absurd hu List.not_mem_nil⟩
  | cons u us ih =>
    obtain ⟨hu, hus⟩ := List.forall_mem_cons.1 concerned
    have later {w : Watch} (hw : (v.after u).watch = w) (hwatched : w.watched = v.watch.watched) :
        ∀ x ∈ us, (v.after u).watch.concerns x.change = true := by
      intro x hx
      rw [hw, Watch.concerns, hwatched]
      exact hus x hx
    by_cases ht : u.change.time - v.watch.debounce.last < v.watch.debounce.gap
    case pos =>
      obtain ⟨hw, hcompiled⟩ := after_passed ht
      rcases ih (v.after u) (later hw rfl) with ⟨hkept, hwithin⟩ | ⟨before, x, rest, rfl, hx⟩
      · rw [hw] at hwithin
        exact .inl ⟨hkept.trans hcompiled, List.forall_mem_cons.2 ⟨ht, hwithin⟩⟩
      · rw [hw] at hx
        exact .inr ⟨u :: before, x, rest, rfl, hx⟩
    case neg =>
      obtain ⟨hw, hcurrent⟩ := after_taken hu ht
      rcases ih (v.after u) (later hw rfl) with ⟨hkept, hwithin⟩ | ⟨before, x, rest, rfl, hx⟩
      · rw [hw] at hwithin
        exact .inr ⟨[], u, us, rfl, hcurrent, hkept, hwithin⟩
      · rw [hw] at hx
        exact .inr ⟨u :: before, x, rest, rfl, hx⟩

theorem of_debounce {path : String} {nodeId : Datum} {s : Settings} {w : Watch}
    (h : Watch.of path nodeId s = .ok w) : w.debounce = { gap := s.debounce } := by
  simp only [Watch.of] at h
  split at h <;> obtain ⟨tokens, -, h⟩ := Outcome.bind_ok h
  all_goals exact (congrArg Watch.debounce (Except.ok.inj h)).symm

/-- What the last build has read is what the last change taken up has left, or what was there in
the beginning when none was; every change after it has come within the gap. So the last change of
all is built if it has not come within the gap of one before it, or of the time zero. -/
theorem compiled_last_taken {path : String} {nodeId : Datum} {s : Settings} {w : Watch}
    (hw : Watch.of path nodeId s = .ok w) (desk : Desk) (us : List Update)
    (concerned : ∀ u ∈ us, w.concerns u.change = true) :
    (((start w desk).run us).compiled = (start w desk).compiled ∧ (start w desk).IsCurrent ∧
          AllWithin s.debounce 0.0 us ∨
        ∃ before u rest, us = before ++ u :: rest ∧
          ((start w desk).run (before ++ [u])).IsCurrent ∧
          ((start w desk).run us).compiled = ((start w desk).run (before ++ [u])).compiled ∧
          AllWithin s.debounce u.change.time rest) ∧
      ∀ before u, us = before ++ [u] → ¬ u.change.time - 0.0 < s.debounce →
        (∀ x ∈ before, ¬ u.change.time - x.change.time < s.debounce) →
        ((start w desk).run us).IsCurrent := by
  have cases := run_cases (start w desk) us concerned
  rw [show (start w desk).watch = w from rfl, of_debounce hw] at cases
  constructor
  · rcases cases with ⟨hkept, hwithin⟩ | taken
    · exact .inl ⟨hkept, start_isCurrent w desk, hwithin⟩
    · exact .inr taken
  · rintro before u rfl hzero hbefore
    rcases cases with ⟨-, hwithin⟩ | ⟨before', x, rest, hus, hcurrent, -, hwithin⟩
    · exact absurd (hwithin u (by simp)) hzero
    · rcases split_snoc hus with ⟨rfl, rfl, rfl⟩ | ⟨rest, rfl, rfl⟩
      · exact hcurrent
      · exact absurd (hwithin u (by simp)) (hbefore x (by simp))

/-! ## Two saves in a row -/

/-- The text of an export with one frame. -/
def exportOf (name : String) : String :=
  "\x7b\"document\": \x7b\"id\": \"1:1\", \"type\": \"FRAME\", \"name\": \"" ++ name ++ "\"\x7d\x7d"

/-- The export is saved with another text. -/
def saved (text : String) (time : Float) : Update where
  change := { path := "export.json", isFolder := false, time }
  edit := fun files => files.put "export.json" text

/-- The settings when nothing is set. -/
def unset : Settings where
  token := .null
  fileKey := .null
  nodeId := .null
  outputFolder := .text Settings.defaultFolder
  snapshotFolder := .null
  writesPage := true
  writesSheet := true
  maxDepth := .int 10
  projectTokens := .null
  debounce := 1.0

def exportWatch : Watch where
  path := "export.json"
  nodeId := .null
  settings := unset
  watched := ["export.json"]
  debounce := { gap := 1.0 }

/-- A desk with an export that holds nothing. -/
def bareDesk : Desk := { workspace := .ofFiles [("export.json", "\x7b\x7d")] }

def twoSaves : List Update := [saved (exportOf "Card") 1000.0, saved (exportOf "Badge") 1000.5]

theorem compiled_last_taken_save :
    Watch.of "export.json" .null unset = .ok exportWatch ∧
      (∀ u ∈ twoSaves.take 1, exportWatch.concerns u.change = true) ∧
      ((start exportWatch bareDesk).run (twoSaves.take 1)).IsCurrent := by
  have hw : Watch.of "export.json" .null unset = .ok exportWatch := rfl
  have concerned : ∀ u ∈ twoSaves.take 1, exportWatch.concerns u.change = true := by decide
  refine ⟨hw, concerned, ?_⟩
  exact (compiled_last_taken hw bareDesk _ concerned).2 [] _ rfl (by decide)
    (fun x hx => absurd hx List.not_mem_nil)

/-- What is saved is what is read, unless a folder is in its place. -/
theorem read_saved (files : Workspace) (text : String) (time : Float) :
    ((saved text time).edit files).read "export.json" = .ok text ∨
      ((saved text time).edit files).read "export.json" = .error (.aDirectory "export.json") := by
  have located (ws : Workspace) : ws.locate "export.json" = .ok ["export.json"] := rfl
  have found : ((saved text time).edit files).files.lookup ["export.json"] = some text :=
    Table.lookup_set_self ..
  rw [Workspace.read, located, Outcome.ok_bind, Workspace.spot, found]
  cases ((saved text time).edit files).isFolder ["export.json"]
  · exact .inl rfl
  · exact .inr rfl

theorem second_save_lost :
    Watch.of "export.json" .null unset = .ok exportWatch ∧
      (∀ u ∈ twoSaves, exportWatch.concerns u.change = true) ∧
      twoSaves.Pairwise (fun u u' => u.change.time ≤ u'.change.time) ∧
      ¬ ((start exportWatch bareDesk).run twoSaves).IsCurrent := by
  refine ⟨rfl, by decide, by simp [twoSaves, saved]; decide, fun hcurrent => ?_⟩
  let first := (start exportWatch bareDesk).after (saved (exportOf "Card") 1000.0)
  obtain ⟨hw, built⟩ := after_taken (v := start exportWatch bareDesk)
    (u := saved (exportOf "Card") 1000.0) (by decide) (by decide)
  obtain ⟨hw', lost⟩ := after_passed (v := first) (u := saved (exportOf "Badge") 1000.5)
    (by simp only [first, hw]; decide)
  have same : (first.after (saved (exportOf "Badge") 1000.5)).found.read "export.json" =
      .ok (exportOf "Card") := by
    have hread := hcurrent.1
    rw [show (start exportWatch bareDesk).run twoSaves =
      first.after (saved (exportOf "Badge") 1000.5) from rfl, lost, hw', built.1, hw] at hread
    exact (congrArg Prod.snd (Option.some.inj hread)).symm
  rcases read_saved first.desk.workspace (exportOf "Badge") 1000.5 with h | h
  · exact absurd (Except.ok.inj (same.symm.trans h)) (by decide)
  · exact absurd (same.symm.trans h) (by simp)

end Vigil

end Maquette
