/-
What the commands write. A command reads, asks and compiles before it writes anything, and once it writes,
nothing but writing can fail. So a command that ends with a fault that it tells has written nothing, unless
that fault is one of a file or folder, and a command that builds a component and ends well has written the
files of one compiled design.
-/
import Maquette.CommandLine.Run
import Maquette.Proofs.Delivery
import Maquette.Proofs.Watch

namespace Maquette

/-! ## What is written -/

/-- What is written are all files of one compiled design, in their order. -/
def Puts.AreDelivered (puts : Puts) : Prop := ∃ files, Delivery.AreOfOne files ∧ puts = Delivery.putsOf files

/-- No file or folder fails with a fault that is told as one that a user can mend. -/
def Puts.NoneForeseen (puts : Puts) : Prop := ∀ put ∈ puts, ∀ f, put.2 = .error f → f.isForeseen = false

namespace Workspace

variable {w : Workspace} {path : String} {f : Fault}

theorem locate_foreseen (h : w.locate path = .error f) (hf : f.isForeseen = true) :
    f = .nulInPath ∨ f = .noFile path := by
  have hwalk : ∀ steps p, w.walk path p steps = .error f → f = .noFile path := by
    intro steps
    induction steps with
    | nil => rintro p ⟨⟩
    | cons step rest ih =>
      intro p h
      rw [walk] at h
      split at h
      · cases h
        cases hf
      · cases h
        rfl
      · split at h
        · cases h
          cases hf
        · exact ih _ h
  unfold locate at h
  split at h
  · cases h
    exact .inr rfl
  split at h
  · cases h
    exact .inl rfl
  split at h
  · cases h
    cases hf
  · exact .inr (hwalk _ _ h)

theorem makeFrom_foreseen {p : Place} {steps : List String} (h : makeFrom path w p steps = .error f)
    (hf : f.isForeseen = true) : f = .nulInPath := by
  induction steps generalizing w p with
  | nil =>
    unfold makeFrom at h
    split at h
    · cases h
    · cases h
      cases hf
    · cases h
  | cons step rest ih =>
    unfold makeFrom at h
    split at h
    · exact ih h
    split at h
    · cases h
      rfl
    split at h
    · cases h
      cases hf
    all_goals
      split at h
      · cases h
        cases hf
      · exact ih h

end Workspace

/-- A file or folder fails with a fault that is told only by a NUL in its path, or for want of a folder that it
could be in. -/
theorem Put.on_foreseen {put : Put} {w : Workspace} {f : Fault} (h : put.on w = .error f)
    (hf : f.isForeseen = true) : f = .nulInPath ∨ ∃ path, f = .noFile path := by
  cases put with
  | file path text =>
    rw [on, Workspace.write] at h
    cases hp : w.locate path with
    | error g =>
      rw [hp] at h
      cases h
      exact (Workspace.locate_foreseen hp hf).imp id fun h => ⟨path, h⟩
    | ok p =>
      rw [hp, Outcome.ok_bind] at h
      split at h
      · cases h
        cases hf
      · cases h
  | folder path =>
    rw [on, Workspace.makeFolder] at h
    split at h
    · cases h
      exact .inr ⟨path, rfl⟩
    split at h
    · cases h
      cases hf
    · exact .inl (Workspace.makeFrom_foreseen h hf)

/-- A job that writes as it should when it ends well, and that has not written anything when it ends with a
fault that is told and not one of writing. -/
def Job.IsHonest {α : Type} (j : Job α) (Done : α → Puts → Prop) : Prop :=
  j.Leaves fun r puts => (∀ x, r = .ok x → Done x puts) ∧
    ∀ f, r = .error f → f.isForeseen = true → puts.NoneForeseen → puts = []

namespace Job

variable {α β : Type} {j : Job α} {f : α → Job β} {Done : α → Puts → Prop} {Done' : β → Puts → Prop}

theorem isHonest_pure {a : α} (h : Done a []) : (pure a : Job α).IsHonest Done :=
  leaves_pure ⟨fun x hx => (by cases hx; exact h), fun f hf => (by cases hf)⟩

/-- What only writing can fail is honest. -/
theorem IsSure.isHonest (hj : j.IsSure Done) : j.IsHonest Done := by
  refine Leaves.mono hj fun r puts h => ⟨h.1, fun f hf htold hnone => ?_⟩
  obtain ⟨put, hput, hfault⟩ := h.2 f hf
  rw [hnone put hput f hfault] at htold
  cases htold

/-- Before an honest job, one may do what leaves the files alone. -/
theorem Within.bind_isHonest (hj : j.Within True False)
    (hf : ∀ x, (∃ desk, (j.run.run desk).1 = .ok x) → (f x).IsHonest Done') : (j >>= f).IsHonest Done' :=
  hj.bind_leaves hf fun e => ⟨fun x hx => (by cases hx), fun _ _ _ _ => rfl⟩

/-- What leaves the files alone is honest. -/
theorem Within.isHonest (hj : j.Within True False) (hDone : ∀ x, Done x []) : j.IsHonest Done :=
  hj.leaves fun _ => ⟨fun x _ => hDone x, fun _ _ _ _ => rfl⟩

theorem IsHonest.map {g : α → β} (hj : j.IsHonest Done) (h : ∀ x puts, Done x puts → Done' (g x) puts) :
    (j >>= fun x => pure (g x)).IsHonest Done' := by
  refine Leaves.map hj (fun x puts hx => ⟨fun y hy => ?_, fun f hf => (by cases hf)⟩)
    (fun e puts he => ⟨fun y hy => (by cases hy), fun f hf => he.2 f (by cases hf; rfl)⟩)
  cases hy
  exact h x puts (hx.1 x rfl)

end Job

/-- A design is compiled, and then all its files are written. -/
theorem Build.run_isHonest (d : Design) (s : Settings) :
    (Build.run d s).IsHonest fun _ puts => puts.AreDelivered := by
  refine Job.Within.bind_isHonest (Job.within_compile d s trivial) fun c hc => ?_
  obtain ⟨o, ns, hcompiled⟩ : ∃ o ns, (Compiled.ofDesign d o).exec = (.ok c, ns) := by
    obtain ⟨desk, hc⟩ := hc
    obtain ⟨tokens, desk', -, hc⟩ := Job.run_bind_ok hc
    rw [Job.run_lift] at hc
    exact ⟨_, _, Prod.ext hc rfl⟩
  refine Job.Within.bind_isHonest (Job.within_lift _) fun delivery _ => ?_
  refine Job.IsSure.isHonest ((delivery.save_isSure (Compiled.manifest_ok hcompiled)).bind fun written before h => ?_)
  obtain ⟨files, hfiles, -, hputs⟩ := h
  obtain ⟨lines, hlines⟩ := Compiled.report_ok hcompiled written
  rw [hlines]
  have hone : Delivery.AreOfOne files := ⟨d, o, c, ns, delivery, hcompiled, hfiles⟩
  refine (Job.isSure_forM_say lines).mono fun _ puts hsaid => ⟨files, hone, ?_⟩
  rw [hsaid, List.append_nil, hputs]

/-! ## The commands -/

namespace Job

variable {α β : Type} {j : Job α} {reads writes : Prop}

theorem within_load (path : String) (nodeId : Datum) (h : reads) : Within reads writes (Design.load path nodeId) :=
  (within_readDocument path h).bind fun _ => within_lift _

theorem within_settings (path : String) (h : reads) : Within reads writes (Settings.load path) := by
  refine (within_isThere _).bind fun found => ?_
  split
  · exact within_pure _
  · refine (within_readDocument path h).bind fun config => ?_
    split
    · exact (within_note _).bind fun _ => within_pure _
    · refine Within.bind ?_ fun _ => within_pure _
      refine (within_run _).bind fun _ => ?_
      unfold Settings.checkTokenFile
      split
      · refine (within_isThere _).bind fun found => ?_
        split
        · exact within_note _
        · exact within_pure _
      · exact within_pure _

theorem within_fetch (token fileKey nodeId : Datum) : Within reads writes (Service.fetch token fileKey nodeId) := by
  refine Within.bind ?_ fun document => Within.bind ?_ fun tables => ?_
  · refine Within.bind ?_ fun reply => within_lift _
    refine (within_lift _).bind fun ids => (within_ask _).bind fun reply => within_lift _
  · refine (within_ask _).bind fun reply => ?_
    split
    · exact (within_note _).bind fun _ => within_pure _
    · exact within_lift _
  · exact (within_lift _).bind fun id => within_pure _

theorem within_fetched (s : Settings) (key node : Datum) : Within reads writes (CommandLine.fetched s key node) := by
  refine Within.bind (within_catch ?_ fun e => ?_) fun found => ?_
  · exact (within_fetch _ _ _).bind fun design => within_pure _
  · split
    · exact (within_say _).bind fun _ => within_pure _
    · exact (within_throw _).bind fun _ => within_pure _
  · cases found with
    | ok design => exact within_pure _
    | error design => exact within_pure _

end Job

namespace CommandLine

/-- A command that builds has written the files of one compiled design when it ends well, else nothing. -/
def Builds (code : ℕ) (puts : Puts) : Prop := (code = 0 → puts.AreDelivered) ∧ (code ≠ 0 → puts = [])

theorem builds_refused {code : ℕ} (h : code ≠ 0) : Builds code [] := ⟨fun h' => absurd h' h, fun _ => rfl⟩

/-- Building ends with the code of success. -/
theorem run_builds (d : Design) (s : Settings) : (do Build.run d s; return 0 : Job ℕ).IsHonest Builds :=
  (Build.run_isHonest d s).map fun _ _ h => ⟨fun _ => h, fun h' => absurd rfl h'⟩

theorem generate_builds (s : Settings) (settingsPath : String) (url fileKey nodeId : Option String) :
    (generate s settingsPath url fileKey nodeId).IsHonest Builds := by
  refine Job.Within.bind_isHonest (Job.within_lift _) fun key _ => ?_
  obtain ⟨key, node⟩ := key
  dsimp only
  split
  · refine Job.Within.bind_isHonest (Job.within_say _) fun _ _ => ?_
    refine Job.Within.bind_isHonest (Job.within_say _) fun _ _ => ?_
    exact Job.isHonest_pure (builds_refused one_ne_zero)
  split
  · refine Job.Within.bind_isHonest (Job.within_say _) fun _ _ => ?_
    exact Job.isHonest_pure (builds_refused one_ne_zero)
  refine Job.Within.bind_isHonest (Job.within_say _) fun _ _ => ?_
  refine Job.Within.bind_isHonest (Job.within_fetched _ _ _) fun found _ => ?_
  cases found with
  | none => exact Job.isHonest_pure (builds_refused one_ne_zero)
  | some design => exact run_builds _ s

theorem compile_builds (s : Settings) (path : String) (nodeId : Option String) :
    (compile s path nodeId).IsHonest Builds := by
  refine Job.Within.bind_isHonest (Job.within_say _) fun _ _ => ?_
  refine Job.Within.bind_isHonest (Job.within_load _ _ trivial) fun design _ => ?_
  exact run_builds design s

/-- Looking at an export writes nothing. -/
theorem within_inspect (path : String) (nodeId : Datum) : (inspect path nodeId).Within True False := by
  refine (Job.within_load _ _ trivial).bind fun design => ?_
  refine (Job.within_lift _).bind fun lines => ?_
  exact (Job.within_forM_say lines).bind fun _ => Job.within_pure _

/-- The style sheet of tokens is written last. -/
theorem tokens_isHonest (s : Settings) (path : String) (out : Option String) :
    (tokens s path out).IsHonest fun code _ => code = 0 := by
  have hwritten : ∀ target sheet line : String, (do
      Job.folder (folderOf target)
      Job.write target sheet
      Job.say line
      return 0 : Job ℕ).IsHonest fun code _ => code = 0 := by
    intro target sheet line
    refine Job.IsSure.isHonest ((Job.isSure_folder (folderOf target)).bind fun _ _ _ => ?_)
    refine (Job.isSure_write target sheet).bind fun _ _ _ => ?_
    exact Job.leaves_say_bind line (Job.isSure_pure rfl)
  refine Job.Within.bind_isHonest (Job.within_load _ _ trivial) fun design _ => ?_
  refine Job.Within.bind_isHonest (Job.within_lift _) fun vars _ => ?_
  refine Job.Within.bind_isHonest (Job.within_run _) fun set _ => ?_
  refine Job.Within.bind_isHonest (Job.within_run _) fun sheet _ => ?_
  dsimp only
  split
  · exact Job.Within.bind_isHonest (Job.within_pure _) fun target _ => hwritten target sheet _
  · refine Job.Within.bind_isHonest (Job.within_lift _) fun folder _ => ?_
    exact Job.Within.bind_isHonest (Job.within_pure _) fun target _ => hwritten target sheet _

/-- A watch has told every fault that can be told. -/
theorem start_unforeseen (w : Watch) : w.start.Leaves fun r _ => ∀ f, r = .error f → f.isForeseen = false := by
  refine Job.leaves_say_bind _ (Job.leaves_say_bind _ ?_)
  refine Job.leaves_catch (P := fun _ _ => True) (fun _ => trivial) (fun _ _ _ f hf => (by cases hf)) fun e _ _ => ?_
  split
  · exact fun desk f hf => (by cases hf)
  · rename_i hunforeseen
    exact Job.leaves_throw fun f hf => (by cases hf; simpa using hunforeseen)

/-! ## Tasks -/

/-- The tasks that build a component once. -/
def Task.BuildsOnce : Task → Prop
  | .generate .. => True
  | .compile .. => True
  | _ => False

/-- How a task ends, by what it has written: nothing when it ends in failure, unless that is one of writing, and
the files of one compiled design when it has built a component. -/
def Task.Ends (t : Task) (ending : Ending) (puts : Puts) : Prop :=
  (ending = .exit 1 → puts.NoneForeseen → puts = []) ∧ (t.BuildsOnce → ending = .exit 0 → puts.AreDelivered)

theorem Task.ends_of_builds {t : Task} {code : ℕ} {puts : Puts} (h : Builds code puts) :
    t.Ends (.exit code) puts := by
  constructor
  · intro hcode _
    cases hcode
    exact h.2 one_ne_zero
  · intro _ hcode
    cases hcode
    exact h.1 rfl

theorem Task.run_isHonest (t : Task) (settings : Outcome Settings) (settingsPath : String) :
    (t.run settings settingsPath).IsHonest t.Ends := by
  cases t with
  | generate url fileKey choices =>
    refine Job.Within.bind_isHonest (Job.within_lift _) fun s _ => ?_
    exact (generate_builds _ _ _ _ _).map fun code puts => Task.ends_of_builds
  | compile path choices =>
    refine Job.Within.bind_isHonest (Job.within_lift _) fun s _ => ?_
    exact (compile_builds _ _ _).map fun code puts => Task.ends_of_builds
  | watch path choices =>
    refine Job.Within.bind_isHonest (Job.within_lift _) fun s _ => ?_
    refine Job.Within.bind_isHonest (Job.within_lift _) fun w _ => ?_
    refine Job.Leaves.map (start_unforeseen w)
      (fun _ puts _ => ⟨fun ending hending => ?_, fun f hf => (by cases hf)⟩)
      (fun e puts h => ⟨fun x hx => (by cases hx), fun f hf htold => ?_⟩)
    · cases hending
      exact ⟨fun h => (by cases h), fun h => h.elim⟩
    · rw [h f (by cases hf; rfl)] at htold
      cases htold
  | inspect path nodeId =>
    refine Job.Within.bind_isHonest (Job.within_lift _) fun node _ => ?_
    have hnothing : (CommandLine.inspect path node).IsHonest fun _ puts => puts = [] :=
      (within_inspect path node).isHonest fun _ => rfl
    exact hnothing.map fun code puts h => ⟨fun _ _ => h, fun h' => h'.elim⟩
  | tokens path out output =>
    refine Job.Within.bind_isHonest (Job.within_lift _) fun s _ => ?_
    refine (tokens_isHonest _ _ _).map fun code puts h => ⟨fun h' => ?_, fun h' => h'.elim⟩
    rw [h] at h'
    cases h'

/-! ## Runs -/

/-- The ending of a task, whether it has come to it or been stopped before. -/
def endingOf : Except Ending Ending → Ending
  | .ok ending => ending
  | .error ending => ending

/-- A request ends like its task, and with the code of failure when its task ends with a fault that is told. -/
theorem Request.run_leaves (r : Request) (environmentToken : Option String) :
    (r.run environmentToken).Leaves fun result puts =>
      ∀ ending, result = .ok ending → r.task.Ends ending puts := by
  have htask : (do
      let config ← Settings.load r.settings
      let ending ← r.task.run (Settings.ofConfig config environmentToken) r.settings
      return .ok ending : Job (Except Ending Ending)).IsHonest fun e => r.task.Ends (endingOf e) := by
    refine Job.Within.bind_isHonest (Job.within_settings _ trivial) fun config _ => ?_
    exact (Task.run_isHonest _ _ _).map fun ending puts h => h
  refine Job.Leaves.bind (P := fun tried puts => ∀ e, tried = .ok e → r.task.Ends (endingOf e) puts)
    (Job.leaves_catch htask (fun e puts h => h.1) fun f before h => ?_) (fun e before h => ?_)
    (fun _ _ _ _ h => (by cases h))
  -- a fault that is told ends the request in failure, any other one ends the program
  · split
    · rename_i htold
      refine Job.leaves_say_bind _ (Job.leaves_pure fun e he => ?_)
      cases he
      rw [List.append_nil]
      exact ⟨fun _ => h.2 f rfl htold, fun _ hcode => (by cases hcode)⟩
    · refine Job.Leaves.bind (P := fun r _ => r = .error f) (Job.leaves_throw rfl) ?_ ?_
      · rintro x _ ⟨⟩
      · rintro e _ ⟨⟩ e' he'
        cases he'
  · cases e with
    | ok ending =>
      refine Job.leaves_pure fun ending' hending => ?_
      cases hending
      rw [List.append_nil]
      exact h _ rfl
    | error ending =>
      refine Job.leaves_pure fun ending' hending => ?_
      cases hending
      rw [List.append_nil]
      exact h _ rfl

/-- A command line that asks for nothing writes nothing. -/
theorem run_leaves (environmentToken : Option String) (args : List String) :
    (run environmentToken args).Leaves fun result puts => ∀ ending, result = .ok ending →
      (ending = .exit 1 → puts.NoneForeseen → puts = []) ∧
        ∀ r, Request.read args = .ok r → r.task.BuildsOnce → ending = .exit 0 → puts.AreDelivered := by
  unfold run
  cases hread : Request.read args with
  | ok r =>
    refine (Request.run_leaves r environmentToken).mono fun result puts h ending hending => ?_
    obtain ⟨hfailed, hbuilt⟩ := h ending hending
    refine ⟨hfailed, fun r' hr' => ?_⟩
    cases hr'
    exact hbuilt
  | error refusal =>
    refine Job.Within.leaves ((Job.within_forM_say _).bind fun _ => Job.within_pure _) fun desk ending _ => ?_
    exact ⟨fun _ _ => rfl, fun r hr => (by cases hr)⟩

/-- A request to compile an export. -/
def compileRequest : Request := ⟨Settings.defaultPath, .compile "export.json" ⟨none, none, none⟩⟩

end CommandLine

end Maquette
