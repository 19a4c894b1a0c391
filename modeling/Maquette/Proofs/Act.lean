/-
What an act finds when it is carried out at a desk: the files it reads, each with what it holds then.
An act that reads before it writes finds all its files as they were in the beginning. And what an act
writes: the files and folders that it puts down, each with what comes of it. When all of them have come
down, they tell what the files are in the end.
-/
import Maquette.Workspace

namespace Maquette

variable {α β : Type}

/-! ## What an act reads -/

namespace Act

/-- The files that an act reads at a desk, in order, each with what is found there. -/
def looks : Act α → Desk → List (String × Outcome String)
  | .done _, _ => []
  | .say line next, desk => next.looks (desk.say line)
  | .note n next, desk => next.looks { desk with notices := desk.notices ++ [n] }
  | .read path next, desk =>
    (path, desk.workspace.read path) :: (next (desk.workspace.read path)).looks desk
  | .isThere path next, desk => (next (desk.workspace.isThere path)).looks desk
  | .write path text next, desk =>
    let (outcome, desk) := desk.change (desk.workspace.write path text)
    (next outcome).looks desk
  | .folder path next, desk =>
    let (outcome, desk) := desk.change (desk.workspace.makeFolder path)
    (next outcome).looks desk
  | .ask question next, desk =>
    let (reply, desk) := desk.reply question
    (next reply).looks desk

theorem bind_eq (a : Act α) (f : α → Act β) : a >>= f = a.bind f := rfl

theorem say_bind (line : String) (f : Unit → Act β) :
    (.say line (pure ()) : Act Unit) >>= f = .say line (f ()) := rfl

/-- What is done after an act is done at the desk that the act leaves. -/
theorem run_bind (a : Act α) (f : α → Act β) (desk : Desk) :
    (a.bind f).run desk = (f (a.run desk).1).run (a.run desk).2 := by
  induction a generalizing desk with
  | done a => rfl
  | say line next ih => exact ih _
  | note n next ih => exact ih _
  | read path next ih => exact ih _ _
  | isThere path next ih => exact ih _ _
  | write path text next ih => exact ih _ _
  | folder path next ih => exact ih _ _
  | ask question next ih => exact ih _ _

theorem looks_bind (a : Act α) (f : α → Act β) (desk : Desk) :
    (a.bind f).looks desk = a.looks desk ++ (f (a.run desk).1).looks (a.run desk).2 := by
  induction a generalizing desk with
  | done a => rfl
  | say line next ih => exact ih _
  | note n next ih => exact ih _
  | read path next ih => exact congrArg _ (ih _ _)
  | isThere path next ih => exact ih _ _
  | write path text next ih => exact ih _ _
  | folder path next ih => exact ih _ _
  | ask question next ih => exact ih _ _

/-! ## Acts that do not read, or do not write -/

/-- Whether an act, whatever it is answered, stays within what it may do to the files. -/
def Within (reads writes : Prop) : Act α → Prop
  | .done _ => True
  | .say _ next => next.Within reads writes
  | .note _ next => next.Within reads writes
  | .read _ next => reads ∧ ∀ r, (next r).Within reads writes
  | .isThere _ next => ∀ r, (next r).Within reads writes
  | .write _ _ next => writes ∧ ∀ r, (next r).Within reads writes
  | .folder _ next => writes ∧ ∀ r, (next r).Within reads writes
  | .ask _ next => ∀ r, (next r).Within reads writes

/-- An act that leaves the files as they are. -/
abbrev Keeps (a : Act α) : Prop := a.Within True False

/-- An act that reads no file. -/
abbrev Blind (a : Act α) : Prop := a.Within False True

variable {reads writes : Prop} {a : Act α} {f : α → Act β}

theorem Within.bind (ha : a.Within reads writes) (hf : ∀ x, (f x).Within reads writes) :
    (a.bind f).Within reads writes := by
  induction a with
  | done a => exact hf a
  | say line next ih => exact ih ha
  | note n next ih => exact ih ha
  | read path next ih => exact ⟨ha.1, fun r => ih r (ha.2 r)⟩
  | isThere path next ih => exact fun r => ih r (ha r)
  | write path text next ih => exact ⟨ha.1, fun r => ih r (ha.2 r)⟩
  | folder path next ih => exact ⟨ha.1, fun r => ih r (ha.2 r)⟩
  | ask question next ih => exact fun r => ih r (ha r)

theorem within_notes : ∀ ns : List Notice, (notes ns).Within reads writes
  | [] => trivial
  | _ :: rest => within_notes rest

theorem Blind.looks_eq_nil (h : a.Blind) (desk : Desk) : a.looks desk = [] := by
  induction a generalizing desk with
  | done a => rfl
  | say line next ih => exact ih h _
  | note n next ih => exact ih h _
  | read path next ih => exact h.1.elim
  | isThere path next ih => exact ih _ (h _) _
  | write path text next ih => exact ih _ (h.2 _) _
  | folder path next ih => exact ih _ (h.2 _) _
  | ask question next ih => exact ih _ (h _) _

theorem Keeps.workspace_eq (h : a.Keeps) (desk : Desk) :
    (a.run desk).2.workspace = desk.workspace := by
  induction a generalizing desk with
  | done a => rfl
  | say line next ih => exact ih h _
  | note n next ih => exact ih h _
  | read path next ih => exact ih _ (h.2 _) _
  | isThere path next ih => exact ih _ (h _) _
  | write path text next ih => exact h.1.elim
  | folder path next ih => exact h.1.elim
  | ask question next ih => exact ih _ (h _) _

/-! ## Acts that read first -/

/-- An act finds every file it reads as the file was in the beginning. -/
def ReadsFirst (a : Act α) : Prop :=
  ∀ desk, ∀ look ∈ a.looks desk, look.2 = desk.workspace.read look.1

theorem Blind.readsFirst (h : a.Blind) : a.ReadsFirst := by
  intro desk look hlook
  rw [h.looks_eq_nil] at hlook
  exact absurd hlook List.not_mem_nil

theorem Keeps.readsFirst (h : a.Keeps) : a.ReadsFirst := by
  induction a with
  | done a => exact Blind.readsFirst trivial
  | say line next ih => exact fun desk => ih h (desk.say line)
  | note n next ih => exact fun desk => ih h { desk with notices := desk.notices ++ [n] }
  | read path next ih =>
    intro desk look hlook
    rcases List.mem_cons.1 hlook with rfl | hlook
    · rfl
    · exact ih _ (h.2 _) desk look hlook
  | isThere path next ih => exact fun desk => ih _ (h _) desk
  | write path text next ih => exact h.1.elim
  | folder path next ih => exact h.1.elim
  | ask question next ih => exact fun desk => ih _ (h _) (desk.reply question).2

/-- An act may be put before one that reads first as long as it leaves the files alone. -/
theorem Keeps.bind_readsFirst (ha : a.Keeps) (hf : ∀ x, (f x).ReadsFirst) :
    (a.bind f).ReadsFirst := by
  intro desk look hlook
  rw [looks_bind, List.mem_append] at hlook
  rcases hlook with hlook | hlook
  · exact ha.readsFirst desk look hlook
  · rw [hf _ _ look hlook, ha.workspace_eq]

/-- An act that reads first may be followed by anything that reads no file. -/
theorem ReadsFirst.bind_blind (ha : a.ReadsFirst) (hf : ∀ x, (f x).Blind) :
    (a.bind f).ReadsFirst := by
  intro desk look hlook
  rw [looks_bind, (hf _).looks_eq_nil, List.append_nil] at hlook
  exact ha desk look hlook

end Act

/-! ## What an act writes -/

/-- A file that is written or a folder that is made. -/
inductive Put where
  | file (path text : String)
  | folder (path : String)

/-- What a workspace is when a file is written or a folder is made. -/
def Put.on (w : Workspace) : Put → Outcome Workspace
  | .file path text => w.write path text
  | .folder path => w.makeFolder path

/-- What is written and made, in order, each with what comes of it. -/
abbrev Puts := List (Put × Outcome Unit)

/-- All of it has come down. -/
def Puts.AreDone (puts : Puts) : Prop := ∀ put ∈ puts, put.2 = .ok ()

/-- Files as they are when all of it has come down on them. -/
def Puts.on (puts : Puts) (w : Workspace) : Outcome Workspace := puts.foldlM (fun w put => put.1.on w) w

namespace Act

/-- The files that an act writes and the folders that it makes at a desk. -/
def puts : Act α → Desk → Puts
  | .done _, _ => []
  | .say line next, desk => next.puts (desk.say line)
  | .note n next, desk => next.puts { desk with notices := desk.notices ++ [n] }
  | .read path next, desk => (next (desk.workspace.read path)).puts desk
  | .isThere path next, desk => (next (desk.workspace.isThere path)).puts desk
  | .write path text next, desk =>
    let (outcome, desk) := desk.change (desk.workspace.write path text)
    (.file path text, outcome) :: (next outcome).puts desk
  | .folder path next, desk =>
    let (outcome, desk) := desk.change (desk.workspace.makeFolder path)
    (.folder path, outcome) :: (next outcome).puts desk
  | .ask question next, desk =>
    let (reply, desk) := desk.reply question
    (next reply).puts desk

theorem puts_bind (a : Act α) (f : α → Act β) (desk : Desk) :
    (a.bind f).puts desk = a.puts desk ++ (f (a.run desk).1).puts (a.run desk).2 := by
  induction a generalizing desk with
  | done a => rfl
  | say line next ih => exact ih _
  | note n next ih => exact ih _
  | read path next ih => exact ih _ _
  | isThere path next ih => exact ih _ _
  | write path text next ih => exact congrArg _ (ih _ _)
  | folder path next ih => exact congrArg _ (ih _ _)
  | ask question next ih => exact ih _ _

theorem Keeps.puts_eq_nil {a : Act α} (h : a.Keeps) (desk : Desk) : a.puts desk = [] := by
  induction a generalizing desk with
  | done a => rfl
  | say line next ih => exact ih h _
  | note n next ih => exact ih h _
  | read path next ih => exact ih _ (h.2 _) _
  | isThere path next ih => exact ih _ (h _) _
  | write path text next ih => exact h.1.elim
  | folder path next ih => exact h.1.elim
  | ask question next ih => exact ih _ (h _) _

/-- The files that an act leaves are told by what it has written and made. -/
theorem run_puts {a : Act α} {desk : Desk} (h : (a.puts desk).AreDone) :
    (a.puts desk).on desk.workspace = .ok (a.run desk).2.workspace := by
  induction a generalizing desk with
  | done a => rfl
  | say line next ih => exact ih h
  | note n next ih => exact ih h
  | read path next ih => exact ih _ h
  | isThere path next ih => exact ih _ h
  | write path text next ih =>
    unfold puts at h ⊢
    unfold run
    cases hw : desk.workspace.write path text with
    | ok w =>
      rw [hw] at h
      rw [Puts.on, List.foldlM_cons, Put.on, hw]
      exact ih _ (List.forall_mem_cons.1 h).2
    | error f =>
      rw [hw] at h
      cases (List.forall_mem_cons.1 h).1
  | folder path next ih =>
    unfold puts at h ⊢
    unfold run
    cases hw : desk.workspace.makeFolder path with
    | ok w =>
      rw [hw] at h
      rw [Puts.on, List.foldlM_cons, Put.on, hw]
      exact ih _ (List.forall_mem_cons.1 h).2
    | error f =>
      rw [hw] at h
      cases (List.forall_mem_cons.1 h).1
  | ask question next ih => exact ih _ h

end Act

/-! ## Jobs -/

namespace Job

/-- A job stays within what it may do to the files. -/
def Within (reads writes : Prop) (j : Job α) : Prop := Act.Within reads writes j.run

variable {reads writes : Prop} {j : Job α} {f : α → Job β}

theorem within_pure (a : α) : Within reads writes (pure a : Job α) := trivial

theorem within_throw (e : Fault) : Within reads writes (throw e : Job α) := trivial

theorem Within.bind (hj : j.Within reads writes) (hf : ∀ x, (f x).Within reads writes) :
    (j >>= f).Within reads writes := by
  refine Act.Within.bind hj fun r => ?_
  cases r with
  | ok x => exact hf x
  | error e => trivial

theorem within_lift (o : Outcome α) : Within reads writes (liftM o : Job α) := trivial

theorem within_run (r : Run α) : Within reads writes (liftM r : Job α) :=
  Act.Within.bind (Act.within_notes _) fun _ => trivial

theorem within_say (line : String) : Within reads writes (say line) := trivial

theorem within_note (n : Notice) : Within reads writes (note n) := trivial

theorem within_read (path : String) (h : reads) : Within reads writes (read path) :=
  ⟨h, fun r => by cases r <;> trivial⟩

theorem within_readDocument (path : String) (h : reads) :
    Within reads writes (readDocument path) := by
  refine (within_read path h).bind fun text => ?_
  split
  · exact within_pure _
  · exact within_throw _

theorem within_write (path text : String) (h : writes) : Within reads writes (write path text) :=
  ⟨h, fun _ => trivial⟩

theorem within_folder (path : String) (h : writes) : Within reads writes (folder path) :=
  ⟨h, fun _ => trivial⟩

theorem within_forM_say : ∀ lines : List String, Within reads writes (lines.forM say)
  | [] => within_pure _
  | line :: rest => (within_say line).bind fun _ => within_forM_say rest

theorem within_ask (question : Question) : Within reads writes (ask question) := fun _ => trivial

theorem within_isThere (path : String) : Within reads writes (isThere path) := fun _ => trivial

theorem within_catch {h : Fault → Job α} (hj : j.Within reads writes) (hh : ∀ e, (h e).Within reads writes) :
    Within reads writes (tryCatch j h) := by
  refine Act.Within.bind hj fun r => ?_
  cases r with
  | ok x => trivial
  | error e => exact hh e

theorem run_say_bind (line : String) (f : Unit → Job β) :
    (say line >>= f).run = .say line (f ()).run := rfl

/-- A job that leaves the files alone, and then one that reads first. -/
theorem run_readsFirst (hj : j.Within True False)
    (hf : ∀ x, (f x).run.ReadsFirst) : (j >>= f).run.ReadsFirst := by
  refine Act.Keeps.bind_readsFirst hj fun r => ?_
  cases r with
  | ok x => exact hf x
  | error e => exact Act.Blind.readsFirst trivial

/-! ## What comes of a job -/

/-- What comes of a job at any desk, together with what it has written. -/
def Leaves (j : Job α) (Q : Outcome α → Puts → Prop) : Prop := ∀ desk, Q (j.run.run desk).1 (j.run.puts desk)

variable {P : Outcome α → Puts → Prop} {Q : Outcome β → Puts → Prop}

theorem Leaves.mono {P' : Outcome α → Puts → Prop} (hj : j.Leaves P) (h : ∀ r puts, P r puts → P' r puts) :
    j.Leaves P' := fun desk => h _ _ (hj desk)

theorem leaves_pure {a : α} (h : P (.ok a) []) : (pure a : Job α).Leaves P := fun _ => h

theorem leaves_throw {e : Fault} (h : P (.error e) []) : (throw e : Job α).Leaves P := fun _ => h

theorem leaves_say_bind (line : String) {f : Unit → Job β} (hf : (f ()).Leaves Q) : (say line >>= f).Leaves Q :=
  fun desk => hf (desk.say line)

theorem leaves_folder (path : String) : (folder path).Leaves fun r puts => puts = [(.folder path, r)] := fun _ => rfl

theorem leaves_write (path text : String) : (write path text).Leaves fun r puts => puts = [(.file path text, r)] :=
  fun _ => rfl

/-- What follows a job is done with its result, and a fault ends both. -/
theorem bind_run (j : Job α) (f : α → Job β) : ∃ next : Outcome α → Act (Outcome β),
    (j >>= f).run = j.run.bind next ∧ (∀ x, next (.ok x) = (f x).run) ∧
      ∀ e, next (.error e) = .done (.error e) :=
  ⟨_, rfl, fun _ => rfl, fun _ => rfl⟩

/-- One job after another writes what both write; a fault leaves what was written before it. -/
theorem Leaves.bind (hj : j.Leaves P)
    (hf : ∀ x before, P (.ok x) before → (f x).Leaves fun r puts => Q r (before ++ puts))
    (he : ∀ e before, P (.error e) before → Q (.error e) before) : (j >>= f).Leaves Q := by
  intro desk
  obtain ⟨next, hbind, hok, herror⟩ := bind_run j f
  have hP := hj desk
  rw [hbind, Act.run_bind, Act.puts_bind]
  cases hr : (j.run.run desk).1 with
  | ok x =>
    rw [hr] at hP
    rw [hok]
    exact hf x _ hP _
  | error e =>
    rw [hr] at hP
    rw [herror, Act.run, Act.puts, List.append_nil]
    exact he e _ hP

/-- A job whose result is only changed writes the same. -/
theorem Leaves.map {g : α → β} (hj : j.Leaves P) (hok : ∀ x puts, P (.ok x) puts → Q (.ok (g x)) puts)
    (he : ∀ e puts, P (.error e) puts → Q (.error e) puts) : (j >>= fun x => pure (g x)).Leaves Q := by
  refine hj.bind (fun x before h => leaves_pure ?_) he
  rw [List.append_nil]
  exact hok x before h

/-- A fault that is caught leaves what was written before it. -/
theorem leaves_catch {h : Fault → Job α} {P' : Outcome α → Puts → Prop} (hj : j.Leaves P)
    (hok : ∀ x puts, P (.ok x) puts → P' (.ok x) puts)
    (hh : ∀ e before, P (.error e) before → (h e).Leaves fun r puts => P' r (before ++ puts)) :
    (tryCatch j h : Job α).Leaves P' := by
  intro desk
  obtain ⟨next, hbind, hnext, hcatch⟩ : ∃ next : Outcome α → Act (Outcome α),
      (tryCatch j h : Job α).run = j.run.bind next ∧ (∀ x, next (.ok x) = .done (.ok x)) ∧
        ∀ e, next (.error e) = (h e).run := ⟨_, rfl, fun _ => rfl, fun _ => rfl⟩
  have hP := hj desk
  rw [hbind, Act.run_bind, Act.puts_bind]
  cases hr : (j.run.run desk).1 with
  | ok x =>
    rw [hr] at hP
    rw [hnext, Act.run, Act.puts, List.append_nil]
    exact hok x _ hP
  | error e =>
    rw [hr] at hP
    rw [hcatch]
    exact hh e _ hP _

/-- A job that leaves the files alone writes nothing. -/
theorem Within.leaves (hj : j.Within True False) (hP : ∀ desk, P (j.run.run desk).1 []) : j.Leaves P := by
  intro desk
  rw [Act.Keeps.puts_eq_nil hj]
  exact hP desk

/-- Before a job, one may do what leaves the files alone. -/
theorem Within.bind_leaves (hj : j.Within True False)
    (hf : ∀ x, (∃ desk, (j.run.run desk).1 = .ok x) → (f x).Leaves Q) (he : ∀ e, Q (.error e) []) :
    (j >>= f).Leaves Q := by
  have hleaves : j.Leaves fun r puts => puts = [] ∧ ∃ desk, (j.run.run desk).1 = r :=
    hj.leaves fun desk => ⟨rfl, desk, rfl⟩
  refine hleaves.bind (fun x before h => ?_) (fun e before h => ?_)
  · obtain ⟨rfl, hx⟩ := h
    exact hf x hx
  · obtain ⟨rfl, -⟩ := h
    exact he e

theorem run_bind_ok {desk : Desk} {b : β} (h : ((j >>= f).run.run desk).1 = .ok b) :
    ∃ x desk', (j.run.run desk).1 = .ok x ∧ ((f x).run.run desk').1 = .ok b := by
  obtain ⟨next, hbind, hok, herror⟩ := bind_run j f
  rw [hbind, Act.run_bind] at h
  cases hr : (j.run.run desk).1 with
  | ok x =>
    rw [hr, hok] at h
    exact ⟨x, _, rfl, h⟩
  | error e =>
    rw [hr, herror] at h
    cases h

/-- A computation that leaves notices has the same result as a job. -/
theorem run_lift (r : Run α) (desk : Desk) : ((liftM r : Job α).run.run desk).1 = r.exec.1 := by
  have hlift : (liftM r : Job α).run = (Act.notes r.exec.2).bind fun _ => .done r.exec.1 := rfl
  rw [hlift, Act.run_bind]
  rfl

/-! ## Jobs that only writing can fail -/

/-- A job that ends as it should, unless a file or folder does not come down. -/
def IsSure (j : Job α) (Done : α → Puts → Prop) : Prop :=
  j.Leaves fun r puts => (∀ x, r = .ok x → Done x puts) ∧
    ∀ f, r = .error f → ∃ put ∈ puts, put.2 = .error f

variable {Done : α → Puts → Prop} {Done' : β → Puts → Prop}

theorem isSure_pure {a : α} (h : Done a []) : (pure a : Job α).IsSure Done :=
  leaves_pure ⟨fun x hx => (by cases hx; exact h), fun f hf => (by cases hf)⟩

theorem isSure_folder (path : String) : (folder path).IsSure fun _ puts => puts = [(.folder path, .ok ())] := by
  refine (leaves_folder path).mono fun r puts h => ⟨fun x hx => ?_, fun f hf => ?_⟩
  · rw [h, hx]
  · exact ⟨(.folder path, r), by rw [h]; exact List.mem_singleton_self _, hf⟩

theorem isSure_write (path text : String) :
    (write path text).IsSure fun _ puts => puts = [(.file path text, .ok ())] := by
  refine (leaves_write path text).mono fun r puts h => ⟨fun x hx => ?_, fun f hf => ?_⟩
  · rw [h, hx]
  · exact ⟨(.file path text, r), by rw [h]; exact List.mem_singleton_self _, hf⟩

theorem IsSure.mono {Sooner : α → Puts → Prop} (hj : j.IsSure Sooner)
    (h : ∀ x puts, Sooner x puts → Done x puts) : j.IsSure Done :=
  Leaves.mono hj fun _ puts hr => ⟨fun x hx => h x puts (hr.1 x hx), hr.2⟩

theorem IsSure.bind (hj : j.IsSure Done)
    (hf : ∀ x before, Done x before → (f x).IsSure fun b puts => Done' b (before ++ puts)) :
    (j >>= f).IsSure Done' := by
  refine Leaves.bind hj (fun x before h => ?_) (fun e before h => ?_)
  · refine Leaves.mono (hf x before (h.1 x rfl)) fun r puts h' => ⟨h'.1, fun f hf => ?_⟩
    obtain ⟨put, hput, he⟩ := h'.2 f hf
    exact ⟨put, List.mem_append_right before hput, he⟩
  · exact ⟨fun x hx => (by cases hx), fun f hf => h.2 f (by cases hf; rfl)⟩

theorem isSure_forM_say (lines : List String) : (lines.forM say).IsSure fun _ puts => puts = [] := by
  induction lines with
  | nil => exact isSure_pure rfl
  | cons line rest ih => exact leaves_say_bind line ih

end Job

end Maquette
