/-
What stands in a workspace when files are written and folders are made. All folders on the way to a place
that a path leads to are there, so neither a file nor a folder comes to be below a file: what a file holds
stays until the file is written anew, and its path leads to it all the time.
-/
import Maquette.Proofs.Datum
import Maquette.Proofs.Text
import Maquette.Workspace

namespace Maquette.Workspace

variable {w w' : Workspace} {path text : String} {p q : Place}

/-! ## Folders -/

theorem leadsTo_iff : leadsTo p q = true ↔ p <+: q ∧ p.length < q.length := by
  unfold leadsTo
  rw [Bool.and_eq_true, decide_eq_true_eq, beq_iff_eq, List.prefix_iff_eq_take, and_comm, eq_comm]

/-- All places on the way to a place are folders. -/
def Rooted (w : Workspace) (p : Place) : Prop := ∀ q, leadsTo q p = true → w.isFolder q = true

/-- What is a folder in one workspace is one in the other. -/
def KeepsFolders (w w' : Workspace) : Prop := ∀ q, w.isFolder q = true → w'.isFolder q = true

theorem Rooted.mono (h : w.Rooted p) (hw : w.KeepsFolders w') : w'.Rooted p := fun q hq => hw q (h q hq)

/-- The way to a place below a folder runs through folders. -/
theorem Rooted.step (h : w.Rooted p) (hp : w.isFolder p = true) (step : String) : w.Rooted (p ++ [step]) := by
  intro q hq
  obtain ⟨hbegins, hlength⟩ := leadsTo_iff.1 hq
  rcases List.prefix_concat_iff.1 hbegins with rfl | hbegins
  · exact absurd hlength (lt_irrefl _)
  · rcases lt_or_eq_of_le hbegins.length_le with hlt | heq
    · exact h q (leadsTo_iff.2 ⟨hbegins, hlt⟩)
    · rw [hbegins.eq_of_length heq]
      exact hp

theorem Rooted.after (h : w.Rooted p) (hp : w.isFolder p = true) (step : String) : w.Rooted (after p step) := by
  unfold Workspace.after
  split
  · exact h
  split
  · exact h.step hp step
  split
  · exact h
  split
  · exact h.step hp step
  · intro q hq
    obtain ⟨hbegins, hlength⟩ := leadsTo_iff.1 hq
    have hle := (List.dropLast_prefix p).length_le
    exact h q (leadsTo_iff.2 ⟨hbegins.trans (List.dropLast_prefix p), by omega⟩)

theorem rooted_start (w : Workspace) (path : String) : w.Rooted (start path) := by
  intro q hq
  obtain ⟨hbegins, hlength⟩ := leadsTo_iff.1 hq
  unfold start at hlength
  split at hlength
  · obtain rfl : q = [] := List.length_eq_zero_iff.1 (by simpa using hlength)
    simp [isFolder]
  · simp at hlength

theorem spot_folder : w.spot p = .folder ↔ w.isFolder p = true := by
  unfold spot
  split
  · simp_all
  · cases hl : w.files.lookup p <;> simp_all

theorem spot_file : w.spot p = .file text ↔ w.isFolder p = false ∧ w.files.lookup p = some text := by
  unfold spot
  split
  · simp_all
  · cases hl : w.files.lookup p <;> simp_all

theorem spot_vacant (h : w.spot p = .vacant) : w.isFolder p = false ∧ w.files.lookup p = none := by
  unfold spot at h
  split at h
  · cases h
  · cases hl : w.files.lookup p <;> simp_all

/-! ## Paths -/

/-- A step is taken from a folder. -/
theorem walk_cons {step : String} {rest : List String} :
    w.walk path p (step :: rest) = .ok q ↔ w.isFolder p = true ∧ ¬ longestName < step.utf8ByteSize ∧
      w.walk path (after p step) rest = .ok q := by
  rw [walk]
  constructor
  · intro h
    split at h
    · cases h
    · cases h
    · rename_i hfolder
      split at h
      · cases h
      · exact ⟨spot_folder.1 hfolder, by assumption, h⟩
  · rintro ⟨hfolder, hshort, h⟩
    rw [spot_folder.2 hfolder]
    dsimp only
    rw [if_neg hshort]
    exact h

theorem walk_rooted {steps : List String} (hp : w.Rooted p) (h : w.walk path p steps = .ok q) : w.Rooted q := by
  induction steps generalizing p with
  | nil =>
    cases h
    exact hp
  | cons step rest ih =>
    obtain ⟨hfolder, -, h⟩ := walk_cons.1 h
    exact ih (hp.after hfolder step) h

theorem walk_mono {steps : List String} (hw : w.KeepsFolders w') (h : w.walk path p steps = .ok q) :
    w'.walk path p steps = .ok q := by
  induction steps generalizing p with
  | nil => exact h
  | cons step rest ih =>
    obtain ⟨hfolder, hshort, h⟩ := walk_cons.1 h
    exact walk_cons.2 ⟨hw p hfolder, hshort, ih h⟩

/-- The last step of a path is taken from some place. -/
theorem walk_concat {steps : List String} {last : String} (h : w.walk path p (steps ++ [last]) = .ok q) :
    ∃ m, q = after m last := by
  induction steps generalizing p with
  | nil =>
    obtain ⟨-, -, h⟩ := walk_cons.1 h
    cases h
    exact ⟨p, rfl⟩
  | cons step rest ih =>
    obtain ⟨-, -, h⟩ := walk_cons.1 h
    exact ih h

theorem locate_walk (h : w.locate path = .ok q) :
    path.isEmpty = false ∧ path.toList.contains '\x00' = false ∧ ¬ longestPath < path.utf8ByteSize ∧
      w.walk path (start path) (Path.steps path) = .ok q := by
  unfold locate at h
  split at h
  · cases h
  split at h
  · cases h
  split at h
  · cases h
  · refine ⟨?_, ?_, by assumption, h⟩ <;> simp_all

theorem locate_rooted (h : w.locate path = .ok q) : w.Rooted q :=
  walk_rooted (rooted_start w path) (locate_walk h).2.2.2

theorem locate_mono (hw : w.KeepsFolders w') (h : w.locate path = .ok q) : w'.locate path = .ok q := by
  obtain ⟨hempty, hnul, hlong, hwalk⟩ := locate_walk h
  unfold locate
  rw [if_neg (by simp [hempty]), if_neg (by simpa using hnul), if_neg hlong]
  exact walk_mono hw hwalk

/-! ## Reading -/

theorem read_iff : w.read path = .ok text ↔
    ∃ p, w.locate path = .ok p ∧ w.isFolder p = false ∧ w.files.lookup p = some text := by
  unfold read
  constructor
  · intro h
    obtain ⟨p, hp, h⟩ := Outcome.bind_ok h
    refine ⟨p, hp, spot_file.1 ?_⟩
    cases hs : w.spot p with
    | folder => rw [hs] at h; cases h
    | file other => rw [hs] at h; cases h; rfl
    | vacant => rw [hs] at h; cases h
  · rintro ⟨p, hp, hfile⟩
    rw [hp, Outcome.ok_bind, spot_file.2 hfile]
    rfl

/-- What a file holds stays. -/
def KeepsFile (w w' : Workspace) (p : Place) : Prop :=
  ∀ text, w.isFolder p = false → w.files.lookup p = some text →
    w'.isFolder p = false ∧ w'.files.lookup p = some text

/-! ## Writing -/

theorem isFolder_iff : w.isFolder q = true ↔ (∀ step ∈ q, step = "..") ∨ q = ["/"] ∨ q ∈ w.folders ∨
    (∃ p ∈ w.files.map Prod.fst, leadsTo q p = true) ∨ ∃ p ∈ w.folders, leadsTo q p = true := by
  unfold isFolder
  simp [List.any_eq_true, or_assoc]

/-- Writing a file makes a folder of nothing. -/
theorem isFolder_written (h : w.Rooted p) :
    ({ w with files := Table.set w.files p text } : Workspace).isFolder q = w.isFolder q := by
  rw [Bool.eq_iff_iff]
  constructor
  · intro hq
    rw [isFolder_iff] at hq
    rcases hq with hup | hroot | hfolder | ⟨f, hf, hlead⟩ | hbelow
    · exact isFolder_iff.2 (.inl hup)
    · exact isFolder_iff.2 (.inr (.inl hroot))
    · exact isFolder_iff.2 (.inr (.inr (.inl hfolder)))
    · rcases Table.mem_fst_set.1 hf with rfl | hf
      · exact h q hlead
      · exact isFolder_iff.2 (.inr (.inr (.inr (.inl ⟨f, hf, hlead⟩))))
    · exact isFolder_iff.2 (.inr (.inr (.inr (.inr hbelow))))
  · intro hq
    rw [isFolder_iff] at hq ⊢
    refine hq.imp id (Or.imp id (Or.imp id (Or.imp ?_ id)))
    rintro ⟨f, hf, hlead⟩
    exact ⟨f, Table.mem_fst_set.2 (.inr hf), hlead⟩

/-- A file that is written is at the place of its path, and all else is as it was. -/
theorem write_ok (h : w.write path text = .ok w') : ∃ p, w.locate path = .ok p ∧ w.isFolder p = false ∧
    w' = { w with files := Table.set w.files p text } ∧ ∀ q, w'.isFolder q = w.isFolder q := by
  obtain ⟨p, hp, h⟩ := Outcome.bind_ok h
  have hfolder : w.isFolder p = false := by
    cases hf : w.isFolder p with
    | false => rfl
    | true => rw [spot_folder.2 hf] at h; cases h
  have hw' : w' = { w with files := Table.set w.files p text } := by
    split at h
    · cases h
    · cases h
      rfl
  exact ⟨p, hp, hfolder, hw', fun q => by rw [hw', isFolder_written (locate_rooted hp)]⟩

/-- What is written is read. -/
theorem read_written (h : w.write path text = .ok w') : w'.read path = .ok text := by
  obtain ⟨p, hp, hfolder, rfl, hsame⟩ := write_ok h
  have hp' := locate_mono (fun q hq => (hsame q).trans hq) hp
  exact read_iff.2 ⟨p, hp', (hsame p).trans hfolder, Table.lookup_set_self⟩

/-! ## Making folders -/

theorem isFolder_made : ({ w with folders := w.folders ++ [p] } : Workspace).isFolder q = true ↔
    w.isFolder q = true ∨ q = p ∨ leadsTo q p = true := by
  rw [isFolder_iff, isFolder_iff]
  simp only [List.mem_append, List.mem_singleton, or_and_right, exists_or, exists_eq_left]
  grind

/-- A folder that is made below folders is a new one at most itself. -/
theorem Rooted.isFolder_made (h : w.Rooted p) :
    ({ w with folders := w.folders ++ [p] } : Workspace).isFolder q = true ↔ w.isFolder q = true ∨ q = p := by
  rw [Workspace.isFolder_made]
  constructor
  · rintro (hq | rfl | hq)
    · exact .inl hq
    · exact .inr rfl
    · exact .inl (h q hq)
  · rintro (hq | rfl)
    · exact .inl hq
    · exact .inr (.inl rfl)

/-- A folder is made where nothing was, so all files stay. -/
theorem Rooted.keeps_made (h : w.Rooted p) (hp : w.files.lookup p = none) :
    w.KeepsFolders { w with folders := w.folders ++ [p] } ∧
      ∀ q, w.KeepsFile { w with folders := w.folders ++ [p] } q := by
  refine ⟨fun q hq => h.isFolder_made.2 (.inl hq), fun q text hq hfile => ⟨?_, hfile⟩⟩
  rw [Bool.eq_false_iff, ne_eq, h.isFolder_made]
  rintro (hfolder | rfl)
  · rw [hq] at hfolder
    cases hfolder
  · rw [hp] at hfile
    cases hfile

theorem KeepsFile.trans {w'' : Workspace} (h : w.KeepsFile w' p) (h' : w'.KeepsFile w'' p) : w.KeepsFile w'' p :=
  fun text hp hfile => h' text (h text hp hfile).1 (h text hp hfile).2

/-- Making folders takes none away, and leaves all files as they are. -/
theorem makeFrom_ok {steps : List String} (hp : w.Rooted p) (h : makeFrom path w p steps = .ok w') :
    w.KeepsFolders w' ∧ ∀ q, w.KeepsFile w' q := by
  induction steps generalizing w p with
  | nil =>
    unfold makeFrom at h
    split at h
    · cases h
      exact ⟨fun q hq => hq, fun q text hq hfile => ⟨hq, hfile⟩⟩
    · cases h
    · rename_i hvacant
      cases h
      exact hp.keeps_made (spot_vacant hvacant).2
  | cons step rest ih =>
    unfold makeFrom at h
    split at h
    · exact ih hp h
    split at h
    · cases h
    split at h
    · cases h
    · rename_i hfolder
      split at h
      · cases h
      · exact ih (hp.after (spot_folder.1 hfolder) step) h
    · rename_i hvacant
      split at h
      · cases h
      · -- the folder that is made is one to go on from
        obtain ⟨hfolders, hfiles⟩ := hp.keeps_made (spot_vacant hvacant).2
        have hmade : ({ w with folders := w.folders ++ [p] } : Workspace).isFolder p = true :=
          hp.isFolder_made.2 (.inr rfl)
        obtain ⟨hfolders', hfiles'⟩ := ih ((hp.mono hfolders).after hmade step) h
        exact ⟨fun q hq => hfolders' q (hfolders q hq), fun q => (hfiles q).trans (hfiles' q)⟩

theorem makeFolder_ok (h : w.makeFolder path = .ok w') : w.KeepsFolders w' ∧ ∀ q, w.KeepsFile w' q := by
  unfold makeFolder at h
  split at h
  · cases h
  split at h
  · cases h
  · exact makeFrom_ok (rooted_start w path) h

/-! ## Files that stay -/

/-- A file that stays is read as before. -/
theorem read_kept (hw : w.KeepsFolders w') (hfile : ∀ p, w.locate path = .ok p → w.KeepsFile w' p)
    (h : w.read path = .ok text) : w'.read path = .ok text := by
  obtain ⟨p, hp, hheld⟩ := read_iff.1 h
  exact read_iff.2 ⟨p, locate_mono hw hp, hfile p hp text hheld.1 hheld.2⟩

/-- Writing a file leaves what is at another place. -/
theorem read_beside {other held : String}
    (hother : ∀ p q, w.locate path = .ok p → w.locate other = .ok q → p ≠ q)
    (h : w.write path text = .ok w') (hread : w.read other = .ok held) : w'.read other = .ok held := by
  obtain ⟨p, hp, -, rfl, hsame⟩ := write_ok h
  refine read_kept (fun q hq => (hsame q).trans hq) (fun q hq text' hfolder hfile => ?_) hread
  refine ⟨(hsame q).trans hfolder, ?_⟩
  show List.lookup q (Table.set w.files p text) = some text'
  rw [Table.lookup_set_ne (hother p q hp hq).symm]
  exact hfile

/-! ## Names at the end of paths -/

/-- The last step of a path goes to a file of the given name. -/
def EndsIn (path last : String) : Prop :=
  (∃ steps, Path.steps path = steps ++ [last]) ∧ Path.isIdle last = false ∧ last ≠ ".."

/-- A path leads to a place of the name that it ends in. -/
theorem EndsIn.getLast?_eq {last : String} (h : EndsIn path last) (hp : w.locate path = .ok p) :
    p.getLast? = some last := by
  obtain ⟨⟨steps, hsteps⟩, hidle, hup⟩ := h
  have hwalk := (locate_walk hp).2.2.2
  rw [hsteps] at hwalk
  obtain ⟨m, rfl⟩ := walk_concat hwalk
  rw [after, hidle, if_neg Bool.false_ne_true, if_pos (by simpa using hup), List.getLast?_append]
  rfl

/-- Paths that end in different names lead to different places. -/
theorem EndsIn.apart {other last last' : String} (h : EndsIn path last) (h' : EndsIn other last')
    (hne : last ≠ last') (p q : Place) (hp : w.locate path = .ok p) (hq : w.locate other = .ok q) : p ≠ q := by
  rintro rfl
  have heq := (h.getLast?_eq hp).symm.trans (h'.getLast?_eq hq)
  exact hne (Option.some.inj heq)

/-! ## Steps of paths -/

theorem isAbsolute_iff : Path.isAbsolute path = true ↔ ∃ rest, path.toList = '/' :: rest := by
  unfold Path.isAbsolute Text.startsWith
  rw [Text.isSome_dropPrefix?]
  exact ⟨fun ⟨rest, h⟩ => ⟨rest, h.symm⟩, fun ⟨rest, h⟩ => ⟨rest, h.symm⟩⟩

theorem endsWith_iff : Text.endsWith path "/" = true ↔ ∃ front, path = front ++ "/" := by
  unfold Text.endsWith
  rw [Text.isSome_dropPrefix?]
  constructor
  · rintro ⟨rest, hrest⟩
    refine ⟨String.ofList rest.reverse, String.toList_injective ?_⟩
    have hpath := congrArg List.reverse hrest
    simpa using hpath.symm
  · rintro ⟨front, rfl⟩
    exact ⟨front.toList.reverse, by simp⟩

/-- A separator parts the steps before it from those behind it. -/
theorem steps_append (front rest : String) :
    Path.steps (front ++ "/" ++ rest) = Path.steps front ++ Path.steps rest := by
  rw [Path.steps, String.toList_append, String.toList_append, List.append_assoc]
  show (Text.splitOn _ (front.toList ++ '/' :: rest.toList)).map String.ofList = _
  rw [Text.splitOn_append_sep (by simp), List.map_append]
  rfl

/-- A name of a file or folder that is a step of its own from the folder it is in. -/
structure IsStep (name : String) : Prop where
  whole : ∀ c ∈ name.toList, c ≠ '/'
  idle : Path.isIdle name = false
  up : name ≠ ".."

theorem IsStep.ne_empty (h : IsStep name) : name ≠ "" := by
  rintro rfl
  cases h.idle

theorem IsStep.steps (h : IsStep name) : Path.steps name = [name] := by
  have hfree : ∀ c ∈ name.toList, decide (c = '/') = false := fun c hc => decide_eq_false (h.whole c hc)
  rw [Path.steps, Text.splitOn_word hfree, List.map_singleton, String.ofList_toList]

theorem IsStep.relative (h : IsStep name) : Path.isAbsolute name = false := by
  rw [← Bool.not_eq_true, isAbsolute_iff]
  rintro ⟨rest, hrest⟩
  exact h.whole '/' (by rw [hrest]; exact List.mem_cons_self) rfl

/-- A path that a step is joined to ends in the step. -/
theorem IsStep.endsIn (h : IsStep name) (folder : String) : EndsIn (Path.join folder name) name := by
  refine ⟨?_, h.idle, h.up⟩
  rw [Path.join, h.relative, Bool.false_or]
  split
  · exact ⟨[], h.steps⟩
  split
  · rename_i hend
    obtain ⟨front, rfl⟩ := endsWith_iff.1 hend
    exact ⟨Path.steps front, by rw [steps_append, h.steps]⟩
  · exact ⟨Path.steps folder, by rw [steps_append, h.steps]⟩

end Maquette.Workspace
