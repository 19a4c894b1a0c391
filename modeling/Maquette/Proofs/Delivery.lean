/-
The files of a component. What is told of a compiled design and listed in its manifest is there whenever a
design is compiled, so once it is, nothing but the writing of its files can fail. The files of a component
have names of their own, so none is lost to a later one: when all are written, each is read as it was
generated.
-/
import Maquette.Delivery
import Maquette.Build
import Maquette.Proofs.Act
import Maquette.Proofs.Naming.Lettered
import Maquette.Proofs.Token.SheetText
import Maquette.Proofs.Workspace

namespace Maquette

/-! ## What a compiled design holds -/

/-- Every token of a set has a reference. -/
theorem TokenSet.references_ok (s : TokenSet) : ∃ table, Token.references s.toDatum = .ok table := by
  unfold Token.references
  rw [tokensOf_eq, Outcome.ok_bind]
  have hrow : ∀ d : Datum, (∃ token : Token, d = token.toDatum) → ∃ row, (do
      let name ← d.need "name"
      let text ← name.textOrEmpty
      return (← name.asKey, Datum.text (Token.cssVar text)) : Outcome (Datum × Datum)) = .ok row ∧ True := by
    rintro _ ⟨token, rfl⟩
    have hname : token.toDatum.need "name" = .ok (.text token.name) := rfl
    simp only [hname, Outcome.ok_bind, Datum.textOrEmpty_text]
    exact ⟨_, rfl, trivial⟩
  have htokens : ∀ d ∈ s.tokens.map Token.toDatum, ∃ token : Token, d = token.toDatum := by
    intro d hd
    obtain ⟨token, -, rfl⟩ := List.mem_map.1 hd
    exact ⟨token, rfl⟩
  obtain ⟨rows, hrows, -⟩ := Outcome.mapM_all htokens hrow
  exact ⟨_, by rw [hrows]; rfl⟩

namespace Compiled

variable {d : Design} {o : Options} {c : Compiled} {ns : List Notice}

/-- The name of a compiled design is that of a component, its tokens are those of a set, and what is known
about it is a verdict. -/
theorem ofDesign_ok (h : (ofDesign d o).exec = (.ok c, ns)) :
    (∃ title, Component.componentName title = .ok c.name) ∧ (∃ s : TokenSet, c.tokens = s.toDatum) ∧
      ∃ (v : Archetype.Verdict) (f : Archetype.Features) (slotNames : List Datum),
        c.intelligence = v.toDatum f slotNames := by
  rw [Run.exec_eq] at h
  obtain ⟨outline, _, -, h⟩ := Run.after_bind_ok h
  obtain ⟨tokens, _, htokens, h⟩ := Run.after_bind_ok h
  obtain ⟨intelligence, _, hclassified, h⟩ := Run.after_bind_ok h
  obtain ⟨interaction, _, -, h⟩ := Run.after_bind_ok h
  obtain ⟨matched, _, -, h⟩ := Run.after_bind_ok h
  obtain ⟨info, _, -, h⟩ := Run.after_bind_ok h
  obtain ⟨title, _, -, h⟩ := Run.after_bind_ok h
  obtain ⟨name, _, hname, h⟩ := Run.after_bind_ok h
  obtain ⟨files, _, -, h⟩ := Run.after_bind_ok h
  obtain ⟨name', _, -, h⟩ := Run.after_bind_ok h
  obtain ⟨page, _, -, h⟩ := Run.after_bind_ok h
  obtain ⟨sheet, _, -, h⟩ := Run.after_bind_ok h
  cases h
  refine ⟨⟨title, (Prod.mk.inj hname).1⟩, ?_, ?_⟩
  · obtain ⟨vars, _, -, htokens⟩ := Run.after_bind_ok htokens
    obtain ⟨s, _, -, htokens⟩ := Run.after_bind_ok htokens
    obtain ⟨_, _, -, htokens⟩ := Run.after_bind_ok htokens
    cases htokens
    exact ⟨s, rfl⟩
  · have hclassified : Archetype.classify outline = .ok intelligence := (Prod.mk.inj hclassified).1
    obtain ⟨f, -, hclassified⟩ := Outcome.bind_ok hclassified
    obtain ⟨info, -, hclassified⟩ := Outcome.bind_ok hclassified
    obtain ⟨title, -, hclassified⟩ := Outcome.bind_ok hclassified
    obtain ⟨name, -, hclassified⟩ := Outcome.bind_ok hclassified
    obtain ⟨listed, -, hclassified⟩ := Outcome.bind_ok hclassified
    obtain ⟨slots, -, hclassified⟩ := Outcome.bind_ok hclassified
    obtain ⟨slotNames, -, hclassified⟩ := Outcome.bind_ok hclassified
    cases hclassified
    exact ⟨_, _, _, rfl⟩

/-- A compiled design has a manifest. -/
theorem manifest_ok (h : (ofDesign d o).exec = (.ok c, ns)) : ∃ m, c.manifest = .ok m := by
  obtain ⟨-, ⟨s, hs⟩, -⟩ := ofDesign_ok h
  obtain ⟨table, htable⟩ := s.references_ok
  unfold manifest
  rw [← hs] at htable
  simp only [htable, Outcome.ok_bind]
  exact ⟨_, rfl⟩

/-- What comes of a compiled design can be told. -/
theorem report_ok (h : (ofDesign d o).exec = (.ok c, ns)) (written : List String) :
    ∃ lines, Build.report c written = .ok lines := by
  obtain ⟨-, -, v, f, slotNames, hv⟩ := ofDesign_ok h
  have hverdict : ∃ text, Build.verdictText c.intelligence = .ok text := by
    rw [hv]
    exact ⟨_, rfl⟩
  obtain ⟨verdict, hverdict⟩ := hverdict
  unfold Build.report
  rw [hverdict, Outcome.ok_bind]
  exact ⟨_, rfl⟩

end Compiled

/-! ## Writing the files -/

namespace Delivery

/-- The folders and files that come of writing files, each after its folder. -/
def putsOf (files : List (String × String)) : Puts :=
  files.flatMap fun file => [(.folder (Path.parent file.1), .ok ()), (.file file.1 file.2, .ok ())]

theorem areDone_putsOf (files : List (String × String)) : (putsOf files).AreDone := by
  intro put hput
  obtain ⟨file, -, hput⟩ := List.mem_flatMap.1 hput
  rcases List.mem_pair.1 hput with rfl | rfl <;> rfl

theorem writeAll_isSure (files : List (String × String)) :
    (writeAll files).IsSure fun _ puts => puts = putsOf files := by
  induction files with
  | nil => exact Job.isSure_pure rfl
  | cons file rest ih =>
    obtain ⟨path, text⟩ := file
    refine (Job.isSure_folder (Path.parent path)).bind fun _ before hfolder => ?_
    refine (Job.isSure_write path text).bind fun _ mid hwrite => ?_
    refine ih.mono fun _ puts h => ?_
    rw [hfolder, hwrite, h]
    rfl

theorem files_ok (delivery : Delivery) {c : Compiled} (hc : ∃ m, c.manifest = .ok m) :
    ∃ files, delivery.files c = .ok files := by
  obtain ⟨m, hm⟩ := hc
  rw [Delivery.files, hm, Outcome.ok_bind]
  exact ⟨_, rfl⟩

/-- The files of a compiled design are all written, once it has a manifest, and their paths are told. -/
theorem save_isSure (delivery : Delivery) {c : Compiled} (hc : ∃ m, c.manifest = .ok m) :
    (delivery.save c).IsSure fun written puts => ∃ files, delivery.files c = .ok files ∧
      written = files.map (·.1) ∧ puts = putsOf files := by
  obtain ⟨files, hfiles⟩ := delivery.files_ok hc
  unfold save
  rw [hfiles]
  refine (writeAll_isSure files).bind fun _ before h => Job.isSure_pure ⟨files, rfl, rfl, ?_⟩
  rw [h, List.append_nil]

end Delivery

/-! ## Reading the files -/

namespace Delivery

section Reading

variable {w w' : Workspace} {files : List (String × String)}

theorem on_putsOf_cons {file : String × String} (h : (putsOf (file :: files)).on w = .ok w') :
    ∃ w₁ w₂, w.makeFolder (Path.parent file.1) = .ok w₁ ∧ w₁.write file.1 file.2 = .ok w₂ ∧
      (putsOf files).on w₂ = .ok w' := by
  obtain ⟨w₁, hfolder, h⟩ := Outcome.bind_ok h
  obtain ⟨w₂, hwrite, h⟩ := Outcome.bind_ok h
  exact ⟨w₁, w₂, hfolder, hwrite, h⟩

/-- Writing files leaves those of other names as they are. -/
theorem read_beside {path text last : String} (hpath : Workspace.EndsIn path last)
    (hfiles : ∀ file ∈ files, ∃ name, Workspace.EndsIn file.1 name ∧ name ≠ last)
    (h : (putsOf files).on w = .ok w') (hread : w.read path = .ok text) :
    w'.read path = .ok text := by
  induction files generalizing w with
  | nil =>
    cases h
    exact hread
  | cons file rest ih =>
    obtain ⟨⟨name, hname, hne⟩, hrest⟩ := List.forall_mem_cons.1 hfiles
    obtain ⟨w₁, w₂, hfolder, hwrite, h⟩ := on_putsOf_cons h
    obtain ⟨hfolders, hkept⟩ := Workspace.makeFolder_ok hfolder
    refine ih hrest h (Workspace.read_beside ?_ hwrite (Workspace.read_kept hfolders (fun p _ => hkept p) hread))
    exact hname.apart hpath hne

/-- A file of several ends in one of the names that they end in. -/
theorem exists_name {names : List String}
    (hnames : List.Forall₂ (fun file name => Workspace.EndsIn file.1 name) files names)
    {file : String × String} (hfile : file ∈ files) : ∃ name ∈ names, Workspace.EndsIn file.1 name := by
  obtain ⟨i, hi, rfl⟩ := List.getElem_of_mem hfile
  have hi' := hnames.length_eq ▸ hi
  exact ⟨_, List.get_mem _ _, (List.forall₂_iff_get.1 hnames).2 i hi hi'⟩

/-- Files of different names are read as they were written. -/
theorem read_written {names : List String}
    (hnames : List.Forall₂ (fun file name => Workspace.EndsIn file.1 name) files names) (hdistinct : names.Nodup)
    (h : (putsOf files).on w = .ok w') :
    ∀ file ∈ files, w'.read file.1 = .ok file.2 := by
  induction hnames generalizing w with
  | nil => exact fun file hfile => absurd hfile List.not_mem_nil
  | cons hname hrest ih =>
    obtain ⟨hfirst, hothers⟩ := List.nodup_cons.1 hdistinct
    obtain ⟨w₁, w₂, hfolder, hwrite, h⟩ := on_putsOf_cons h
    -- all that is written after a file has another name
    refine List.forall_mem_cons.2 ⟨?_, ih hothers h⟩
    refine read_beside hname (fun file hfile => ?_) h (Workspace.read_written hwrite)
    obtain ⟨last, hlast, hends⟩ := exists_name hrest hfile
    exact ⟨last, hends, fun he => hfirst (he ▸ hlast)⟩

end Reading

/-! ## The names of the files -/

/-- What the files that are named for a component may have behind its name. -/
def suffixes : List String := [".tsx", ".types.ts", ".styles.css", ".stories.tsx", ".mdx"]

/-- The names that all components may have a file of. -/
def commonNames : List String := ["tokens.css", "irs.json", "irt.json", "iml.json", "manifest.json"]

/-- The names of the files of a component. -/
def names (d : Delivery) (name : String) : List String :=
  [name ++ ".tsx", name ++ ".types.ts", name ++ ".styles.css", name ++ ".stories.tsx"] ++
    (if d.writesPage then [name ++ ".mdx"] else []) ++ (if d.writesSheet then ["tokens.css"] else []) ++
    ["irs.json", "irt.json", "iml.json"] ++ ["manifest.json"]

theorem names_sublist (d : Delivery) (name : String) :
    (d.names name).Sublist (suffixes.map (name ++ ·) ++ commonNames) := by
  unfold names suffixes commonNames
  cases d.writesPage <;> cases d.writesSheet <;> simp

/-- The files of a component have different names: none of the common names ends like one of its own. -/
theorem names_nodup (d : Delivery) (name : String) : (d.names name).Nodup := by
  have hown : (suffixes.map (name ++ ·)).Nodup := by
    refine List.Nodup.map (fun s t h => ?_) (by decide)
    have htexts := congrArg String.toList h
    simp only [String.toList_append] at htexts
    exact String.toList_inj.1 (List.append_cancel_left htexts)
  have hapart : ∀ s ∈ suffixes, ∀ t ∈ commonNames, ¬ s.toList <:+ t.toList := by decide
  refine (List.nodup_append.2 ⟨hown, by decide, fun t ht t' ht' => ?_⟩).sublist (d.names_sublist name)
  rintro rfl
  obtain ⟨s, hs, rfl⟩ := List.mem_map.1 ht
  refine hapart s hs _ ht' ⟨name.toList, ?_⟩
  rw [String.toList_append]

theorem common_isStep : ∀ name ∈ commonNames, Workspace.IsStep name := by
  have hwhole : ∀ name ∈ commonNames, ∀ c ∈ name.toList, c ≠ '/' := by simp [commonNames]
  have hother : ∀ name ∈ commonNames, Path.isIdle name = false ∧ name ≠ ".." := by decide
  exact fun name hname => ⟨hwhole name hname, (hother name hname).1, (hother name hname).2⟩

/-- A file that is named for a component of a lettered name is a step of its own. -/
theorem named_isStep {name suffix : String} (hname : Naming.Lettered name.toList) (h : suffix ∈ suffixes) :
    Workspace.IsStep (name ++ suffix) := by
  have hsuffixes : ∀ suffix ∈ suffixes, (∀ x ∈ suffix.toList, x ≠ '/') ∧ 2 < suffix.toList.length := by
    simp [suffixes]
  obtain ⟨hplain, hlong⟩ := hsuffixes suffix h
  have hne : ∀ t : String, t.toList.length ≤ 2 → name ++ suffix ≠ t := by
    rintro _ ht rfl
    rw [String.toList_append, List.length_append] at ht
    omega
  refine ⟨fun x hx => ?_, ?_, hne ".." (by decide)⟩
  · rw [String.toList_append] at hx
    rcases List.mem_append.1 hx with hx | hx
    · rintro rfl
      exact hname.not_mem (c := '/') (by decide) hx
    · exact hplain x hx
  · rw [Path.isIdle, beq_eq_false_iff_ne.2 (hne "" (by decide)), beq_eq_false_iff_ne.2 (hne "." (by decide)),
      Bool.or_false]

/-- The files of a component of a lettered name are at paths that end in their names. -/
theorem files_endIn (d : Delivery) {c : Compiled} (hname : Naming.Lettered c.name.toList)
    {files : List (String × String)} (h : d.files c = .ok files) :
    List.Forall₂ (fun file name => Workspace.EndsIn file.1 name) files (d.names c.name) := by
  have hown : ∀ suffix ∈ suffixes,
      Workspace.EndsIn (Path.join (d.folder c.name) (c.name ++ suffix)) (c.name ++ suffix) :=
    fun _ hsuffix => (named_isStep hname hsuffix).endsIn _
  have hcommon : ∀ name ∈ commonNames, ∀ folder, Workspace.EndsIn (Path.join folder name) name :=
    fun name hmem => (common_isStep name hmem).endsIn
  obtain ⟨m, -, h⟩ := Outcome.bind_ok h
  cases h
  refine List.rel_append (List.rel_append ?sources ?documents) ?manifest
  case sources =>
    refine List.rel_append (List.rel_append ?_ ?_) ?_
    · refine .cons (hown ".tsx" (by simp [suffixes])) (.cons (hown ".types.ts" (by simp [suffixes])) ?_)
      exact .cons (hown ".styles.css" (by simp [suffixes]))
        (.cons (hown ".stories.tsx" (by simp [suffixes])) .nil)
    · cases d.writesPage with
      | false => exact .nil
      | true => exact .cons (hown ".mdx" (by simp [suffixes])) .nil
    · cases d.writesSheet with
      | false => exact .nil
      | true => exact .cons (hcommon _ (by simp [commonNames]) _) .nil
  case documents =>
    refine .cons (hcommon _ (by simp [commonNames]) _) ?_
    refine .cons (hcommon _ (by simp [commonNames]) _) ?_
    exact .cons (hcommon _ (by simp [commonNames]) _) .nil
  case manifest => exact .cons (hcommon _ (by simp [commonNames]) _) .nil

/-- Files are those of one compiled design. -/
def AreOfOne (files : List (String × String)) : Prop :=
  ∃ (design : Design) (options : Compiled.Options) (c : Compiled) (notices : List Notice) (delivery : Delivery),
    (Compiled.ofDesign design options).exec = (.ok c, notices) ∧ delivery.files c = .ok files

/-- Once the files of one compiled design are all written, each of them is read as it was generated. -/
theorem AreOfOne.read {files : List (String × String)} (h : AreOfOne files) {w w' : Workspace}
    (hw : (putsOf files).on w = .ok w') : ∀ file ∈ files, w'.read file.1 = .ok file.2 := by
  obtain ⟨design, options, c, notices, delivery, hc, hfiles⟩ := h
  obtain ⟨⟨title, htitle⟩, -, -⟩ := Compiled.ofDesign_ok hc
  obtain ⟨ps, -, htitle⟩ := Outcome.bind_ok htitle
  have hname : c.name = Naming.pascal "Component" ps := (Except.ok.inj htitle).symm
  have hlettered : Naming.Lettered c.name.toList := by
    rw [hname]
    exact Naming.pascal_lettered (by simp [Naming.Lettered, Text.isLettered]) ps
  exact read_written (delivery.files_endIn hlettered hfiles) (delivery.names_nodup c.name) hw

end Delivery

end Maquette
