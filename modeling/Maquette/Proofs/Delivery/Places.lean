/-
Where the files of a component go. Their paths are different and lead to different places. The name of a
component is a single step whatever its design is called, so every file is in the component's own folder,
below the output folder; only the documents are elsewhere if a folder is given for them.
-/
import Maquette.Proofs.Delivery
import Maquette.Proofs.Scene.Planted

namespace Maquette.Workspace

variable {w : Workspace} {path folder name : String} {p q : Place}

/-! ## Places of paths -/

/-- Where a path leads when its steps are followed. -/
def placeOf (path : String) : Place := (Path.steps path).foldl after (start path)

theorem walk_foldl {steps : List String} (h : w.walk path p steps = .ok q) : q = steps.foldl after p := by
  induction steps generalizing p with
  | nil =>
    cases h
    rfl
  | cons step rest ih =>
    obtain ⟨-, -, h⟩ := walk_cons.1 h
    exact ih h

/-- A path leads to the same place in all workspaces in which it leads anywhere. -/
theorem locate_place (h : w.locate path = .ok q) : q = placeOf path := walk_foldl (locate_walk h).2.2.2

theorem isAbsolute_append (hne : path ≠ "") (rest : String) :
    Path.isAbsolute (path ++ rest) = Path.isAbsolute path := by
  obtain ⟨c, cs, hcs⟩ := List.exists_cons_of_ne_nil (mt String.toList_eq_nil_iff.1 hne)
  rw [Bool.eq_iff_iff, isAbsolute_iff, isAbsolute_iff, String.toList_append, hcs]
  simp

theorem start_append (hne : path ≠ "") (rest : String) : start (path ++ rest) = start path := by
  rw [start, start, isAbsolute_append hne]

/-! ## Steps -/

theorem IsStep.after (h : IsStep name) (p : Place) : after p name = p ++ [name] := by
  rw [Workspace.after, h.idle, if_neg Bool.false_ne_true, if_pos (by simpa using h.up)]

/-- What ends in a step does not end in a separator. -/
theorem IsStep.endsWith (h : IsStep name) {before : List Char} (hpath : path.toList = before ++ name.toList) :
    Text.endsWith path "/" = false := by
  rw [← Bool.not_eq_true, endsWith_iff]
  rintro ⟨front, rfl⟩
  have hlast : (front ++ "/").toList.getLast? = some '/' := by simp
  have hname : name.toList ≠ [] := mt String.toList_eq_nil_iff.1 h.ne_empty
  rw [hpath, List.getLast?_append_of_ne_nil _ hname] at hlast
  exact h.whole '/' (List.mem_of_getLast? hlast) rfl

/-- A joined path ends in what is joined to it. -/
theorem join_toList (folder name : String) : ∃ before, (Path.join folder name).toList = before ++ name.toList := by
  unfold Path.join
  split
  · exact ⟨[], rfl⟩
  split
  · exact ⟨folder.toList, String.toList_append⟩
  · exact ⟨folder.toList ++ ['/'], by rw [String.toList_append, String.toList_append]; rfl⟩

theorem join_behind (hne : folder ≠ "") (hend : Text.endsWith folder "/" = false)
    (hname : Path.isAbsolute name = false) : Path.join folder name = folder ++ "/" ++ name := by
  rw [Path.join, hname, hend, if_neg (by simpa using hne), if_neg Bool.false_ne_true]

/-- A step that is joined to a path goes on from where the path leads. -/
theorem IsStep.place (h : IsStep name) (folder : String) :
    placeOf (Path.join folder name) = placeOf folder ++ [name] := by
  by_cases hne : folder = ""
  · subst hne
    have hjoin : Path.join "" name = name := by simp [Path.join]
    rw [hjoin, placeOf, h.steps, start, h.relative]
    exact h.after []
  · by_cases hend : Text.endsWith folder "/" = true
    · have hjoin : Path.join folder name = folder ++ name := by
        rw [Path.join, h.relative, hend, if_neg (by simpa using hne), if_pos rfl]
      obtain ⟨front, rfl⟩ := endsWith_iff.1 hend
      -- the empty step at the end of the folder stays where it is
      have halone : Path.steps (front ++ "/") = Path.steps front ++ [""] := by
        have hsteps := steps_append front ""
        rw [String.append_empty] at hsteps
        exact hsteps
      rw [hjoin, placeOf, placeOf, steps_append, h.steps, halone, start_append hne, List.foldl_append,
        List.foldl_append, List.foldl_cons, List.foldl_nil, List.foldl_cons, List.foldl_nil, h.after]
      rfl
    · rw [join_behind hne (by simpa using hend) h.relative, placeOf, placeOf, steps_append, h.steps,
        String.append_assoc, start_append hne, List.foldl_append, List.foldl_cons, List.foldl_nil, h.after]

/-! ## Inside a folder -/

/-- A path that goes on from a folder with steps of its own, and leads to a place below that of the
folder wherever it leads anywhere. -/
def IsInside (folder path : String) : Prop :=
  ∃ inner : List String, inner ≠ [] ∧ (∀ step ∈ inner, IsStep step) ∧
    path = folder ++ String.join (inner.map ("/" ++ ·)) ∧ placeOf path = placeOf folder ++ inner ∧
    ∀ (w : Workspace) (q : Place), w.locate path = .ok q → q = placeOf folder ++ inner

theorem IsInside.of_join (hfolder : IsStep folder) (hname : IsStep name) (above : String) :
    IsInside (Path.join above folder) (Path.join (Path.join above folder) name) := by
  obtain ⟨before, hbefore⟩ := join_toList above folder
  have hne : Path.join above folder ≠ "" := by
    intro he
    rw [he] at hbefore
    have hnil := (List.append_eq_nil_iff.1 hbefore.symm).2
    exact hfolder.ne_empty (String.toList_eq_nil_iff.1 hnil)
  have hplace := hname.place (Path.join above folder)
  refine ⟨[name], List.cons_ne_nil _ _, List.forall_mem_singleton.2 hname, ?_, hplace,
    fun w q hq => (locate_place hq).trans hplace⟩
  rw [join_behind hne (hfolder.endsWith hbefore) hname.relative, String.append_assoc]
  simp

theorem IsInside.join (h : IsInside folder path) (hname : IsStep name) :
    IsInside folder (Path.join path name) := by
  obtain ⟨inner, hinner, hsteps, hpath, hplace, -⟩ := h
  have hlast : ∃ before, path.toList = before ++ (inner.getLast hinner).toList := by
    refine ⟨folder.toList ++ (String.join (inner.dropLast.map ("/" ++ ·))).toList ++ ['/'], ?_⟩
    rw [hpath]
    conv_lhs => rw [← List.dropLast_append_getLast hinner]
    simp
  obtain ⟨before, hbefore⟩ := hlast
  have hend := hsteps _ (List.getLast_mem hinner)
  have hne : path ≠ "" := by
    rintro rfl
    have hnil := (List.append_eq_nil_iff.1 hbefore.symm).2
    exact hend.ne_empty (String.toList_eq_nil_iff.1 hnil)
  have hbelow : placeOf (Path.join path name) = placeOf folder ++ (inner ++ [name]) := by
    rw [hname.place, hplace, List.append_assoc]
  refine ⟨inner ++ [name], by simp, ?_, ?_, hbelow, fun w q hq => (locate_place hq).trans hbelow⟩
  · exact List.forall_mem_append.2 ⟨hsteps, List.forall_mem_singleton.2 hname⟩
  · rw [join_behind hne (hend.endsWith hbefore) hname.relative, hpath, List.map_append, String.join_append,
      String.append_assoc, String.append_assoc]
    simp

end Maquette.Workspace

namespace Maquette.Naming

/-- The name of a type is not empty if its fallback is not. -/
theorem pascal_ne_empty {fallback : String} (hf : fallback ≠ "") (ps : Pieces) : pascal fallback ps ≠ "" := by
  unfold pascal
  generalize joined ps = out
  cases out with
  | nil => exact hf
  | cons c rest =>
    intro he
    have htext := congrArg String.toList he
    rw [String.toList_ofList] at htext
    split at htext
    · exact List.append_ne_nil_of_right_ne_nil _ (List.cons_ne_nil c rest) htext
    · cases htext

end Maquette.Naming

namespace Maquette.Delivery

open Workspace (IsStep IsInside placeOf)

/-! ## The name of a component -/

/-- Marks that part the steps of paths, names from their endings, or end a text. -/
def pathMarks : List Char := ['/', '\\', '.', '\x00']

/-- A name that makes one folder: not empty, and without a mark of paths. -/
structure IsFolderName (name : String) : Prop where
  ne_empty : name ≠ ""
  unmarked : ∀ mark ∈ pathMarks, mark ∉ name.toList

variable {name : String}

theorem IsFolderName.isStep (h : IsFolderName name) : IsStep name := by
  have hpoint : ∀ text : String, '.' ∈ text.toList → name ≠ text := by
    rintro _ htext rfl
    exact h.unmarked '.' (by decide) htext
  refine ⟨fun c hc => ?_, ?_, hpoint ".." (by simp)⟩
  · rintro rfl
    exact h.unmarked '/' (by decide) hc
  · rw [Path.isIdle, beq_eq_false_iff_ne.2 h.ne_empty, beq_eq_false_iff_ne.2 (hpoint "." (by simp)),
      Bool.or_false]

/-- The name of a component is lettered and makes one folder, whatever its design is called. -/
theorem componentName_isFolderName {title : Datum} (h : Component.componentName title = .ok name) :
    Naming.Lettered name.toList ∧ IsFolderName name := by
  obtain ⟨ps, -, h⟩ := Outcome.bind_ok h
  obtain rfl : Naming.pascal "Component" ps = name := Except.ok.inj h
  have hfallback : Naming.Lettered "Component".toList := by simp [Naming.Lettered, Text.isLettered]
  have hlettered := Naming.pascal_lettered hfallback ps
  have hmarks : pathMarks.all (!Text.isLettered ·) = true := by decide +kernel
  refine ⟨hlettered, Naming.pascal_ne_empty (by decide) ps, fun mark hmark => ?_⟩
  have hmark := List.all_eq_true.1 hmarks mark hmark
  exact hlettered.not_mem (by simpa using hmark)

/-! ## The files of a component -/

/-- The names of the documents of a component. -/
def documentNames : List String := ["irs.json", "irt.json", "iml.json"]

/-- A path of a document in the folder that is given for documents. -/
def IsElsewhere (d : Delivery) (path : String) : Prop :=
  ∃ folder, d.snapshots = some folder ∧ folder ≠ "" ∧ ∃ name ∈ documentNames, path = Path.join folder name

variable {c : Compiled} {files : List (String × String)}

theorem sources_inside (d : Delivery) (hfolder : IsStep c.name) (hlettered : Naming.Lettered c.name.toList) :
    ∀ file ∈ d.sources c, IsInside (d.folder c.name) file.1 := by
  have hown : ∀ suffix ∈ suffixes,
      IsInside (d.folder c.name) (Path.join (d.folder c.name) (c.name ++ suffix)) :=
    fun _ hsuffix => .of_join hfolder (named_isStep hlettered hsuffix) _
  have hsheet : IsInside (d.folder c.name) (Path.join (d.folder c.name) "tokens.css") :=
    .of_join hfolder (common_isStep _ (by simp [commonNames])) _
  unfold sources
  refine List.forall_mem_append.2 ⟨List.forall_mem_append.2 ⟨?_, ?_⟩, ?_⟩
  · simp only [List.forall_mem_cons]
    exact ⟨hown _ (by simp [suffixes]), hown _ (by simp [suffixes]), hown _ (by simp [suffixes]),
      hown _ (by simp [suffixes]), fun file hfile => absurd hfile List.not_mem_nil⟩
  · split
    · exact List.forall_mem_singleton.2 (hown _ (by simp [suffixes]))
    · exact fun file hfile => absurd hfile List.not_mem_nil
  · split
    · exact List.forall_mem_singleton.2 hsheet
    · exact fun file hfile => absurd hfile List.not_mem_nil

theorem documents_inside (d : Delivery) (hfolder : IsStep c.name) :
    ∀ file ∈ d.documents c, IsInside (d.folder c.name) file.1 ∨ d.IsElsewhere file.1 := by
  have hpaths : ∀ file ∈ d.documents c, ∃ name ∈ documentNames,
      file.1 = Path.join (d.documentFolder c.name) name := by
    simp [documents, documentNames]
  have hcommon : ∀ name ∈ documentNames, name ∈ commonNames := by decide
  intro file hfile
  obtain ⟨name, hmem, hpath⟩ := hpaths file hfile
  rw [hpath, documentFolder]
  cases hgiven : d.snapshots.filter (!·.isEmpty) with
  | none =>
    have hhidden : IsInside (d.folder c.name) (Path.join (d.folder c.name) ".ir") :=
      .of_join hfolder ⟨by simp, rfl, by simp⟩ _
    exact .inl (hhidden.join (common_isStep name (hcommon name hmem)))
  | some folder =>
    obtain ⟨hsome, hne⟩ := Option.filter_eq_some_iff.1 hgiven
    exact .inr ⟨folder, hsome, by simpa using hne, name, hmem, rfl⟩

theorem files_inside (d : Delivery) (hfolder : IsStep c.name) (hlettered : Naming.Lettered c.name.toList)
    (h : d.files c = .ok files) :
    ∀ file ∈ files, IsInside (d.folder c.name) file.1 ∨ d.IsElsewhere file.1 := by
  obtain ⟨m, -, h⟩ := Outcome.bind_ok h
  cases h
  refine List.forall_mem_append.2 ⟨List.forall_mem_append.2 ⟨fun file hfile => ?_, ?_⟩, ?_⟩
  · exact .inl (d.sources_inside hfolder hlettered file hfile)
  · exact d.documents_inside hfolder
  · have hmanifest : IsStep "manifest.json" := common_isStep _ (by simp [commonNames])
    exact List.forall_mem_singleton.2 (.inl (.of_join hfolder hmanifest _))

/-- Two paths that differ, and lead to different places in every workspace. -/
def AreApart (path other : String) : Prop :=
  path ≠ other ∧ ∀ (w : Workspace) (p q : Place),
    w.locate path = .ok p → w.locate other = .ok q → p ≠ q

theorem areApart_of_names {path other last last' : String} (h : Workspace.EndsIn path last)
    (h' : Workspace.EndsIn other last') (hne : last ≠ last') : AreApart path other := by
  refine ⟨?_, fun _ => h.apart h' hne⟩
  rintro rfl
  obtain ⟨⟨steps, hsteps⟩, -, -⟩ := h
  obtain ⟨⟨steps', hsteps'⟩, -, -⟩ := h'
  have hlasts : [last] = [last'] := List.append_inj_right' (hsteps.symm.trans hsteps') rfl
  exact hne (List.singleton_inj.1 hlasts)

/-- Files of different names are apart. -/
theorem files_apart {names : List String}
    (hnames : List.Forall₂ (fun file name => Workspace.EndsIn file.1 name) files names) (hdistinct : names.Nodup) :
    files.Pairwise fun file other => AreApart file.1 other.1 := by
  induction hnames with
  | nil => exact .nil
  | cons hname hrest ih =>
    obtain ⟨hfirst, hothers⟩ := List.nodup_cons.1 hdistinct
    refine .cons (fun other hother => ?_) (ih hothers)
    obtain ⟨last, hlast, hends⟩ := exists_name hrest hother
    exact areApart_of_names hname hends fun he => hfirst (he ▸ hlast)

/-- The files of a compiled design are written to paths apart from each other. Its name makes one folder in
the output folder, and all files are in there but for the documents if a folder is given for them. -/
theorem files_contained {design : Design} {options : Compiled.Options} {notices : List Notice}
    (h : (Compiled.ofDesign design options).exec = (.ok c, notices)) (d : Delivery) :
    IsFolderName c.name ∧ IsStep c.name ∧
    placeOf (d.folder c.name) = placeOf d.output ++ [c.name] ∧
    ∃ files, d.files c = .ok files ∧
      ((d.save c).IsSure fun written puts => written = files.map (·.1) ∧ puts = putsOf files) ∧
      (files.Pairwise fun file other => AreApart file.1 other.1) ∧
      ∀ file ∈ files, IsInside (d.folder c.name) file.1 ∨ d.IsElsewhere file.1 := by
  obtain ⟨⟨title, htitle⟩, -, -⟩ := Compiled.ofDesign_ok h
  obtain ⟨hlettered, hname⟩ := componentName_isFolderName htitle
  have hmanifest := Compiled.manifest_ok h
  obtain ⟨files, hfiles⟩ := d.files_ok hmanifest
  have hsave := d.save_isSure hmanifest
  have hfolder := hname.isStep
  have hapart := files_apart (d.files_endIn hlettered hfiles) (d.names_nodup c.name)
  refine ⟨hname, hfolder, hfolder.place d.output, files, hfiles, ?_, hapart,
    d.files_inside hfolder hlettered hfiles⟩
  refine hsave.mono fun written puts hdone => ?_
  obtain ⟨files', hfiles', hwritten, hputs⟩ := hdone
  obtain rfl := Except.ok.inj (hfiles.symm.trans hfiles')
  exact ⟨hwritten, hputs⟩

/-! ## A design that is named after a path -/

/-- A layer whose name leads out of the folder that it would be put in. -/
def navLayer : Datum :=
  .record [("id", .text "1:1"), ("name", .text "../nav\\bar.\x00"), ("type", .text "FRAME")]

def navDesign : Design := ⟨navLayer, .null, .given .null, .text "", .text ""⟩

def navTree : Datum :=
  .record
    [("id", .text "1:1"), ("name", .text "../nav\\bar.\x00"), ("type", .text "FRAME"),
     ("zIndex", .int 0), ("children", .list [])]

/-- The outline of the layer. -/
def navOutline : Datum :=
  .record
    [("version", .text Outline.version),
     ("meta", .record
       [("name", .text "../nav\\bar.\x00"), ("figmaUrl", .text ""), ("nodeId", .text "1:1"),
        ("type", .text "FRAME"), ("componentType", .text "frame"),
        ("extractedAt", .text Outline.epoch), ("sourceFileKey", .text "")]),
     ("tree", navTree), ("variants", .list []), ("slots", .list []),
     ("layoutIntent", .record [("horizontal", .text "intrinsic"), ("vertical", .text "intrinsic")]),
     ("visualHints", (⟨false, false, false⟩ : Outline.Needs).toDatum),
     ("stateMapping", .list []), ("stats", .record [("nodeCount", .int 1)])]

theorem navTree_walked : Walked.ofDatum navTree = ⟨[(navTree, 0)], none⟩ :=
  Walked.ofDatum_tree rfl rfl rfl

theorem navTree_made : Outline.tree (Scene.ofDatum navLayer) = .ok (some navTree, []) := by
  have hsearch : (Scene.ofDatum navLayer).Search [] [⟨0, 0, 0⟩] (.cons ⟨0, 0, 0⟩ .nil .nil) [0] :=
    .visit (by simp) rfl (.nil _) (.nil _)
  have hsize : (Scene.ofDatum navLayer).nodes.size = 1 := rfl
  have htrail : (Scene.ofDatum navLayer).trailFrom true 0 = ⟨[⟨0, 0, 0⟩], none⟩ :=
    Scene.trailFrom_search hsearch (by rw [hsize]; decide) true
  have hroot : (Scene.ofDatum navLayer).root = .node 0 := rfl
  unfold Outline.tree
  rw [hroot]
  simp only [htrail]
  rfl

theorem navOutline_made : Compiled.outlineOf navDesign .null = .ok navOutline := by
  have hhints : Outline.visualHints navTree = .ok (⟨false, false, false⟩ : Outline.Needs).toDatum := by
    unfold Outline.visualHints
    rw [navTree_walked]
    rfl
  have hcount : (Walked.ofDatum navTree).count = .ok 1 := by rw [navTree_walked]; rfl
  unfold Compiled.outlineOf Outline.ofDatum Outline.ofScene navDesign
  rw [navTree_made]
  unfold Outline.document
  simp only [Outcome.ok_bind, Option.getD_some, hhints, hcount]
  rfl

def navTokens : Datum := (⟨[], [], [], []⟩ : TokenSet).toDatum

theorem navTokens_made : Compiled.tokensOf navDesign Token.defaultMaxDepth = pure navTokens := by
  have hwalked : Walked.ofDatum navDesign.document = ⟨[(navLayer, 0)], none⟩ :=
    Walked.ofDatum_tree rfl rfl rfl
  unfold Compiled.tokensOf
  simp only [hwalked]
  rfl

def navIntelligence : Datum :=
  (⟨.unknown, .features⟩ : Archetype.Verdict).toDatum Archetype.Features.none []

theorem navOutline_classified : Archetype.classify navOutline = .ok navIntelligence := by
  have htree : navOutline.get "tree" = .ok navTree := rfl
  unfold Archetype.classify Archetype.Features.ofOutline
  rw [htree, Outcome.ok_bind, navTree_walked]
  rfl

theorem navDesign_compiled :
    ∃ c notices, (Compiled.ofDesign navDesign {}).exec = (.ok c, notices) ∧ c.name = "NavBar" := by
  have houtline : Compiled.outlineOf navDesign (Compiled.Options.extractedAt {}) = .ok navOutline :=
    navOutline_made
  have htokens : Compiled.tokensOf navDesign (Compiled.Options.maxDepth {}) = pure navTokens :=
    navTokens_made
  have hrun : (Compiled.ofDesign navDesign {}).exec.1.toOption.map (·.name) = some "NavBar" := by
    unfold Compiled.ofDesign
    rw [houtline, htokens]
    simp only [Run.lift_ok, pure_bind, navOutline_classified]
    decide +kernel
  generalize hexec : (Compiled.ofDesign navDesign {}).exec = r at hrun
  obtain ⟨_ | c, notices⟩ := r
  · cases hrun
  · exact ⟨c, notices, rfl, Option.some.inj hrun⟩

/-- A folder beside the working folder, and one for documents. -/
def navDelivery : Delivery := ⟨"../out/", some "docs", true, false⟩

/-- The files of the design are in a folder of that name, and its documents in theirs. -/
theorem files_contained_nav : ∃ c notices files,
    (Compiled.ofDesign navDesign {}).exec = (.ok c, notices) ∧ c.name = "NavBar" ∧
    placeOf (navDelivery.folder c.name) = ["..", "out", "NavBar"] ∧ navDelivery.files c = .ok files ∧
    (files.Pairwise fun file other => AreApart file.1 other.1) ∧
    ∀ file ∈ files, IsInside "../out/NavBar" file.1 ∨ navDelivery.IsElsewhere file.1 := by
  obtain ⟨c, notices, hc, hname⟩ := navDesign_compiled
  obtain ⟨-, -, hplace, files, hfiles, -, hapart, hinside⟩ := files_contained hc navDelivery
  have houtput : placeOf navDelivery.output = ["..", "out"] := by decide +kernel
  have hfolder : navDelivery.folder c.name = "../out/NavBar" := by rw [hname]; decide +kernel
  rw [hfolder] at hinside
  exact ⟨c, notices, files, hc, hname, by rw [hplace, houtput, hname]; rfl, hfiles, hapart, hinside⟩

end Maquette.Delivery
