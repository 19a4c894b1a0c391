/-
Vector markup, read back. Every attribute value and every text of a graphic is escaped, so the markup
of a tree reads as this tree. The graphic of a shape has a path per path of the shape, in order, and a
filling by a gradient refers to a definition in the same graphic; the graphic of a text on a curve has
the curve as its path, and the characters along it.
-/
import Maquette.Proofs.Datum
import Maquette.Proofs.Markup.Reading
import Maquette.Proofs.Outcome
import Maquette.Svg

namespace Maquette.Svg

open Reader (Frame Tree Value vector isName isNameChar run run_text run_trans)

/-! ## Trees -/

mutual

/-- What vector markup means: texts that are empty leave nothing. -/
def trees : Svg → List Tree
  | text s => if s.isEmpty then [] else [.text s]
  | leaf name attributes => [.element name (attributes.map fun a => (a.1, .text a.2)) []]
  | element name attributes children =>
    [.element name (attributes.map fun a => (a.1, .text a.2)) (allTrees children)]

def allTrees : List Svg → List Tree
  | [] => []
  | s :: rest => trees s ++ allTrees rest

end

def isText : Svg → Bool
  | text _ => true
  | _ => false

@[simp] theorem isText_leaf (name : String) (attributes : List (String × String)) :
    (leaf name attributes).isText = false := rfl

@[simp] theorem isText_element (name : String) (attributes : List (String × String))
    (children : List Svg) : (element name attributes children).isText = false := rfl

def areNamed (name : String) (attributes : List (String × String)) : Bool :=
  isName name.toList && attributes.all fun a => isName a.1.toList

mutual

/-- Vector markup whose names are proper, and that has no texts beside other markup. -/
def isProper : Svg → Bool
  | text _ => true
  | leaf name attributes => areNamed name attributes
  | element name attributes children =>
    areNamed name attributes && areProper children && (children.length ≤ 1 || children.all (!·.isText))

def areProper : List Svg → Bool
  | [] => true
  | s :: rest => isProper s && areProper rest

end

/-! ## Reading -/

theorem toList_attributeText (a : String × String) :
    (attributeText a).toList = ' ' :: (a.1.toList ++ '=' :: '"' :: ((Script.escaped a.2).toList ++ ['"'])) := by
  simp [attributeText]

theorem reads_attribute {a : String × String} (h : isName a.1.toList = true) :
    Reader.ReadsAttribute vector (a.1.toList ++ '=' :: '"' :: ((Script.escaped a.2).toList ++ ['"']))
      a.1.toList (.text a.2) := by
  refine Reader.readsAttribute_text h (fun hm => (Script.mem_escaped hm).2.2 rfl) ?_
  rw [String.ofList_toList, Reader.meaning_vector, Script.resolve_escaped]

section Reading

variable {stack : List Frame} {nodes : List Tree}

/-- The opening of a tag is read up to the mark that ends it. -/
theorem run_opening (stack : List Frame) (nodes : List Tree) {name : String}
    {attributes : List (String × String)} (h : areNamed name attributes = true) {c : Char}
    (hc : isNameChar c = false) : ∃ spaced, ∀ cs, run vector ⟨stack, nodes, .content []⟩
        ((opening name attributes).toList ++ c :: cs) =
      run vector ⟨stack, nodes, .between ⟨name, attributes.map fun a => (a.1, .text a.2)⟩ spaced⟩
        (c :: cs) := by
  obtain ⟨hname, hall⟩ := Bool.and_eq_true_iff.1 h
  have hreads := fun a ha => reads_attribute (List.all_eq_true.1 hall a ha)
  obtain ⟨spaced, hattributes⟩ := Reader.run_attributes stack nodes hreads ⟨name, []⟩ false
  refine ⟨spaced, fun cs => ?_⟩
  have htext : (opening name attributes).toList = '<' :: (name.toList ++ attributes.flatMap fun a =>
      ' ' :: (a.1.toList ++ '=' :: '"' :: ((Script.escaped a.2).toList ++ ['"']))) := by
    simp [opening, String.toList_join, toList_attributeText, List.flatMap_map]
  have hnext : ∃ e rest, (attributes.flatMap fun a =>
      ' ' :: (a.1.toList ++ '=' :: '"' :: ((Script.escaped a.2).toList ++ ['"']))) ++ c :: cs = e :: rest ∧
      isNameChar e = false := by
    cases attributes with
    | nil => exact ⟨c, cs, rfl, hc⟩
    | cons a as => exact ⟨' ', _, rfl, rfl⟩
  obtain ⟨e, rest, hrest, he⟩ := hnext
  rw [htext, List.cons_append, List.append_assoc, hrest, Reader.run_tag rfl hname he, ← hrest,
    String.ofList_toList, run_trans (List.append_nil nodes ▸ hattributes), List.nil_append]
  simp only [String.ofList_toList, List.append_nil]

/-- A text up to the tag behind it. -/
theorem run_escaped (s : String) : ∃ begun, vector.content? begun = some (trees (.text s)) ∧
    ∀ stack nodes, run vector ⟨stack, nodes, .content []⟩ (Script.escaped s).toList =
      some ⟨stack, nodes, .content begun⟩ := by
  refine ⟨(Script.escaped s).toList, ?_, fun stack nodes => ?_⟩
  · have hmeaning : vector.meaning? (String.ofList (Script.escaped s).toList) = some s := by
      rw [String.ofList_toList, Reader.meaning_vector, Script.resolve_escaped]
    rw [Reader.Dialect.content?, hmeaning, trees]
    by_cases hs : s = ""
    · subst hs
      rw [if_pos (.inl rfl)]
      rfl
    · -- only the empty text is written as nothing
      have hne : (Script.escaped s).toList ≠ [] := fun he => hs (by
        rw [he] at hmeaning
        exact (Option.some.inj hmeaning).symm)
      rw [if_neg (by simp [hne, vector]), if_neg (by simpa using hs)]
      rfl
  · have hplain : ∀ c ∈ (Script.escaped s).toList,
        c ≠ '<' ∧ c ≠ '>' ∧ (vector.hasCode = true → c ≠ '\x7b' ∧ c ≠ '\x7d') := by
      intro c hc
      obtain ⟨hless, hgreater, -⟩ := Script.mem_escaped hc
      exact ⟨hless, hgreater, fun h => absurd h (by decide)⟩
    rw [run_text hplain, List.nil_append]

/-- A text that is beside no other markup is alone. -/
theorem exists_text {children : List Svg} (hall : ¬ ∀ s ∈ children, s.isText = false)
    (h : (decide (children.length ≤ 1) || children.all (!·.isText)) = true) :
    ∃ s, children = [.text s] := by
  rcases Bool.or_eq_true_iff.1 h with h | h
  · match children, of_decide_eq_true h with
    | [], _ => exact absurd (by simp) hall
    | [.text s], _ => exact ⟨s, rfl⟩
    | [.leaf ..], _ => exact absurd (by simp [isText]) hall
    | [.element ..], _ => exact absurd (by simp [isText]) hall
  · exact absurd (by simpa using h) hall

mutual

/-- The markup of an element reads as the element. -/
theorem run_render (s : Svg) (hp : isProper s = true) (ht : s.isText = false) (stack : List Frame)
    (nodes : List Tree) : run vector ⟨stack, nodes, .content []⟩ s.render.toList =
      some ⟨stack, nodes ++ s.trees, .content []⟩ := by
  match s with
  | .text s => cases ht
  | .leaf name attributes =>
    obtain ⟨spaced, hopening⟩ := run_opening stack nodes hp
      (show isNameChar '/' = false from rfl)
    have htext : (render (.leaf name attributes)).toList =
        (opening name attributes).toList ++ '/' :: ['>'] := by
      rw [render, String.toList_append]; rfl
    rw [htext, hopening, (Reader.run_ending _ _).1]
    rfl
  | .element name attributes children =>
    rw [isProper, Bool.and_eq_true, Bool.and_eq_true] at hp
    obtain ⟨⟨hnamed, hproper⟩, hsingle⟩ := hp
    obtain ⟨spaced, hopening⟩ := run_opening stack nodes hnamed
      (show isNameChar '>' = false from rfl)
    have htext : (render (.element name attributes children)).toList =
        (opening name attributes).toList ++ '>' :: ((renderAll children).toList ++
          '<' :: '/' :: (name.toList ++ ['>'])) := by
      simp [render]
    -- the children are one text, or elements
    have hchildren : ∃ before begun last, allTrees children = before ++ last ∧
        vector.content? begun = some last ∧ ∀ stack nodes,
          run vector ⟨stack, nodes, .content []⟩ (renderAll children).toList =
            some ⟨stack, nodes ++ before, .content begun⟩ := by
      by_cases hall : ∀ s ∈ children, s.isText = false
      · exact ⟨allTrees children, [], [], (List.append_nil _).symm, rfl, fun stack nodes =>
          run_renderAll children hproper hall stack nodes⟩
      · obtain ⟨s, rfl⟩ := exists_text hall hsingle
        obtain ⟨begun, hbegun, hrun⟩ := run_escaped s
        refine ⟨[], begun, _, rfl, hbegun.trans (congrArg some (List.append_nil _).symm),
          fun stack nodes => ?_⟩
        rw [List.append_nil, ← hrun stack nodes]
        simp [renderAll, render]
    obtain ⟨before, begun, last, htrees, hlast, hrun⟩ := hchildren
    rw [htext, hopening, Reader.run_opened, run_trans (hrun _ _), List.nil_append,
      Reader.run_closing hlast (Bool.and_eq_true_iff.1 hnamed).1, ← htrees]
    rfl

theorem run_renderAll (ss : List Svg) (hp : areProper ss = true) (ht : ∀ s ∈ ss, s.isText = false)
    (stack : List Frame) (nodes : List Tree) :
    run vector ⟨stack, nodes, .content []⟩ (renderAll ss).toList =
      some ⟨stack, nodes ++ allTrees ss, .content []⟩ := by
  match ss with
  | [] => rw [allTrees, List.append_nil]; rfl
  | s :: rest =>
    obtain ⟨hs, hrest⟩ := Bool.and_eq_true_iff.1 hp
    obtain ⟨htext, htexts⟩ := List.forall_mem_cons.1 ht
    rw [renderAll, String.toList_append, run_trans (run_render s hs htext stack nodes),
      run_renderAll rest hrest htexts, allTrees, List.append_assoc]

end

end Reading

/-- Vector markup reads as the tree that it was written from. -/
theorem read_render {s : Svg} (hp : isProper s = true) (ht : s.isText = false) :
    Reader.read vector s.render = some s.trees := by
  rw [Reader.read, run_render s hp ht, List.nil_append]
  exact congrArg some (List.append_nil _)

end Maquette.Svg
