/-
The graphics of nodes, as they are read. The graphic of a shape has a path per path of the shape, in
order, filled with a color or with a gradient that the same graphic defines. The graphic of a text on a
curve has the curve for its path, and the characters of the text along it.
-/
import Maquette.Proofs.Markup.Vector

namespace Maquette.Reader

/-! ## Elements of a tree -/

mutual

/-- The elements in a tree, in the order in which they begin. -/
def Tree.elements : Tree → List Tree
  | .element tag attributes children => .element tag attributes children :: allElements children
  | _ => []

def Tree.allElements : List Tree → List Tree
  | [] => []
  | t :: rest => t.elements ++ allElements rest

end

namespace Tree

def tag? : Tree → Option String
  | element tag .. => some tag
  | _ => none

def attribute? (name : String) : Tree → Option Value
  | element _ attributes _ => attributes.lookup name
  | _ => none

/-- The texts right within an element, put together. -/
def content : Tree → String
  | element _ _ children => String.join <| children.filterMap fun
    | text s => some s
    | _ => none
  | _ => ""

section Element

variable (tag name : String) (attributes : List (String × Value)) (children : List Tree)

@[simp] theorem tag?_element : (element tag attributes children).tag? = some tag := rfl

@[simp] theorem attribute?_element :
    (element tag attributes children).attribute? name = attributes.lookup name := rfl

end Element

/-- The elements with a tag. -/
def named (tag : String) (t : Tree) : List Tree := t.elements.filter (·.tag? == some tag)

end Tree

end Maquette.Reader

namespace Maquette.Svg

open Reader (Tree Value isName isNameChar vector)

/-! ## What a graphic shows -/

/-- The data of the paths of a shape. -/
def outlineData (node : Datum) : List String :=
  match node.itemsOf "vectorPaths" with
  | .ok paths => paths.map fun path => ((path.at? "data").getD (.text "")).shown
  | .error _ => []

/-- The data of the curve of a text. -/
def curveData (node : Datum) : String :=
  ((((node.at? "textPath").getD .null).at? "data").getD .null).shown

/-- The characters of a text. -/
def characters (node : Datum) : String := ((node.at? "characters").getD (.text "")).shown

/-- How something is filled with what has an id. -/
def reference (id : String) : String := "url(#" ++ id ++ ")"

@[simp] theorem reference_inj {id id' : String} : reference id = reference id' ↔ id = id' := by
  simp [reference]

def isGradient (t : Tree) : Bool := t.tag? == some "linearGradient" || t.tag? == some "radialGradient"

/-- Every reference that something is filled with is to a gradient. -/
def FillsDefined (elements : List Tree) : Prop :=
  ∀ e ∈ elements, ∀ id, e.attribute? "fill" = some (.text (reference id)) →
    ∃ g ∈ elements, isGradient g = true ∧ g.attribute? "id" = some (.text id)

/-- A tree with the given path data, in order, and the given texts along paths. -/
structure Shows (t : Tree) (paths texts : List String) : Prop where
  data : (t.named "path").map (·.attribute? "d") = paths.map fun s => some (.text s)
  texts : (t.named "textPath").map Tree.content = texts
  fills : FillsDefined t.elements

/-! ## Elements of vector markup -/

section Leaves

variable {α : Type} {name : String} {attributes : α → List (String × String)}

/-- Markup of elements without content. -/
def leaves (name : String) (attributes : α → List (String × String)) (xs : List α) : List Svg :=
  xs.map fun x => leaf name (attributes x)

theorem areProper_leaves {xs : List α} (h : ∀ x ∈ xs, areNamed name (attributes x) = true) :
    areProper (leaves name attributes xs) = true := by
  induction xs with
  | nil => rfl
  | cons x xs ih =>
    obtain ⟨hx, hxs⟩ := List.forall_mem_cons.1 h
    exact Bool.and_eq_true_iff.2 ⟨hx, ih hxs⟩

theorem isText_leaves (xs : List α) : ∀ s ∈ leaves name attributes xs, s.isText = false := by
  intro s hs
  obtain ⟨x, -, rfl⟩ := List.mem_map.1 hs
  rfl

theorem allElements_leaves (xs : List α) : Tree.allElements (allTrees (leaves name attributes xs)) =
    xs.map fun x => .element name ((attributes x).map fun a => (a.1, .text a.2)) [] := by
  induction xs with
  | nil => rfl
  | cons x xs ih => exact congrArg _ ih

end Leaves

theorem allElements_append (ts us : List Tree) :
    Tree.allElements (ts ++ us) = Tree.allElements ts ++ Tree.allElements us := by
  induction ts with
  | nil => rfl
  | cons t ts ih => rw [List.cons_append, Tree.allElements, ih, Tree.allElements, List.append_assoc]

theorem allTrees_append (ss ts : List Svg) : allTrees (ss ++ ts) = allTrees ss ++ allTrees ts := by
  induction ss with
  | nil => rfl
  | cons s ss ih => rw [List.cons_append, allTrees, ih, allTrees, List.append_assoc]

theorem areProper_append (ss ts : List Svg) : areProper (ss ++ ts) = (areProper ss && areProper ts) := by
  induction ss with
  | nil => rfl
  | cons s ss ih => rw [List.cons_append, areProper, ih, areProper, Bool.and_assoc]

/-! ## Fillings -/

/-- Colors are written as calls. -/
theorem rgba_begins {color opacity : Datum} {s : String} (h : Color.rgba color opacity = .ok s) :
    ∃ rest, s = "rgba(" ++ rest := by
  unfold Color.rgba at h
  obtain ⟨a, -, h⟩ := Outcome.bind_ok h
  obtain ⟨alpha, -, h⟩ := Outcome.bind_ok h
  obtain ⟨x, -, h⟩ := Outcome.bind_ok h
  obtain ⟨r, -, h⟩ := Outcome.bind_ok h
  obtain ⟨y, -, h⟩ := Outcome.bind_ok h
  obtain ⟨g, -, h⟩ := Outcome.bind_ok h
  obtain ⟨z, -, h⟩ := Outcome.bind_ok h
  obtain ⟨b, -, h⟩ := Outcome.bind_ok h
  obtain ⟨n, -, h⟩ := Outcome.bind_ok h
  obtain ⟨text, -, h⟩ := Outcome.bind_ok h
  cases h
  simp only [String.append_assoc]
  exact ⟨_, rfl⟩

/-- A color is no reference. -/
theorem rgba_ne {color opacity : Datum} {s : String} (h : Color.rgba color opacity = .ok s)
    (id : String) : s ≠ reference id := by
  obtain ⟨rest, rfl⟩ := rgba_begins h
  intro he
  have hhead := congrArg (fun s => s.toList.head?) he
  simp [reference] at hhead

theorem colorOf_ne {paint : Datum} {s : String} (h : colorOf paint = .ok s) (id : String) :
    s ≠ reference id := by
  obtain ⟨color, -, h⟩ := Outcome.bind_ok h
  obtain ⟨opacity, -, h⟩ := Outcome.bind_ok h
  exact rgba_ne h id

theorem textColor_ne {paints : List Datum} {s : String} (h : textColor paints = .ok s) (id : String) :
    s ≠ reference id := by
  induction paints with
  | nil =>
    cases h
    intro he
    have hhead := congrArg (fun s => s.toList.head?) he
    simp [reference] at hhead
  | cons paint paints ih =>
    obtain ⟨kind, -, h⟩ := Outcome.bind_ok h
    split at h
    · exact colorOf_ne h id
    · exact ih h

theorem strokeAttributes_cases {strokes : List Datum} {attributes : List (String × String)}
    (h : strokeAttributes strokes = .ok attributes) : attributes = [] ∨
      ∃ color width, attributes = [("stroke", color), ("stroke-width", width)] := by
  induction strokes with
  | nil => cases h; exact .inl rfl
  | cons stroke strokes ih =>
    obtain ⟨kind, -, h⟩ := Outcome.bind_ok h
    split at h
    · exact ih h
    · obtain ⟨paint, -, h⟩ := Outcome.bind_ok h
      obtain ⟨color, -, h⟩ := Outcome.bind_ok h
      obtain ⟨value, -, h⟩ := Outcome.bind_ok h
      obtain ⟨width, -, h⟩ := Outcome.bind_ok h
      cases h
      exact .inr ⟨color, width, rfl⟩

/-- The attributes of a gradient's stop, by its offset and its color. -/
def stopAttributes (v : String × String) : List (String × String) :=
  [("offset", v.1), ("stop-color", v.2)]

theorem gradientStop_ok {paint stop : Datum} {svg : Svg} (h : gradientStop paint stop = .ok svg) :
    ∃ v, leaf "stop" (stopAttributes v) = svg := by
  unfold gradientStop at h
  obtain ⟨position, -, h⟩ := Outcome.bind_ok h
  obtain ⟨offset, -, h⟩ := Outcome.bind_ok h
  obtain ⟨color, -, h⟩ := Outcome.bind_ok h
  obtain ⟨opacity, -, h⟩ := Outcome.bind_ok h
  obtain ⟨text, -, h⟩ := Outcome.bind_ok h
  cases h
  exact ⟨(_, _), rfl⟩

/-- A gradient is defined under its id, with nothing but stops in it. -/
theorem gradientDefinition_cases {paint : Datum} {id : String} {svg : Svg}
    (h : gradientDefinition paint id = .ok svg) : ∃ values stops,
      stops = leaves "stop" stopAttributes values ∧
        (svg = element "radialGradient" [("id", id)] stops ∨
          ∃ turn, svg = element "linearGradient" [("id", id), ("gradientTransform", turn)] stops) := by
  unfold gradientDefinition at h
  obtain ⟨items, -, h⟩ := Outcome.bind_ok h
  obtain ⟨stops, hstops, h⟩ := Outcome.bind_ok h
  obtain ⟨kind, -, h⟩ := Outcome.bind_ok h
  have hrange : stops ∈ Set.range (leaves "stop" stopAttributes) := by
    unfold leaves
    rw [Set.range_list_map]
    intro stop hstop
    obtain ⟨item, -, hitem⟩ := Outcome.mem_mapM hstops stop hstop
    exact gradientStop_ok hitem
  obtain ⟨values, hvalues⟩ := hrange
  refine ⟨values, stops, hvalues.symm, ?_⟩
  split at h
  · cases h
    exact .inl rfl
  · obtain ⟨turn, -, h⟩ := Outcome.bind_ok h
    obtain ⟨text, -, h⟩ := Outcome.bind_ok h
    cases h
    exact .inr ⟨_, rfl⟩

theorem none_ne (id : String) : "none" ≠ reference id := by
  intro he
  have hhead := congrArg (fun s => s.toList.head?) he
  simp [reference] at hhead

/-- What fills a shape is no reference, or the reference to the one definition that comes with it. -/
theorem filling_cases {node : Datum} {index : Nat} {paints : List Datum} {f : Filling}
    (h : filling node index paints = .ok f) :
    (f.definitions = [] ∧ ∀ id, f.value ≠ reference id) ∨
      ∃ id paint g, f = ⟨reference id, [g]⟩ ∧ gradientDefinition paint id = .ok g := by
  induction paints generalizing index with
  | nil =>
    cases h
    exact .inl ⟨rfl, none_ne⟩
  | cons paint paints ih =>
    obtain ⟨kind, -, h⟩ := Outcome.bind_ok h
    split at h
    · obtain ⟨color, hcolor, h⟩ := Outcome.bind_ok h
      cases h
      exact .inl ⟨rfl, colorOf_ne hcolor⟩
    · split at h
      · obtain ⟨id, -, h⟩ := Outcome.bind_ok h
        obtain ⟨g, hg, h⟩ := Outcome.bind_ok h
        cases h
        exact .inr ⟨id, paint, g, rfl, hg⟩
      · exact ih h

/-! ## Shapes -/

/-- The attributes of a path, by what fills it and the attributes of its stroke. -/
def pathAttributes (fill : String) (stroke : List (String × String)) (path : Datum) :
    List (String × String) :=
  [("d", ((path.at? "data").getD (.text "")).shown), ("fill", fill)] ++
    (if Text.upper ((path.at? "windingRule").getD (.text "")).shown == "EVENODD" then
      [("fill-rule", "evenodd")] else []) ++ stroke

theorem outlinePath_ok {fill : String} {stroke : List (String × String)} {path : Datum} {svg : Svg}
    (h : outlinePath fill stroke path = .ok svg) :
    svg = leaf "path" (pathAttributes fill stroke path) := by
  unfold outlinePath at h
  obtain ⟨rule, hrule, h⟩ := Outcome.bind_ok h
  obtain ⟨data, hdata, h⟩ := Outcome.bind_ok h
  cases h
  rw [Datum.fieldOr_ok hrule, Datum.fieldOr_ok hdata, pathAttributes]

/-- Where a filling is defined. -/
def definitionsOf (f : Filling) : List Svg :=
  if f.definitions.isEmpty then [] else [element "defs" [] f.definitions]

/-- The graphic of a shape: the definition that its filling needs, and its paths. -/
theorem shape_cases {node : Datum} {svg : Svg} (h : shape node = .ok svg) :
    ∃ width height f stroke paths, node.itemsOf "vectorPaths" = .ok paths ∧
      (∃ paints, filling node 0 paints = .ok f) ∧ (∃ strokes, strokeAttributes strokes = .ok stroke) ∧
      svg = frame width height [("fill", "none")]
        (definitionsOf f ++ leaves "path" (pathAttributes f.value stroke) paths) := by
  unfold shape at h
  obtain ⟨⟨width, height⟩, -, h⟩ := Outcome.bind_ok h
  obtain ⟨paints, -, h⟩ := Outcome.bind_ok h
  obtain ⟨f, hf, h⟩ := Outcome.bind_ok h
  obtain ⟨strokes, -, h⟩ := Outcome.bind_ok h
  obtain ⟨stroke, hstroke, h⟩ := Outcome.bind_ok h
  obtain ⟨paths, hpaths, h⟩ := Outcome.bind_ok h
  obtain ⟨outlines, houtlines, h⟩ := Outcome.bind_ok h
  cases h
  obtain ⟨-, rfl⟩ := Outcome.mapM_inv (P := fun _ => True) houtlines
    fun _ _ h => ⟨trivial, outlinePath_ok h⟩
  exact ⟨width, height, f, stroke, paths, hpaths, ⟨paints, hf⟩, ⟨strokes, hstroke⟩, rfl⟩

/-! ## Texts on a curve -/

/-- The graphic of a text on a curve, by its size, the id of the curve, and how its characters look. -/
def alongCurve (node : Datum) (width height id family size weight color : String) : Svg :=
  frame width height []
    [element "defs" [] [leaf "path" [("id", id), ("d", curveData node)]],
     element "text"
       [("font-family", family), ("font-size", size), ("font-weight", weight), ("fill", color)]
       [element "textPath" [("href", "#" ++ id)] [text (characters node)]]]

/-- A text with a curve has a graphic, and one without has none. -/
theorem curvedText_cases {node : Datum} {curved : Option Svg} (h : curvedText? node = .ok curved) :
    hasCurve node = .ok curved.isSome ∧ ∀ svg ∈ curved, ∃ width height id family size weight color,
      (∀ id, color ≠ reference id) ∧
        svg = alongCurve node width height id family size weight color := by
  unfold curvedText? at h
  obtain ⟨curve, hcurve, h⟩ := Outcome.bind_ok h
  cases curve with
  | false => cases h; exact ⟨hcurve, by simp⟩
  | true =>
    obtain ⟨⟨width, height⟩, -, h⟩ := Outcome.bind_ok h
    obtain ⟨id, -, h⟩ := Outcome.bind_ok h
    obtain ⟨style, -, h⟩ := Outcome.bind_ok h
    obtain ⟨paints, -, h⟩ := Outcome.bind_ok h
    obtain ⟨color, hcolor, h⟩ := Outcome.bind_ok h
    obtain ⟨family, -, h⟩ := Outcome.bind_ok h
    obtain ⟨size, -, h⟩ := Outcome.bind_ok h
    obtain ⟨sizeText, -, h⟩ := Outcome.bind_ok h
    obtain ⟨weight, -, h⟩ := Outcome.bind_ok h
    obtain ⟨weightText, -, h⟩ := Outcome.bind_ok h
    obtain ⟨path, hpath, h⟩ := Outcome.bind_ok h
    obtain ⟨data, hdata, h⟩ := Outcome.bind_ok h
    obtain ⟨content, hcontent, h⟩ := Outcome.bind_ok h
    cases h
    refine ⟨hcurve, fun svg hsvg => ⟨width, height, id, family.shown, sizeText, weightText, color,
      textColor_ne hcolor, ?_⟩⟩
    cases hsvg
    rw [alongCurve, curveData, characters, Datum.need_ok hpath, Option.getD_some, Datum.need_ok hdata,
      Option.getD_some, Datum.fieldOr_ok hcontent]

/-! ## Reading graphics -/

theorem allElements_text (s : String) : Tree.allElements (trees (.text s)) = [] := by
  rw [trees]
  split <;> rfl

theorem content_text (tag : String) (attributes : List (String × Value)) (s : String) :
    Tree.content (.element tag attributes (trees (.text s))) = s := by
  rw [trees]
  split
  · rename_i hs
    simpa [Tree.content] using hs.symm
  · simp [Tree.content]

/-- What a filling is defined by, and what refers to it. -/
theorem definitionsOf_proper {node : Datum} {index : Nat} {paints : List Datum} {f : Filling}
    (h : filling node index paints = .ok f) : areProper (definitionsOf f) = true ∧
      ∀ s ∈ definitionsOf f, s.isText = false := by
  rcases filling_cases h with ⟨hnone, -⟩ | ⟨id, paint, g, rfl, hg⟩
  · simp [definitionsOf, hnone, areProper]
  · obtain ⟨values, stops, hstops, hg⟩ := gradientDefinition_cases hg
    have hproper : areProper stops = true :=
      hstops ▸ areProper_leaves fun v _ => by simp [stopAttributes, areNamed, isName, isNameChar]
    have htexts : ∀ stop ∈ stops, stop.isText = false := hstops ▸ isText_leaves values
    rcases hg with rfl | ⟨turn, rfl⟩ <;>
      simpa [definitionsOf, areProper, isProper, areNamed, isName, isNameChar, hproper] using .inr htexts

theorem definitionsOf_elements {node : Datum} {index : Nat} {paints : List Datum} {f : Filling}
    (h : filling node index paints = .ok f) {es : List Tree}
    (hes : Tree.allElements (allTrees (definitionsOf f)) = es) :
    (∀ e ∈ es, e.tag? ≠ some "path" ∧ e.tag? ≠ some "textPath" ∧ e.attribute? "fill" = none) ∧
      ∀ id, f.value = reference id →
        ∃ g ∈ es, isGradient g = true ∧ g.attribute? "id" = some (.text id) := by
  subst hes
  rcases filling_cases h with ⟨hnone, hvalue⟩ | ⟨id, paint, g, rfl, hg⟩
  · simp [definitionsOf, hnone, allTrees, Tree.allElements, hvalue]
  · obtain ⟨values, stops, hstops, hg⟩ := gradientDefinition_cases hg
    have hinner : ∀ e ∈ Tree.allElements (allTrees stops),
        e.tag? = some "stop" ∧ e.attribute? "fill" = none := by
      rw [hstops, allElements_leaves]
      intro e he
      obtain ⟨v, -, rfl⟩ := List.mem_map.1 he
      exact ⟨rfl, rfl⟩
    have hothers : ∀ e ∈ Tree.allElements (allTrees stops),
        e.tag? ≠ some "path" ∧ e.tag? ≠ some "textPath" ∧ e.attribute? "fill" = none := by
      intro e he
      obtain ⟨htag, hfill⟩ := hinner e he
      simp [htag, hfill]
    rcases hg with rfl | ⟨turn, rfl⟩ <;>
      simpa [definitionsOf, allTrees, trees, Tree.allElements, Tree.elements, List.lookup, isGradient] using
        hothers

/-- What a text on a curve is drawn as reads as its curve and its characters. -/
theorem alongCurve_shows (node : Datum) {width height id family size weight color : String}
    (hcolor : ∀ id, color ≠ reference id) : ∃ t,
      Reader.read vector (alongCurve node width height id family size weight color).render = some [t] ∧
        Shows t [curveData node] [characters node] := by
  have hproper : isProper (alongCurve node width height id family size weight color) = true := by
    simp [alongCurve, frame, isProper, areProper, areNamed, isName, isNameChar]
  obtain ⟨inner, hinner⟩ : ∃ inner, trees (.text (characters node)) = inner := ⟨_, rfl⟩
  have hempty : Tree.allElements inner = [] := hinner ▸ allElements_text _
  have hcontent : ∀ tag as, Tree.content (.element tag as inner) = characters node := fun tag as =>
    hinner ▸ content_text tag as _
  refine ⟨_, read_render hproper rfl, ?_, ?_, ?_⟩ <;>
    simp only [allTrees, trees.eq_2, trees.eq_3, hinner, List.append_nil, List.singleton_append]
  · simp [Tree.named, Tree.elements, Tree.allElements, Tree.tag?, Tree.attribute?, List.lookup, hempty]
  · simp [Tree.named, Tree.elements, Tree.allElements, Tree.tag?, hempty, hcontent]
  · simp [Tree.elements, Tree.allElements, hempty, FillsDefined, Tree.attribute?, List.lookup, hcolor]

/-- A shape is drawn with its paths, and with the gradient that they are filled with. -/
theorem shape_shows {node : Datum} {svg : Svg} (h : shape node = .ok svg) : ∃ t,
    Reader.read vector svg.render = some [t] ∧ Shows t (outlineData node) [] := by
  obtain ⟨width, height, f, stroke, paths, hpaths, ⟨paints, hf⟩, ⟨strokes, hstroke⟩, rfl⟩ := shape_cases h
  obtain ⟨hproper, htexts⟩ := definitionsOf_proper hf
  obtain ⟨es, hes⟩ : ∃ es, Tree.allElements (allTrees (definitionsOf f)) = es := ⟨_, rfl⟩
  obtain ⟨hothers, hdefined⟩ := definitionsOf_elements hf hes
  have hnamed : ∀ path ∈ paths, areNamed "path" (pathAttributes f.value stroke path) = true := by
    intro path _
    unfold pathAttributes
    rcases strokeAttributes_cases hstroke with rfl | ⟨color, size, rfl⟩ <;> split <;>
      simp [areNamed, isName, isNameChar]
  have hshape : isProper (frame width height [("fill", "none")]
      (definitionsOf f ++ leaves "path" (pathAttributes f.value stroke) paths)) = true := by
    simpa [frame, isProper, areProper_append, areProper_leaves hnamed, hproper, areNamed, isName,
      isNameChar] using .inr ⟨htexts, isText_leaves paths⟩
  have hpath : es.filter (·.tag? == some "path") = [] :=
    List.filter_eq_nil_iff.2 fun e he => by simpa using (hothers e he).1
  have htextPath : es.filter (·.tag? == some "textPath") = [] :=
    List.filter_eq_nil_iff.2 fun e he => by simpa using (hothers e he).2.1
  refine ⟨_, read_render hshape rfl, ?_, ?_, ?_⟩ <;>
    simp only [Tree.named, Tree.elements, allTrees_append, allElements_append, hes, allElements_leaves]
  · simp [outlineData, hpaths, hpath, List.filter_map, Function.comp_def, List.lookup, pathAttributes]
  · simp [htextPath, List.filter_map, Function.comp_def]
  · intro e he id hfill
    rcases List.mem_cons.1 he with rfl | he
    · have hnone : "none" = reference id := by simpa [List.lookup] using hfill
      exact absurd hnone (none_ne id)
    rcases List.mem_append.1 he with he | he
    · rw [(hothers e he).2.2] at hfill
      cases hfill
    · obtain ⟨path, -, rfl⟩ := List.mem_map.1 he
      obtain ⟨g, hg, hgradient⟩ := hdefined id (by simpa [pathAttributes, List.lookup] using hfill)
      exact ⟨g, List.mem_cons_of_mem _ (List.mem_append_left _ hg), hgradient⟩

end Maquette.Svg
