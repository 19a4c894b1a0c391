/-
Whether the page of a component tells of the parameters that are declared for it. The rows of its table
and the attributes in its snippets are read back from the lines that they stand in, and held against the
parameters of the component's plan.

A page has a row for every parameter but the one that takes keys, which a component has if it answers to
them itself; and it writes the names of properties and slots as they stand in the design, where the
parameters that stand for them have names of their own.
-/
import Maquette.Page
import Maquette.Proofs.Component.Consumed
import Maquette.Proofs.Component.Stories

namespace Maquette.Page

open Component (Blueprint Parameter VariantSpec componentName compose generate typesText)
open Naming (Lettered)

/-! ## Reading rows -/

/-- The text of a cell, without the backslashes in front of its bars. -/
def unbarred : List Char → List Char
  | '\\' :: '|' :: rest => '|' :: unbarred rest
  | c :: rest => c :: unbarred rest
  | [] => []

/-- What the first two cells of a row show as code. -/
def row? (line : String) : Option (String × String) :=
  match Text.splitOn (· == '`') line.toList with
  | _ :: key :: _ :: type :: _ => some (String.ofList (unbarred key), String.ofList (unbarred type))
  | _ => none

example : row? "| `size` | `'S' \\| 'L'` | The `size`. |" = some ("size", "'S' | 'L'") := by
  decide +kernel

/-- What code shows of a text: backticks are apostrophes there. -/
def shown (s : String) : String :=
  Text.substitute (fun c => if c = '`' then ['\''] else [c]) s

/-- What a parameter is called outside of a component, without quotation marks. -/
def bare (key : String) : String := String.ofList (Text.trim (· == '\'') key.toList)

/-- One character of code in a cell. -/
def codeChar (c : Char) : List Char :=
  if c = '`' then ['\''] else if c = '|' then ['\\', '|'] else [c]

theorem code_toList (s : String) : (code s).toList = '`' :: (s.toList.flatMap codeChar ++ ['`']) := by
  simp only [code, Text.substitute, String.toList_append, String.toList_ofList]
  rfl

theorem codeChar_cases (c : Char) :
    c = '`' ∧ codeChar c = ['\''] ∨ c = '|' ∧ codeChar c = ['\\', '|'] ∨
      c ≠ '`' ∧ c ≠ '|' ∧ codeChar c = [c] := by
  unfold codeChar
  split_ifs with hmark hbar
  · exact .inl ⟨hmark, rfl⟩
  · exact .inr (.inl ⟨hbar, rfl⟩)
  · exact .inr (.inr ⟨hmark, hbar, rfl⟩)

theorem codeChar_unmarked (cs : List Char) : ∀ c ∈ cs.flatMap codeChar, (c == '`') = false := by
  intro c hc
  obtain ⟨d, -, hd⟩ := List.mem_flatMap.1 hc
  rcases codeChar_cases d with ⟨-, h⟩ | ⟨-, h⟩ | ⟨hne, -, h⟩ <;> rw [h] at hd
  · obtain rfl := List.mem_singleton.1 hd
    rfl
  · rcases List.mem_pair.1 hd with rfl | rfl <;> rfl
  · obtain rfl := List.mem_singleton.1 hd
    exact beq_false_of_ne hne

theorem unbarred_cons {c : Char} {cs : List Char} (h : cs.head? ≠ some '|') :
    unbarred (c :: cs) = c :: unbarred cs := by
  rw [unbarred.eq_def]
  split
  · rename_i heq
    obtain ⟨-, rfl⟩ := List.cons.inj heq
    exact absurd rfl h
  · rename_i heq
    obtain ⟨rfl, rfl⟩ := List.cons.inj heq
    rfl
  · rename_i heq
    cases heq

/-- A bar never begins what is written for characters, so a backslash in front is one of the text. -/
theorem unbarred_code (cs : List Char) :
    unbarred (cs.flatMap codeChar) = cs.flatMap fun c => if c = '`' then ['\''] else [c] := by
  have hhead : ∀ cs : List Char, (cs.flatMap codeChar).head? ≠ some '|' := by
    intro cs
    cases cs with
    | nil => simp
    | cons c cs =>
      rcases codeChar_cases c with ⟨-, h⟩ | ⟨-, h⟩ | ⟨-, hne, h⟩ <;> rw [List.flatMap_cons, h] <;>
        simp_all
  induction cs with
  | nil => rfl
  | cons c cs ih =>
    rw [List.flatMap_cons, List.flatMap_cons]
    rcases codeChar_cases c with ⟨rfl, h⟩ | ⟨rfl, h⟩ | ⟨hmark, -, h⟩ <;> rw [h]
    · exact (unbarred_cons (hhead cs)).trans (congrArg _ ih)
    · exact congrArg ('|' :: ·) ih
    · rw [if_neg hmark]
      exact (unbarred_cons (hhead cs)).trans (congrArg _ ih)

theorem row?_parameterRow (p : Parameter) :
    row? (parameterRow p) = some (shown (bare p.key), shown p.type) := by
  have hline : ∃ rest, (parameterRow p).toList = ['|', ' '] ++ '`' ::
      ((bare p.key).toList.flatMap codeChar ++ '`' ::
        ([' ', '|', ' '] ++ '`' :: (p.type.toList.flatMap codeChar ++ '`' :: rest))) := by
    refine ⟨(" | " ++ cell (if p.note.isEmpty then "-" else p.note) ++ " |").toList, ?_⟩
    simp [parameterRow, bare, toString, code_toList]
  obtain ⟨rest, hline⟩ := hline
  have hfirst : ∀ c ∈ ['|', ' '], (c == '`') = false := by simp
  have hbetween : ∀ c ∈ [' ', '|', ' '], (c == '`') = false := by simp
  have hmark : ('`' == '`') = true := rfl
  rw [row?, hline, Text.splitOn_append hfirst hmark, Text.splitOn_append (codeChar_unmarked _) hmark,
    Text.splitOn_append hbetween hmark, Text.splitOn_append (codeChar_unmarked _) hmark]
  simp only [unbarred_code]
  rfl

/-! ## Reading attributes -/

/-- Whether a character parts words of markup. -/
def isSpace (c : Char) : Bool := c == ' ' || c == '\t' || c == '\n' || c == '\r'

/-- The names of the attributes in a line of markup: the words before its first equals sign, apart from
the tag. -/
def attributeNames (line : String) : List String :=
  if line.toList.contains '=' then
    ((Text.words isSpace (line.toList.takeWhile (· != '='))).filter (·.head? != some '<')).map String.ofList
  else []

example : attributeNames "<Tag label=\"Tag\" />" = ["label"] := by decide +kernel

/-- The names that a name of the design makes where an attribute is called after it. -/
def writtenNames (name : String) : List String := attributeNames (name ++ "=")

/-- The words of a text that name attributes. -/
def namesAmong (cs : List Char) : List String :=
  ((Text.words isSpace (cs.takeWhile (· != '='))).filter (·.head? != some '<')).map String.ofList

/-- What stands behind the first equals sign does not count. -/
theorem attributeNames_append (before after : String) :
    attributeNames (before ++ "=" ++ after) = namesAmong before.toList := by
  have htake (rest : List Char) : (before.toList ++ '=' :: rest).takeWhile (· != '=') =
      before.toList.takeWhile (· != '=') := by
    induction before.toList with
    | nil => rfl
    | cons c cs ih => simp only [List.cons_append, List.takeWhile_cons, ih]
  have hline : (before ++ "=" ++ after).toList = before.toList ++ '=' :: after.toList := by simp
  rw [attributeNames, hline, htake, if_pos (by simp)]
  rfl

theorem writtenNames_eq (name : String) : writtenNames name = namesAmong name.toList := by
  rw [← attributeNames_append name "", String.append_empty]
  rfl

theorem namesAmong_blank (cs : List Char) : namesAmong (' ' :: cs) = namesAmong cs := by
  rw [namesAmong, List.takeWhile_cons_of_pos (by rfl), Text.words_sep (by rfl)]
  rfl

theorem attributeNames_property (key value : String) :
    attributeNames ("  " ++ key ++ "=\"" ++ value ++ "\"") = writtenNames key := by
  have hline : "  " ++ key ++ "=\"" ++ value ++ "\"" =
      "  " ++ key ++ "=" ++ ("\"" ++ value ++ "\"") := by
    apply String.toList_injective
    simp
  rw [hline, attributeNames_append, String.toList_append, writtenNames_eq]
  exact (namesAmong_blank _).trans (namesAmong_blank _)

theorem isLettered_unspaced {c : Char} (h : Text.isLettered c = true) :
    (c != '=') = true ∧ isSpace c = false ∧ c ≠ '<' := by
  have hne (d : Char) (hd : Text.isLettered d = false) : c ≠ d := by
    rintro rfl
    rw [hd] at h
    cases h
  refine ⟨bne_iff_ne.2 (hne _ (by decide)), ?_, hne _ (by decide)⟩
  simp [isSpace, hne ' ' (by decide), hne '\t' (by decide), hne '\n' (by decide), hne '\r' (by decide)]

theorem attributeNames_label {name : String} (h : Lettered name.toList) (label : String) :
    attributeNames ("<" ++ name ++ " " ++ label ++ "=\"" ++ name ++ "\" />") = writtenNames label := by
  have hline : "<" ++ name ++ " " ++ label ++ "=\"" ++ name ++ "\" />" =
      "<" ++ name ++ " " ++ label ++ "=" ++ ("\"" ++ name ++ "\" />") := by
    apply String.toList_injective
    simp
  have hbefore : ("<" ++ name ++ " " ++ label).toList =
      ('<' :: name.toList) ++ ' ' :: label.toList := by simp
  have htag : ∀ c ∈ '<' :: name.toList, (c != '=') = true ∧ isSpace c = false :=
    List.forall_mem_cons.2 ⟨⟨by decide, by decide⟩, fun c hc =>
      ⟨(isLettered_unspaced (h c hc)).1, (isLettered_unspaced (h c hc)).2.1⟩⟩
  rw [hline, attributeNames_append, writtenNames_eq, hbefore, namesAmong,
    List.takeWhile_append_of_pos fun c hc => (htag c hc).1, List.takeWhile_cons_of_pos (by rfl),
    Text.words, Text.splitOn_append (fun c hc => (htag c hc).2) (by rfl)]
  rfl

/-- A name of letters is the name of one attribute. -/
theorem writtenNames_lettered {name : String} (h : Lettered name.toList) (hne : name ≠ "") :
    writtenNames name = [name] := by
  have hnil : name.toList ≠ [] := fun hnil => hne (String.toList_injective hnil)
  have hword : Text.words isSpace name.toList = [name.toList] := by
    rw [Text.words, Text.splitOn_word fun c hc => (isLettered_unspaced (h c hc)).2.1]
    simp [hnil]
  have htag : name.toList.head? ≠ some '<' := fun hhead =>
    (isLettered_unspaced (h _ (List.mem_of_mem_head? hhead))).2.2 rfl
  rw [writtenNames_eq, namesAmong,
    List.takeWhile_eq_self_iff.2 fun c hc => (isLettered_unspaced (h c hc)).1, hword]
  simp [htag]

theorem attributeNames_plain {line : String} (h : '=' ∉ line.toList) : attributeNames line = [] := by
  rw [attributeNames, if_neg (by simpa using h)]

/-! ## Snippets -/

/-- The lines of a snippet of code between their fences. -/
def fenced (snippet : List String) : List String := [codeFence] ++ snippet ++ ["```"]

/-- A snippet under a title. -/
def titled (title : String) (snippet : List String) : List String :=
  [title, ""] ++ fenced snippet ++ [""]

def usageSnippet (name : String) (label : Option String) : List String :=
  ["import \x7b " ++ name ++ " \x7d from './" ++ name ++ "';", "",
    match label with
    | some label => "<" ++ name ++ " " ++ label ++ "=\"" ++ name ++ "\" />"
    | none => "<" ++ name ++ ">" ++ name ++ "</" ++ name ++ ">"]

def variantSnippet (name : String) (v : VariantSpec) : List String :=
  ["<" ++ name] ++
    (v.properties.map fun (key, value) => "  " ++ key ++ "=\"" ++ value.shown ++ "\"") ++ ["/>"]

theorem usage_eq (name : String) (label : Option String) :
    usage name label = chapter "Usage" (fenced (usageSnippet name label)) := by
  cases label <;> rfl

theorem variant_ok {name : String} {v : VariantSpec} {lines : List String}
    (h : variant name v = .ok lines) :
    ∃ title, lines = titled title (variantSnippet name v) := by
  obtain ⟨values, -, h⟩ := Outcome.bind_ok h
  refine ⟨"### " ++ (if values.isEmpty then v.name.shown else values),
    (Except.ok.inj h).symm.trans ?_⟩
  simp [titled, fenced, variantSnippet]

/-- The attributes of a snippet. -/
def attributesOf (snippet : List String) : List String := snippet.flatMap attributeNames

theorem attributesOf_usage {name : String} (h : Lettered name.toList) (label : Option String) :
    attributesOf (usageSnippet name label) = label.toList.flatMap writtenNames := by
  have hname : '=' ∉ name.toList := h.not_mem rfl
  have himport : attributeNames ("import \x7b " ++ name ++ " \x7d from './" ++ name ++ "';") = [] :=
    attributeNames_plain (by simp [hname])
  cases label with
  | none =>
    have hplain : attributeNames ("<" ++ name ++ ">" ++ name ++ "</" ++ name ++ ">") = [] :=
      attributeNames_plain (by simp [hname])
    simp [attributesOf, usageSnippet, himport, hplain, attributeNames_plain]
  | some label =>
    simp [attributesOf, usageSnippet, himport, attributeNames_label h, attributeNames_plain]

theorem attributesOf_variant {name : String} (h : Lettered name.toList) (v : VariantSpec) :
    attributesOf (variantSnippet name v) = v.keys.flatMap writtenNames := by
  have hname : '=' ∉ name.toList := h.not_mem rfl
  have htag : attributeNames ("<" ++ name) = [] := attributeNames_plain (by simp [hname])
  simp [attributesOf, variantSnippet, htag, attributeNames_plain, attributeNames_property,
    VariantSpec.keys, List.flatMap_map]

/-! ## Parts of a page -/

/-- The parts of a page that are about the use of the component and about its parameters: a snippet, one
for each variant that is shown, and the rows of a table. -/
def IsMadeOf (page : String) (snippet : List String) (variants : List (List String))
    (rows : List String) : Prop :=
  ∃ front heading titles back : List String, titles.length = variants.length ∧
    page = Text.lines (front ++ chapter "Usage" (fenced snippet) ++ heading ++
      (titles.zipWith titled variants).flatten ++
      chapter "Props" (["| Prop | Type | Description |", "|------|------|-------------|"] ++ rows) ++
      back)

theorem mapM_variant_ok {name : String} {groups : List VariantSpec} {parts : List (List String)}
    (h : groups.mapM (variant name) = .ok parts) : ∃ titles : List String,
      titles.length = groups.length ∧ parts = titles.zipWith titled (groups.map (variantSnippet name)) := by
  induction groups generalizing parts with
  | nil => cases h; exact ⟨[], rfl, rfl⟩
  | cons v groups ih =>
    rw [List.mapM_cons] at h
    obtain ⟨lines, hlines, h⟩ := Outcome.bind_ok h
    obtain ⟨rest, hrest, h⟩ := Outcome.bind_ok h
    cases h
    obtain ⟨title, rfl⟩ := variant_ok hlines
    obtain ⟨titles, hlength, rfl⟩ := ih hrest
    exact ⟨title :: titles, congrArg _ hlength, rfl⟩

theorem variants_ok {name : String} {outline : Datum} {lines : List String}
    (h : variants name outline = .ok lines) :
    ∃ (groups : List VariantSpec) (heading titles : List String), Story.groups outline = .ok groups ∧
      titles.length = groups.length ∧
      lines = heading ++ (titles.zipWith titled (groups.map (variantSnippet name))).flatten := by
  obtain ⟨groups, hgroups, h⟩ := Outcome.bind_ok h
  obtain ⟨parts, hparts, h⟩ := Outcome.bind_ok h
  cases h
  obtain ⟨titles, hlength, rfl⟩ := mapM_variant_ok hparts
  refine ⟨groups, if groups.isEmpty then [] else ["## Variants", ""], titles, hgroups, hlength, ?_⟩
  cases groups with
  | nil => simp
  | cons v groups => rfl

theorem text_ok {name page : String} {outline set interaction : Datum}
    (h : text name outline set interaction = .ok page) :
    ∃ items label groups b, outline.itemsOf "slots" = .ok items ∧ labelSlot? items = .ok label ∧
      Story.groups outline = .ok groups ∧ Blueprint.read outline interaction = .ok b ∧
      IsMadeOf page (usageSnippet name label) (groups.map (variantSnippet name))
        ((Component.parameters b false).map parameterRow) := by
  obtain ⟨info, -, h⟩ := Outcome.bind_ok h
  obtain ⟨category, -, h⟩ := Outcome.bind_ok h
  obtain ⟨url, -, h⟩ := Outcome.bind_ok h
  obtain ⟨items, hitems, h⟩ := Outcome.bind_ok h
  obtain ⟨label, hlabel, h⟩ := Outcome.bind_ok h
  obtain ⟨lines, hvariants, h⟩ := Outcome.bind_ok h
  obtain ⟨b, hb, h⟩ := Outcome.bind_ok h
  obtain ⟨tokens, -, h⟩ := Outcome.bind_ok h
  obtain ⟨keyboard, -, h⟩ := Outcome.bind_ok h
  obtain ⟨keys, -, h⟩ := Outcome.bind_ok h
  obtain ⟨groups, heading, titles, hgroups, hlength, rfl⟩ := variants_ok hvariants
  refine ⟨items, label, groups, b, hitems, hlabel, hgroups, hb, intro name category url, heading, titles,
    tokens ++ accessibility b keys ++ states b, by rw [hlength, List.length_map], ?_⟩
  rw [← Except.ok.inj h, usage_eq]
  simp only [List.append_assoc, parameters]

/-! ## Agreement -/

/-- A page agrees with parameters if its rows are about exactly these, in order, and its snippets have no
other attributes. -/
structure Agrees (ps : List Parameter) (snippets : List (List String)) (rows : List String) : Prop where
  rows : rows.map row? = ps.map fun p => some (bare p.key, shown p.type)
  attributes : ∀ snippet ∈ snippets, ∀ a ∈ attributesOf snippet, ∃ p ∈ ps, bare p.key = a

theorem shown_eq_self {s : String} (h : '`' ∉ s.toList) : shown s = s := by
  have hchars : s.toList.flatMap (fun c => if c = '`' then ['\''] else [c]) = s.toList.flatMap ([·]) :=
    List.flatMap_congr fun c hc => if_neg (by rintro rfl; exact h hc)
  rw [shown, Text.substitute, hchars, List.flatMap_singleton', String.ofList_toList]

/-- The keys of parameters have no backticks. -/
theorem shown_bare {outline interaction : Datum} {b : Blueprint} {handlesKeys : Bool}
    (hb : Blueprint.read outline interaction = .ok b) :
    ∀ p ∈ Component.parameters b handlesKeys, shown (bare p.key) = bare p.key := by
  intro p hp
  have hkey : '`' ∉ p.key.toList := by
    have hlettered := Component.parameters_lettered hb handlesKeys p hp
    rw [Component.parameters_eq] at hp
    rcases List.mem_append.1 hp with hp | hp
    · rw [(Component.ownParameters_key hp).1]
      exact hlettered.not_mem rfl
    · have hfixed : ∀ row ∈ Component.fixedNames, '`' ∉ row.2.toList := by decide
      exact hfixed _ ((Component.fixedParameters_sublist b handlesKeys).subset (List.mem_map_of_mem hp))
  refine shown_eq_self fun h => hkey ?_
  rw [bare, String.toList_ofList] at h
  exact Text.mem_trim h

/-- A component that answers to keys has one parameter more than its page tells of. -/
theorem rows_iff {outline interaction : Datum} {b : Blueprint}
    (hb : Blueprint.read outline interaction = .ok b) (handlesKeys : Bool) :
    ((Component.parameters b false).map parameterRow).map row? =
        (Component.parameters b handlesKeys).map (fun p => some (bare p.key, shown p.type)) ↔
      handlesKeys = false := by
  have hread : ((Component.parameters b false).map parameterRow).map row? =
      (Component.parameters b false).map fun p => some (bare p.key, shown p.type) := by
    rw [List.map_map]
    refine List.map_congr_left fun p hp => ?_
    rw [Function.comp_apply, row?_parameterRow, shown_bare hb p hp]
  rw [hread]
  cases handlesKeys with
  | false => simp
  | true =>
    simp only [Bool.true_eq_false, iff_false]
    intro h
    have hlength := congrArg List.length h
    simp [Component.parameters] at hlength

/-- Attributes are called after the slot that labels the component and after the properties of the
variants that are shown; so all of them are parameters exactly if these names make names of parameters
only. -/
theorem agrees_iff {outline interaction : Datum} {b : Blueprint}
    (hb : Blueprint.read outline interaction = .ok b) (handlesKeys : Bool) {name : String}
    (hn : Lettered name.toList) (label : Option String) (groups : List VariantSpec) :
    Agrees (Component.parameters b handlesKeys)
        (usageSnippet name label :: groups.map (variantSnippet name))
        ((Component.parameters b false).map parameterRow) ↔
      handlesKeys = false ∧
        ∀ key ∈ label.toList ++ groups.flatMap VariantSpec.keys, ∀ a ∈ writtenNames key,
          ∃ p ∈ Component.parameters b handlesKeys, bare p.key = a := by
  have hattributes : (usageSnippet name label :: groups.map (variantSnippet name)).flatMap attributesOf =
      (label.toList ++ groups.flatMap VariantSpec.keys).flatMap writtenNames := by
    rw [List.flatMap_cons, attributesOf_usage hn, List.flatMap_append, List.flatMap_map,
      List.flatMap_assoc]
    simp only [attributesOf_variant hn]
  have hnames (P : String → Prop) :
      (∀ snippet ∈ usageSnippet name label :: groups.map (variantSnippet name),
          ∀ a ∈ attributesOf snippet, P a) ↔
        ∀ key ∈ label.toList ++ groups.flatMap VariantSpec.keys, ∀ a ∈ writtenNames key, P a := by
    rw [← List.forall_mem_flatMap, hattributes, List.forall_mem_flatMap]
  constructor
  · rintro ⟨hrows, hall⟩
    exact ⟨(rows_iff hb handlesKeys).1 hrows, (hnames _).1 hall⟩
  · rintro ⟨hkeys, hall⟩
    exact ⟨(rows_iff hb handlesKeys).2 hkeys, (hnames _).2 hall⟩

/-- A name of letters stands as it is. -/
theorem bare_lettered {name : String} (h : Lettered name.toList) : bare name = name := by
  have hmark : ∀ c ∈ name.toList, (c == '\'') = false := fun c hc =>
    beq_false_of_ne (by rintro rfl; exact absurd (h _ hc) (by decide))
  have hkept : ∀ cs : List Char, (∀ c ∈ cs, (c == '\'') = false) → cs.dropWhile (· == '\'') = cs := by
    intro cs hcs
    cases cs with
    | nil => rfl
    | cons c cs => exact List.dropWhile_cons_of_neg (by rw [hcs c List.mem_cons_self]; exact Bool.false_ne_true)
  rw [bare, Text.trim, hkept _ hmark, Text.dropEnd,
    hkept _ fun c hc => hmark c (List.mem_reverse.1 hc), List.reverse_reverse, String.ofList_toList]

theorem mem_uniques {used wishes : List String} {wish : String} (h : wish ∈ wishes) :
    wish ∈ used ∨ wish ∈ (Naming.uniques used wishes).1 := by
  induction wishes generalizing used with
  | nil => cases h
  | cons base rest ih =>
    rw [Naming.uniques]
    rcases List.mem_cons.1 h with rfl | h
    · by_cases hused : wish ∈ used
      · exact .inl hused
      · exact .inr (by rw [Naming.unique_free hused]; exact List.mem_cons_self)
    · rcases @ih (used ++ [Naming.unique base used]) h with hused | hlater
      · rcases List.mem_append.1 hused with hused | hnew
        · exact .inl hused
        · exact .inr (List.mem_singleton.1 hnew ▸ List.mem_cons_self)
      · exact .inr (List.mem_cons_of_mem _ hlater)

/-- A property whose name is one for a value already, and no name that every component has, is written
as the key of a parameter. -/
theorem property_declared {b : Blueprint} {v : VariantSpec} (hv : v ∈ b.variants) {key : String}
    (hkey : key ∈ v.keys) (hcamel : Naming.camel "value" (.ofString key) = key)
    (hfree : key ∉ Component.reservedNames) (handlesKeys : Bool) :
    ∀ a ∈ writtenNames key, ∃ p ∈ Component.parameters b handlesKeys, bare p.key = a := by
  have hlettered : Lettered key.toList := by
    rw [← hcamel]
    exact Naming.camel_lettered (by simp [Lettered, Text.isLettered]) _
  have hne : key ≠ "" := by
    rintro rfl
    exact absurd hcamel (by decide +kernel)
  have hwish : key ∈ Component.wishes b := by
    obtain ⟨axis, haxis, haxiskey⟩ := List.mem_map.1 (Component.mem_axes.2 ⟨v, hv, hkey⟩)
    refine List.mem_append_left _ (List.mem_map.2 ⟨axis, haxis, ?_⟩)
    rw [haxiskey, hcamel]
  have hgiven : key ∈ (Component.ownParameters b).map Parameter.name := by
    rw [Component.ownParameters_names]
    exact (mem_uniques hwish).resolve_left hfree
  obtain ⟨p, hp, hname⟩ := List.mem_map.1 hgiven
  intro a ha
  rw [writtenNames_lettered hlettered hne] at ha
  obtain rfl := List.mem_singleton.1 ha
  refine ⟨p, by rw [Component.parameters_eq]; exact List.mem_append_left _ hp, ?_⟩
  rw [(Component.ownParameters_key hp).1, hname, bare_lettered hlettered]

section Agreement

variable {title outline tokens interaction matched set : Datum} {files : Component.Artifacts}
  {notices : List Notice} {name page : String}

/-- The page of a component agrees with the parameters that are declared for the component exactly if
the component does not answer to keys itself and the names of the design that attributes are called
after make names of parameters only. -/
theorem page_agrees_iff
    (hg : (generate title outline tokens interaction matched).exec = (.ok files, notices))
    (hn : componentName title = .ok name) (hp : text name outline set interaction = .ok page) :
    ∃ s ms items label groups rows,
      (compose title outline tokens interaction matched).exec = (.ok s, ms) ∧
      files.types = typesText s.name s.plan.blueprint.stateNames s.plan.parameters ∧
      outline.itemsOf "slots" = .ok items ∧ labelSlot? items = .ok label ∧
      Story.groups outline = .ok groups ∧
      IsMadeOf page (usageSnippet name label) (groups.map (variantSnippet name)) rows ∧
      (Agrees s.plan.parameters (usageSnippet name label :: groups.map (variantSnippet name)) rows ↔
        s.plan.handlesKeys = false ∧
          ∀ key ∈ label.toList ++ groups.flatMap VariantSpec.keys, ∀ a ∈ writtenNames key,
            ∃ p ∈ s.plan.parameters, bare p.key = a) := by
  obtain ⟨s, ms, hs, -, htypes⟩ := Component.generate_steps hg
  obtain ⟨items, label, groups, b, hitems, hlabel, hgroups, hb, hmade⟩ := text_ok hp
  obtain ⟨name', ms', -, hplan, -⟩ := Component.compose_ok hs
  obtain ⟨-, hread, hparameters, -⟩ := Component.plan_steps hplan
  obtain rfl : b = s.plan.blueprint := Except.ok.inj (hb.symm.trans hread)
  have hlettered : Lettered name.toList := by
    obtain ⟨pieces, -, hname⟩ := Outcome.bind_ok hn
    rw [← Except.ok.inj hname]
    exact Naming.pascal_lettered (by simp [Lettered, Text.isLettered]) _
  refine ⟨s, ms, items, label, groups, _, hs, htypes, hitems, hlabel, hgroups, hmade, ?_⟩
  rw [hparameters]
  exact agrees_iff hb s.plan.handlesKeys hlettered label groups

end Agreement

/-! ## Pages of two tags -/

/-- A tag with a size and a label. -/
def labelledTag : Datum :=
  .record
    [("variants", .list [.record [("properties", .record [("size", .text "Big")])]]),
     ("slots", .list [.record [("name", .text "label")]])]

def labelledBlueprint : Blueprint where
  outline := labelledTag
  interaction := .empty
  variants := [⟨.record [("properties", .record [("size", .text "Big")])], .text "",
    [("size", .text "Big")]⟩]
  slots := [⟨.text "label", "label"⟩]
  states := []
  aria := []
  rules := []
  category := .text "unknown"

theorem page_agrees_labelled : ∃ files notices page s ms rows,
    componentName (.text "Tag") = .ok "Tag" ∧
    (generate (.text "Tag") labelledTag .null .empty .null).exec = (.ok files, notices) ∧
    text "Tag" labelledTag .null .empty = .ok page ∧
    (compose (.text "Tag") labelledTag .null .empty .null).exec = (.ok s, ms) ∧
    files.types = typesText s.name s.plan.blueprint.stateNames s.plan.parameters ∧
    IsMadeOf page (usageSnippet "Tag" (some "label"))
      [["<Tag", "  size=\"Big\"", "/>"]] rows ∧
    Agrees s.plan.parameters
      [usageSnippet "Tag" (some "label"), ["<Tag", "  size=\"Big\"", "/>"]] rows := by
  have hname : componentName (.text "Tag") = .ok "Tag" := rfl
  have hgenerated : (generate (.text "Tag") labelledTag .null .empty .null).exec.1.toBool = true := by
    decide +kernel
  have hwritten : (text "Tag" labelledTag .null .empty).toBool = true := by decide +kernel
  cases hg : (generate (.text "Tag") labelledTag .null .empty .null).exec.1 with
  | error e => rw [hg] at hgenerated; cases hgenerated
  | ok files =>
  cases hp : text "Tag" labelledTag .null .empty with
  | error e => rw [hp] at hwritten; cases hwritten
  | ok page =>
  obtain ⟨s, ms, items, label, groups, rows, hs, htypes, hitems, hlabel, hgroups, hmade, hagrees⟩ :=
    page_agrees_iff (Prod.ext hg rfl) hname hp
  obtain rfl : [.record [("name", .text "label")]] = items := Except.ok.inj hitems
  obtain rfl : some "label" = label := Except.ok.inj hlabel
  obtain rfl : [⟨.record [("properties", .record [("size", .text "Big")])], .text "",
    [("size", .text "Big")]⟩] = groups := Except.ok.inj hgroups
  obtain ⟨_, _, -, hplan, -⟩ := Component.compose_ok hs
  obtain ⟨-, hread, hparameters, _, -, -, -, hkeys⟩ := Component.plan_steps hplan
  have hblueprint : s.plan.blueprint = labelledBlueprint := (Except.ok.inj hread).symm
  have hnokeys : s.plan.handlesKeys = false := (Except.ok.inj hkeys).symm
  refine ⟨files, _, page, s, ms, rows, hname, Prod.ext hg rfl, rfl, hs, htypes, hmade,
    hagrees.2 ⟨hnokeys, ?_⟩⟩
  rw [hparameters, hblueprint, hnokeys]
  decide +kernel

/-- The files of a tag with a size, the component and the page. -/
def tagPage (size : String) : Outcome (Component.Artifacts × Component.Source × String) := do
  let interaction ← Interaction.build (Component.tagOutline size) Component.tagIntelligence
  return (← (generate (.text "Tag") (Component.tagOutline size) .null interaction .null).exec.1,
    ← (compose (.text "Tag") (Component.tagOutline size) .null interaction .null).exec.1,
    ← text "Tag" (Component.tagOutline size) .null interaction)

/-- The size of a tag is a parameter, and the page shows an attribute that is none. -/
theorem page_disagrees_tag : ∃ outline intelligence interaction files notices s ms page rows,
    Outline.ofDatum (Component.tagLayer "Big") ⟨.text "", .text "", .null⟩ = .ok outline ∧
    Archetype.classify outline = .ok intelligence ∧
    Interaction.build outline intelligence = .ok interaction ∧
    (generate (.text "Tag") outline .null interaction .null).exec = (.ok files, notices) ∧
    (compose (.text "Tag") outline .null interaction .null).exec = (.ok s, ms) ∧
    files.types = typesText s.name s.plan.blueprint.stateNames s.plan.parameters ∧
    s.plan.parameters.map (bare ·.key) = ["size", "tokenOverrides", "className", "children"] ∧
    text "Tag" outline .null interaction = .ok page ∧
    IsMadeOf page (usageSnippet "Tag" none) [["<Tag", "  Size=\"Big\"", "/>"]] rows ∧
    ¬ Agrees s.plan.parameters [usageSnippet "Tag" none, ["<Tag", "  Size=\"Big\"", "/>"]] rows := by
  have hrun : (tagPage "Big").toOption.map (fun r => r.2.1.plan.parameters.map (bare ·.key)) =
      some ["size", "tokenOverrides", "className", "children"] := by decide +kernel
  cases hpage : tagPage "Big" with
  | error e => rw [hpage] at hrun; cases hrun
  | ok r =>
  rw [hpage] at hrun
  obtain ⟨interaction, hbuild, hpage⟩ := Outcome.bind_ok hpage
  obtain ⟨files, hg, hpage⟩ := Outcome.bind_ok hpage
  obtain ⟨s, hs, hpage⟩ := Outcome.bind_ok hpage
  obtain ⟨page, hp, hpage⟩ := Outcome.bind_ok hpage
  cases hpage
  have hdeclared : s.plan.parameters.map (bare ·.key) =
      ["size", "tokenOverrides", "className", "children"] := Option.some.inj hrun
  obtain ⟨s', ms, hs', -, htypes⟩ := Component.generate_steps (Prod.ext hg rfl)
  obtain rfl : s = s' := Except.ok.inj (hs.symm.trans (congrArg Prod.fst hs'))
  obtain ⟨items, label, groups, b, hitems, hlabel, hgroups, -, hmade⟩ := text_ok hp
  obtain rfl : [] = items := Except.ok.inj hitems
  obtain rfl : none = label := Except.ok.inj hlabel
  obtain rfl : [Component.tagVariant "Big"] = groups := Except.ok.inj hgroups
  refine ⟨_, _, interaction, files, _, s, ms, page, _, Component.tagOutline_made "Big",
    Component.tagOutline_classified "Big", hbuild, Prod.ext hg rfl, hs', htypes, hdeclared, hp, hmade,
    fun hagrees => ?_⟩
  obtain ⟨p, hp, hkey⟩ := hagrees.attributes ["<Tag", "  Size=\"Big\"", "/>"] (by simp) "Size"
    (by decide +kernel)
  have hmem : "Size" ∈ s.plan.parameters.map (bare ·.key) := List.mem_map.2 ⟨p, hp, hkey⟩
  rw [hdeclared] at hmem
  exact absurd hmem (by decide)

end Maquette.Page
