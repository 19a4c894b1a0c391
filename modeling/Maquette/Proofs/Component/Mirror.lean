/-
The markup of a node mirrors the node. At every indentation level, and whatever names, texts, fonts and
paths the design has, it reads as one element: a graphic and a text are elements without elements in
them, an input has no children, and every other node is the element of its role with one element per
child, in order. Content for a slot is shown where a node has no children. The names of the content are
code that has to be closed, as the names of parameters are.

What is drawn for a node that becomes a graphic. Three writings are nested in one another: the graphic is
escaped as vector markup, this markup is a literal of code, and the literal stands in an attribute of the
element that the node becomes. Each of them is read back as what was written, so that the graphic that is
shown has the paths of the node, the gradients that they are filled with, and the characters of its text.
-/
import Maquette.Proofs.Component.Parameters
import Maquette.Proofs.Component.Shown
import Maquette.Proofs.Markup.Graphic
import Maquette.Proofs.Markup.Printed

namespace Maquette.Component

open Markup (Attribute ReadsAs ReadsWithin textNodes valuesOf)
open Reader (Closed Tree isName)

/-! ## Mirrors -/

/-- Whether a node is a text. -/
def Layer.isText (d : Datum) : Bool := ((d.at? "type").getD .null).isThe "TEXT"

/-- The element of a node that is neither a graphic nor a text. -/
def Layer.tag (d : Datum) : String := roleTag ((d.at? "roleHint").getD .null)

mutual

/-- A tree that mirrors a layer: the element that its node is meant to be, with an element per child
unless it shows none. -/
def Layer.MirroredBy : Layer → Tree → Prop
  | .node d children, .element tag _ inner =>
    if isGraphic d then tag = "div" ∧ inner = []
    else if isText d then tag = "span" ∧ ∀ t ∈ inner, t.isElement = false
    else tag = Layer.tag d ∧
      if isVoid tag then inner = []
      else if children.isEmpty then inner = [] ∨ ∃ s, inner = [.code s]
      else AllMirroredBy children inner
  | _, _ => False

def Layer.AllMirroredBy : List Layer → List Tree → Prop
  | [], [] => True
  | l :: ls, t :: ts => l.MirroredBy t ∧ AllMirroredBy ls ts
  | _, _ => False

end

/-! ## What a node becomes -/

theorem isText_of_shape {d : Datum}
    (h : ((d.at? "type").getD .null).isOneOf Svg.shapeKinds = true) : Layer.isText d = false := by
  refine Bool.eq_false_iff.2 fun ht => ?_
  rw [Datum.isThe_iff.1 ht] at h
  simp [Datum.isOneOf, Datum.isThe, Svg.shapeKinds] at h

/-- A node becomes a graphic, a text, or the element of its role. -/
theorem markup_cases {tokens : TokenTable} {slots : SlotTable} {d : Datum} {children : List Layer}
    {m : Markup} (h : (Layer.node d children).markup tokens slots = .ok m) :
    (Layer.isGraphic d = true ∧ ∃ svg label, graphic d svg label = .ok m ∧
      (Layer.isText d = false ∧ Svg.shape d = .ok svg ∨
        Layer.isText d = true ∧ Svg.curvedText? d = .ok (some svg))) ∨
    (Layer.isGraphic d = false ∧ Layer.isText d = true ∧
      ∃ slot, slotContent slots d = .ok slot ∧ plainText tokens d slot = .ok m) ∨
    (Layer.isGraphic d = false ∧ Layer.isText d = false ∧
      ∃ slot common inner, slotContent slots d = .ok slot ∧
        commonAttributes tokens d = .ok common ∧ Layer.allMarkup tokens slots children = .ok inner ∧
        m = elementOf (Layer.tag d) common slot inner) := by
  rw [Layer.markup] at h
  obtain ⟨slot, hslot, h⟩ := Outcome.bind_ok h
  obtain ⟨shape, hshape, h⟩ := Outcome.bind_ok h
  obtain ⟨kind, hkind, hshape⟩ := Outcome.bind_ok hshape
  cases hshape
  rw [(Datum.get_ok hkind).2] at h
  split at h
  · rename_i hs
    obtain ⟨svg, hsvg, h⟩ := Outcome.bind_ok h
    exact .inl ⟨by simp [Layer.isGraphic, hs], svg, .null, h, .inl ⟨isText_of_shape hs, hsvg⟩⟩
  rename_i hs
  rw [Bool.not_eq_true] at hs
  obtain ⟨kind', hkind', h⟩ := Outcome.bind_ok h
  rw [(Datum.get_ok hkind').2] at h
  split at h
  · rename_i ht
    unfold textMarkup at h
    obtain ⟨curved, hcurved, h⟩ := Outcome.bind_ok h
    have hgraphic : Layer.isGraphic d = curved.isSome := by
      rw [hasCurve_ok ht (Svg.curvedText_cases hcurved).1, Layer.isGraphic, hs, ht]
      rfl
    cases curved with
    | some svg =>
      obtain ⟨characters, -, h⟩ := Outcome.bind_ok h
      obtain ⟨name, -, h⟩ := Outcome.bind_ok h
      exact .inl ⟨hgraphic, svg, _, h, .inr ⟨ht, hcurved⟩⟩
    | none => exact .inr (.inl ⟨hgraphic, ht, slot, hslot, h⟩)
  · rename_i ht
    rw [Bool.not_eq_true] at ht
    obtain ⟨tag, htag, h⟩ := Outcome.bind_ok h
    obtain ⟨common, hcommon, h⟩ := Outcome.bind_ok h
    obtain ⟨inner, hinner, h⟩ := Outcome.bind_ok h
    cases h
    have hrole : tag = Layer.tag d := by
      unfold elementTag at htag
      obtain ⟨kind'', hkind'', htag⟩ := Outcome.bind_ok htag
      rw [(Datum.get_ok hkind'').2, if_neg (by simp [ht])] at htag
      obtain ⟨role, hrole, htag⟩ := Outcome.bind_ok htag
      obtain ⟨key, hkey, htag⟩ := Outcome.bind_ok htag
      cases htag
      rw [Datum.asKey_ok hkey, (Datum.get_ok hrole).2, Layer.tag]
    exact .inr (.inr ⟨by simp [Layer.isGraphic, hs, ht], ht, slot, common, inner, hslot, hcommon, hinner,
      by rw [hrole]⟩)

/-! ## Attributes -/

theorem sideStyle_key {tokens : TokenTable} {node box : Datum} {key : String}
    {rows : List (String × Datum)} (h : sideStyle tokens node box key = .ok rows) :
    ∀ row ∈ rows, row.1 = key := by
  unfold sideStyle at h
  obtain ⟨token, -, h⟩ := Outcome.bind_ok h
  cases token with
  | some token => cases h; simp
  | none =>
    obtain ⟨length, -, h⟩ := Outcome.bind_ok h
    cases h
    split <;> simp

theorem opacityStyle_key {tokens : TokenTable} {node : Datum} {rows : List (String × Datum)}
    (h : opacityStyle tokens node = .ok rows) : ∀ row ∈ rows, row.1 = "opacity" := by
  unfold opacityStyle at h
  obtain ⟨token, -, h⟩ := Outcome.bind_ok h
  cases token with
  | some token => cases h; simp
  | none =>
    obtain ⟨opacity, -, h⟩ := Outcome.bind_ok h
    cases h
    split <;> simp

/-- The properties of an element's style are words. -/
theorem inlineStyle_closed {tokens : TokenTable} {node : Datum} {style : List (String × Datum)}
    (h : inlineStyle tokens node = .ok style) : ∀ row ∈ style, Closed row.1.toList := by
  have hwords : ∀ key ∈ ["width", "height", "opacity", "color", "background"],
      Closed key.toList := by
    intro key hkey
    refine Reader.closed_lettered ?_
    simp only [List.mem_cons, List.not_mem_nil, or_false] at hkey
    rcases hkey with rfl | rfl | rfl | rfl | rfl <;> simp [Naming.Lettered, Text.isLettered]
  unfold inlineStyle at h
  obtain ⟨box, -, h⟩ := Outcome.bind_ok h
  obtain ⟨width, hwidth, h⟩ := Outcome.bind_ok h
  obtain ⟨height, hheight, h⟩ := Outcome.bind_ok h
  obtain ⟨opacity, hopacity, h⟩ := Outcome.bind_ok h
  obtain ⟨token, -, h⟩ := Outcome.bind_ok h
  obtain ⟨kind, -, h⟩ := Outcome.bind_ok h
  obtain ⟨key, paint, hkey, rfl⟩ : ∃ key, ∃ paint : Option Datum, (key = "color" ∨ key = "background") ∧
      style = width ++ height ++ opacity ++ (paint.map (key, ·)).toList := by
    dsimp only at h
    split at h
    · obtain ⟨paint, -, h⟩ := Outcome.bind_ok h
      cases h
      exact ⟨_, paint, .inl rfl, rfl⟩
    · obtain ⟨paint, -, h⟩ := Outcome.bind_ok h
      cases h
      exact ⟨_, paint, .inr rfl, rfl⟩
  intro row hrow
  refine hwords _ ?_
  simp only [List.mem_append] at hrow
  rcases hrow with ((hrow | hrow) | hrow) | hrow
  · simp [sideStyle_key hwidth row hrow]
  · simp [sideStyle_key hheight row hrow]
  · simp [opacityStyle_key hopacity row hrow]
  · cases paint with
    | none => cases hrow
    | some paint =>
      cases List.mem_singleton.1 hrow
      rcases hkey with rfl | rfl <;> simp

theorem slotMarks_sound {slot : Datum} {as : List Attribute} (h : slotMarks slot = .ok as) :
    ∀ a ∈ as, a.IsSound := by
  unfold slotMarks at h
  split at h
  · obtain ⟨mark, hmark, h⟩ := Outcome.bind_ok h
    cases h
    exact List.forall_mem_cons.2 ⟨Attribute.isSound_ofDatum rfl hmark, List.forall_mem_singleton.2 rfl⟩
  · cases h; simp

theorem labelMarks_sound {label : Datum} {as : List Attribute} (h : labelMarks label = .ok as) :
    ∀ a ∈ as, a.IsSound := by
  unfold labelMarks at h
  split at h
  · obtain ⟨mark, hmark, h⟩ := Outcome.bind_ok h
    cases h
    exact List.forall_mem_cons.2 ⟨rfl, List.forall_mem_singleton.2 (Attribute.isSound_ofDatum rfl hmark)⟩
  · cases h; exact List.forall_mem_singleton.2 rfl

/-- Class, slot and style of an element are read as attributes, whatever texts are in them. -/
theorem commonAttributes_sound {tokens : TokenTable} {d : Datum} {as : List Attribute}
    (h : commonAttributes tokens d = .ok as) : ∀ a ∈ as, a.IsSound := by
  unfold commonAttributes at h
  obtain ⟨name, -, h⟩ := Outcome.bind_ok h
  obtain ⟨slot, -, h⟩ := Outcome.bind_ok h
  obtain ⟨marks, hmarks, h⟩ := Outcome.bind_ok h
  obtain ⟨style, hstyle, h⟩ := Outcome.bind_ok h
  obtain ⟨styled, hstyled, h⟩ := Outcome.bind_ok h
  cases h
  have hstyles : ∀ a ∈ styled, a.IsSound := by
    unfold styleAttributes at hstyled
    split at hstyled
    · cases hstyled; simp
    · obtain ⟨c, hc, hstyled⟩ := Outcome.bind_ok hstyled
      cases hstyled
      exact List.forall_mem_singleton.2 ⟨rfl, Markup.Code.isClosed_style (inlineStyle_closed hstyle) hc⟩
  exact List.forall_mem_append.2 ⟨List.forall_mem_append.2
    ⟨List.forall_mem_singleton.2 rfl, slotMarks_sound hmarks⟩, hstyles⟩

/-! ## Graphics and texts -/

/-- A graphic is read as an empty element whose inner markup is a literal. -/
theorem graphic_readsAs {d : Datum} {svg : Svg} {label : Datum} {m : Markup}
    (h : graphic d svg label = .ok m) : ∃ attributes, m.ReadsAs (.element "div" attributes []) ∧
      attributes.lookup "dangerouslySetInnerHTML" =
        some (.code ("\x7b __html: " ++ Script.literal svg.render ++ " \x7d")) := by
  unfold graphic at h
  obtain ⟨name, -, h⟩ := Outcome.bind_ok h
  obtain ⟨told, htold, h⟩ := Outcome.bind_ok h
  cases h
  have hhtml : Markup.Code.IsClosed [.raw "\x7b __html: ", .literal svg.render, .raw " \x7d"] := by
    have hfront : Closed " __html: ".toList := Reader.closed_plain (by simp [Reader.isPlain])
    have hback : Closed " ".toList := Reader.closed_plain (by simp [Reader.isPlain])
    have hbraces := ((hfront.append (Reader.closed_literal svg.render)).append hback).bracketed
      (show ('\x7b', '\x7d') ∈ _ by simp)
    simpa [Markup.Code.IsClosed, Markup.Code.toList_text, Markup.Piece.text] using hbraces
  refine ⟨_, Markup.readsAs_empty .inline (.inl rfl) rfl ?_, ?_⟩
  · exact List.forall_mem_append.2 ⟨List.forall_mem_append.2
      ⟨List.forall_mem_singleton.2 rfl, labelMarks_sound htold⟩, List.forall_mem_singleton.2 ⟨rfl, hhtml⟩⟩
  · have hothers : ∀ a ∈ [Attribute.text "className" name] ++ told,
        a.name ≠ "dangerouslySetInnerHTML" := by
      refine List.forall_mem_append.2 ⟨List.forall_mem_singleton.2 (by simp [Attribute.name]), ?_⟩
      intro a ha he
      have hname := (labelMarks_named htold).among a ha
      rw [he] at hname
      simp at hname
    rw [Markup.lookup_valuesOf hothers]
    simp [valuesOf, Attribute.name, Attribute.value, Markup.Code.text, Markup.Piece.text,
      String.append_assoc]

/-- A slot whose content goes by closed code. -/
def ClosedSlot (slot : Option Datum) : Prop := ∀ d ∈ slot, Closed d.shown.toList

theorem closed_quotedCharacters (d : Datum) : Closed (quotedCharacters d).text.toList := by
  cases d with
  | text s => exact Reader.closed_jsonText s
  | _ => exact Reader.closed_jsonLine _

theorem plainText_readsAs {tokens : TokenTable} {d : Datum} {slot : Option Datum} {m : Markup}
    (h : plainText tokens d slot = .ok m) (hs : ClosedSlot slot) : ∃ attributes inner,
      m.ReadsAs (.element "span" attributes inner) ∧ ∀ t ∈ inner, t.isElement = false := by
  unfold plainText at h
  obtain ⟨attributes, hattributes, h⟩ := Outcome.bind_ok h
  obtain ⟨characters, -, h⟩ := Outcome.bind_ok h
  obtain ⟨content, hcontent, h⟩ := Outcome.bind_ok h
  cases h
  have hsound := commonAttributes_sound hattributes
  cases slot with
  | none =>
    cases hcontent
    split
    · exact ⟨_, [], Markup.readsAs_empty .inline (.inl rfl) rfl hsound, by simp⟩
    · have hwithin := Markup.readsWithin_text characters.shown
      rw [← List.append_nil (Markup.textCode characters.shown)] at hwithin
      refine ⟨_, _, Markup.readsAs_inlined rfl hsound (by simp) hwithin, ?_⟩
      unfold textNodes
      split_ifs <;> simp [Tree.isElement]
  | some name =>
    cases name with
    | text name =>
      cases hcontent
      have hcode : Markup.Code.IsClosed [.ref name, .raw " ?? ", quotedCharacters characters] := by
        refine Markup.Code.isClosed_of (List.forall_mem_cons.2 ⟨hs _ rfl, List.forall_mem_cons.2
          ⟨Reader.closed_plain (by simp [Markup.Piece.text, Reader.isPlain]),
            List.forall_mem_singleton.2 (closed_quotedCharacters characters)⟩⟩)
      have hwithin := Markup.readsWithin_expr hcode
      rw [← List.append_nil (Markup.Code.braced _)] at hwithin
      exact ⟨_, _, Markup.readsAs_inlined rfl hsound (by simp) hwithin, by simp [Tree.isElement]⟩
    | _ => cases hcontent

theorem isName_tag (d : Datum) : isName (Layer.tag d).toList = true := by
  unfold Layer.tag roleTag
  split <;> rfl

/-- An element is read with what its children are read as, or with the code for its slot. -/
theorem elementOf_readsAs {d : Datum} {common : List Attribute} {slot : Option Datum}
    {inner : List Markup} (hcommon : ∀ a ∈ common, a.IsSound) (hs : ClosedSlot slot)
    {ts : List Tree} (hinner : List.Forall₂ ReadsAs inner ts) :
    ∃ attributes, (elementOf (Layer.tag d) common slot inner).ReadsAs (.element (Layer.tag d) attributes
      (if isVoid (Layer.tag d) then [] else if inner.isEmpty then
        slot.toList.map fun name => .code name.shown else ts)) := by
  have htype : ∀ a ∈ (if Layer.tag d == "button" then [Attribute.text "type" "button"] else []),
      a.IsSound := by
    split
    · exact List.forall_mem_singleton.2 rfl
    · simp
  have hcode : List.Forall₂ ReadsAs (slot.toList.map fun name => Markup.expr [.ref name.shown])
      (slot.toList.map fun name => .code name.shown) := by
    cases slot with
    | none => exact .nil
    | some name =>
      have hclosed : Markup.Code.IsClosed [.ref name.shown] :=
        Markup.Code.isClosed_of (List.forall_mem_singleton.2 (hs name rfl))
      have htext : Markup.Code.text [.ref name.shown] = name.shown := by
        simp [Markup.Code.text, Markup.Piece.text]
      have hread := Markup.readsAs_expr hclosed
      rw [htext] at hread
      exact .cons hread .nil
  refine ⟨_, Markup.readsAs_block (isName_tag d) (List.forall_mem_append.2 ⟨htype, hcommon⟩) 1 ?_⟩
  split
  · exact .nil
  · split
    · exact hcode
    · exact hinner

/-! ## Trees -/

/-- A table of slots whose contents go by closed code. -/
def ClosedSlots (slots : SlotTable) : Prop :=
  ∀ table, slots = .ok table → ∀ row ∈ table, Closed row.2.shown.toList

theorem slotContent_closed {slots : SlotTable} (hs : ClosedSlots slots) {d : Datum}
    {slot : Option Datum} (h : slotContent slots d = .ok slot) : ClosedSlot slot := by
  unfold slotContent at h
  obtain ⟨table, htable, h⟩ := Outcome.bind_ok h
  obtain ⟨name, -, h⟩ := Outcome.bind_ok h
  obtain ⟨key, -, h⟩ := Outcome.bind_ok h
  cases h
  intro content hcontent
  obtain ⟨k, -, hrow⟩ := Table.mem_of_lookup (Option.mem_filter_iff.1 hcontent).1
  exact hs table htable _ hrow

theorem length_mirrored {ls : List Layer} {ts : List Tree} (h : Layer.AllMirroredBy ls ts) :
    ls.length = ts.length := by
  induction ls generalizing ts with
  | nil =>
    cases ts with
    | nil => rfl
    | cons t ts => cases h
  | cons l ls ih =>
    cases ts with
    | nil => cases h
    | cons t ts => exact congrArg (· + 1) (ih h.2)

mutual

theorem layer_readsAs {tokens : TokenTable} {slots : SlotTable} (hs : ClosedSlots slots) (l : Layer)
    {m : Markup} (h : l.markup tokens slots = .ok m) : ∃ t, m.ReadsAs t ∧ l.MirroredBy t := by
  match l with
  | .broken f => cases h
  | .node d children =>
    rcases markup_cases h with ⟨hgraphic, svg, label, hm, -⟩ | ⟨hgraphic, htext, slot, hslot, hm⟩ |
      ⟨hgraphic, htext, slot, common, inner, hslot, hcommon, hinner, rfl⟩
    · obtain ⟨attributes, hread, -⟩ := graphic_readsAs hm
      refine ⟨_, hread, ?_⟩
      rw [Layer.MirroredBy, if_pos hgraphic]
      exact ⟨rfl, rfl⟩
    · obtain ⟨attributes, inner, hread, hinner⟩ := plainText_readsAs hm (slotContent_closed hs hslot)
      refine ⟨_, hread, ?_⟩
      rw [Layer.MirroredBy, hgraphic, if_pos htext]
      exact ⟨rfl, hinner⟩
    · obtain ⟨ts, hts, hmirror⟩ := layers_readAs hs children hinner
      obtain ⟨attributes, hread⟩ := elementOf_readsAs (d := d) (commonAttributes_sound hcommon)
        (slotContent_closed hs hslot) hts
      refine ⟨_, hread, ?_⟩
      have hempty : inner.isEmpty = children.isEmpty := by
        rw [Bool.eq_iff_iff, List.isEmpty_iff_length_eq_zero, List.isEmpty_iff_length_eq_zero,
          hts.length_eq, length_mirrored hmirror]
      rw [Layer.MirroredBy, hgraphic, htext, hempty]
      refine ⟨rfl, ?_⟩
      split
      · rfl
      · split
        · cases slot with
          | none => exact .inl rfl
          | some name => exact .inr ⟨name.shown, rfl⟩
        · exact hmirror

theorem layers_readAs {tokens : TokenTable} {slots : SlotTable} (hs : ClosedSlots slots)
    (ls : List Layer) {ms : List Markup} (h : Layer.allMarkup tokens slots ls = .ok ms) :
    ∃ ts, List.Forall₂ ReadsAs ms ts ∧ Layer.AllMirroredBy ls ts := by
  match ls with
  | [] => cases h; exact ⟨[], .nil, trivial⟩
  | l :: rest =>
    rw [Layer.allMarkup] at h
    obtain ⟨m, hm, h⟩ := Outcome.bind_ok h
    obtain ⟨ms, hms, h⟩ := Outcome.bind_ok h
    cases h
    obtain ⟨t, ht, hmirror⟩ := layer_readsAs hs l hm
    obtain ⟨ts, hts, hmirrors⟩ := layers_readAs hs rest hms
    exact ⟨t :: ts, .cons ht hts, hmirror, hmirrors⟩

end

/-- The names of parameters are closed code, so the content of a component's slots is. -/
theorem closedSlots_parameters {ps : List Parameter} (h : ∀ p ∈ ps, Naming.Lettered p.name.toList) :
    ClosedSlots (.ok (.ofRows (ps.map fun p => (p.source, .text p.name)))) := by
  intro table htable row hrow
  cases htable
  obtain ⟨given, hgiven, hvalue⟩ := List.mem_map.1 (Table.mem_ofRows hrow)
  obtain ⟨p, hp, rfl⟩ := List.mem_map.1 hgiven
  rw [← hvalue]
  exact Reader.closed_lettered (h p hp)

/-- Markup that was made of a layer reads as one element on lines of its own, the same at every level,
and this element mirrors the layer. -/
theorem markup_mirrors {tokens : TokenTable} {slots : SlotTable} (hs : ClosedSlots slots) {l : Layer}
    {m : Markup} (h : l.markup tokens slots = .ok m) : ∃ t, l.MirroredBy t ∧
      ∀ level, Reader.read Reader.component ("\n" ++ Markup.Line.block (m.lines level)) = some [t] := by
  obtain ⟨t, hread, hmirror⟩ := layer_readsAs hs l h
  exact ⟨t, hmirror, Markup.read_block hread⟩

/-- A frame with a text, a text that is given from outside, and a shape, all of which hold marks of
code. -/
def markedFrame : Datum :=
  .record [("name", .text "</div>"), ("type", .text "FRAME"), ("children", .list
    [.record [("name", .text "\x7b"), ("type", .text "TEXT"), ("characters", .text "a < b")],
     .record [("name", .text "Title"), ("type", .text "TEXT"), ("slotName", .text "title"),
       ("characters", .text "\"\x7d")],
     .record [("name", .text "Icon"), ("type", .text "VECTOR"),
       ("vectorPaths", .list [.record [("data", .text "\"></path>'")]])]])]

/-- The frame as it is written. -/
def markedLines : List String :=
  ["<div className=\"div\">",
   "  <span className=\"unnamed\">\x7b\"a < b\"\x7d</span>",
   "  <span className=\"title\" data-slot=\"title\" id=\"title-id\">" ++
     "\x7btitle ?? \"\\\"\x7d\"\x7d</span>",
   "  <div className=\"icon\" aria-hidden=\"true\" dangerouslySetInnerHTML=\x7b\x7b __html: " ++
     "'<svg width=\"24\" height=\"24\" viewBox=\"0 0 24 24\" fill=\"none\" " ++
     "xmlns=\"http://www.w3.org/2000/svg\">" ++
     "<path d=\"&quot;&gt;&lt;/path&gt;&#x27;\" fill=\"none\"/></svg>' \x7d\x7d />",
   "</div>"]

theorem markup_mirrors_marked : ∃ m t,
    (Layer.read markedFrame).markup (.ok []) (.ok [(.text "title", .text "title")]) = .ok m ∧
    (m.lines 0).map Markup.Line.text = markedLines ∧ (Layer.read markedFrame).MirroredBy t ∧
    Reader.read Reader.component ("\n" ++ Text.lines markedLines) = some [t] := by
  have hrun : ((Layer.read markedFrame).markup (.ok [])
      (.ok [(.text "title", .text "title")])).toOption.map
      (fun m => (m.lines 0).map Markup.Line.text) = some markedLines := by
    decide +kernel
  have hslots : ClosedSlots (.ok [(.text "title", .text "title")]) := by
    intro table htable row hrow
    cases htable
    cases List.mem_singleton.1 hrow
    exact Reader.closed_lettered (by simp [Datum.shown, Naming.Lettered, Text.isLettered])
  cases hm : (Layer.read markedFrame).markup (.ok []) (.ok [(.text "title", .text "title")]) with
  | error e => rw [hm] at hrun; cases hrun
  | ok m =>
    rw [hm] at hrun
    have hlines : (m.lines 0).map Markup.Line.text = markedLines := Option.some.inj hrun
    obtain ⟨t, hmirror, hread⟩ := markup_mirrors hslots hm
    exact ⟨m, t, rfl, hlines, hmirror, hlines ▸ hread 0⟩

/-- The content that a component takes from its design mirrors the nodes of the design. -/
theorem content_mirrors {p : Plan} (hnames : ∀ q ∈ p.parameters, Naming.Lettered q.name.toList)
    {c : Content} (h : p.content = .ok c) (hsource : c.source = .tree) : ∃ nodes ts,
      p.nodes = .ok nodes ∧ List.Forall₂ ReadsAs c.markup ts ∧
        Layer.AllMirroredBy (nodes.map Layer.read) ts := by
  unfold Plan.content at h
  obtain ⟨nodes, hnodes, h⟩ := Outcome.bind_ok h
  split at h
  · split at h
    · cases h
      cases hsource
    · obtain ⟨ms, -, h⟩ := Outcome.bind_ok h
      cases h
      cases hsource
  · obtain ⟨inTree, -, h⟩ := Outcome.bind_ok h
    obtain ⟨given, hgiven, h⟩ := Outcome.bind_ok h
    obtain ⟨ms, hms, h⟩ := Outcome.bind_ok h
    cases h
    have hlettered : ∀ q ∈ given, Naming.Lettered q.name.toList := fun q hq =>
      hnames q (List.mem_of_mem_filter (Outcome.mem_filterM hgiven q hq))
    obtain ⟨ts, hts, hmirror⟩ := layers_readAs (closedSlots_parameters hlettered) _ hms
    exact ⟨nodes, ts, hnodes, hts, hmirror⟩

/-! ## Graphics -/

namespace Layer

/-- The data of the paths that a graphic is drawn along: the curve of a text, the paths of a shape. -/
def pathData (d : Datum) : List String :=
  if isText d then [Svg.curveData d] else Svg.outlineData d

/-- The texts that run along the paths of a graphic. -/
def curvedTexts (d : Datum) : List String := if isText d then [Svg.characters d] else []

end Layer

/-- The graphic of a node is well formed and shows the node. -/
theorem svg_shows {d : Datum} {svg : Svg} (h : Layer.isText d = false ∧ Svg.shape d = .ok svg ∨
      Layer.isText d = true ∧ Svg.curvedText? d = .ok (some svg)) : ∃ t,
    Reader.read Reader.vector svg.render = some [t] ∧
      Svg.Shows t (Layer.pathData d) (Layer.curvedTexts d) := by
  unfold Layer.pathData Layer.curvedTexts
  rcases h with ⟨ht, hsvg⟩ | ⟨ht, hsvg⟩
  · rw [ht]
    exact Svg.shape_shows hsvg
  · rw [ht]
    obtain ⟨-, hcases⟩ := Svg.curvedText_cases hsvg
    obtain ⟨width, height, id, family, size, weight, color, hcolor, rfl⟩ := hcases svg rfl
    exact Svg.alongCurve_shows d hcolor

/-- A node that becomes a graphic is an empty element whose inner markup is a literal. The literal has
well-formed vector markup for its value, and this markup has the paths of the node in order, the
definition of every gradient that it refers to, and the characters of the node if it is a text. -/
theorem graphic_drawn {tokens : TokenTable} {slots : SlotTable} {d : Datum} {children : List Layer}
    {m : Markup} (h : (Layer.node d children).markup tokens slots = .ok m)
    (hg : Layer.isGraphic d = true) : ∃ svg attributes html t,
      (Layer.isText d = false ∧ Svg.shape d = .ok svg ∨
        Layer.isText d = true ∧ Svg.curvedText? d = .ok (some svg)) ∧
      (∀ level, Reader.read Reader.component ("\n" ++ Markup.Line.block (m.lines level)) =
        some [.element "div" attributes []]) ∧
      attributes.lookup "dangerouslySetInnerHTML" = some (.code ("\x7b __html: " ++ html ++ " \x7d")) ∧
      Script.literalValue? html = some svg.render ∧
      Reader.read Reader.vector svg.render = some [t] ∧
      Svg.Shows t (Layer.pathData d) (Layer.curvedTexts d) := by
  rcases markup_cases h with ⟨-, svg, label, hm, hsvg⟩ | ⟨hnot, -⟩ | ⟨hnot, -⟩
  · obtain ⟨attributes, hread, hhtml⟩ := graphic_readsAs hm
    obtain ⟨t, ht, hshows⟩ := svg_shows hsvg
    exact ⟨svg, attributes, _, t, hsvg, Markup.read_block hread, hhtml,
      Script.literalValue_literal _, ht, hshows⟩
  · rw [hg] at hnot; cases hnot
  · rw [hg] at hnot; cases hnot

/-- A shape that is filled with a gradient, one of whose paths holds marks of every writing. -/
def gradientIcon : Datum :=
  .record [("id", .text "1:2"), ("name", .text "Icon"), ("type", .text "VECTOR"),
    ("fills", .list [.record [("type", .text "gradient"), ("gradientType", .text "radial")]]),
    ("vectorPaths", .list [.record [("data", .text "\"></path>'")], .record [("data", .text "M1 1")]])]

/-- A text on a curve that reads like the end of its element. -/
def curvedText : Datum :=
  .record [("name", .text "Arc"), ("type", .text "TEXT"), ("characters", .text "</text>"),
    ("textPath", .record [("data", .text "M0 0\"")])]

/-- The graphic of the shape as it is written. -/
def gradientText : String :=
  "<svg width=\"24\" height=\"24\" viewBox=\"0 0 24 24\" fill=\"none\" " ++
  "xmlns=\"http://www.w3.org/2000/svg\">" ++
  "<defs><radialGradient id=\"1-2-gradient-0\"></radialGradient></defs>" ++
  "<path d=\"&quot;&gt;&lt;/path&gt;&#x27;\" fill=\"url(#1-2-gradient-0)\"/>" ++
  "<path d=\"M1 1\" fill=\"url(#1-2-gradient-0)\"/></svg>"

theorem graphic_drawn_marked :
    (∃ m attributes html t, (Layer.node gradientIcon []).markup (.ok []) (.ok []) = .ok m ∧
      Reader.read Reader.component ("\n" ++ Markup.Line.block (m.lines 0)) =
        some [.element "div" attributes []] ∧
      attributes.lookup "dangerouslySetInnerHTML" = some (.code ("\x7b __html: " ++ html ++ " \x7d")) ∧
      Script.literalValue? html = some gradientText ∧
      Reader.read Reader.vector gradientText = some [t] ∧ Svg.Shows t ["\"></path>'", "M1 1"] []) ∧
    ∃ m svg t, (Layer.node curvedText []).markup (.ok []) (.ok []) = .ok m ∧
      Svg.curvedText? curvedText = .ok (some svg) ∧
      Reader.read Reader.vector svg.render = some [t] ∧ Svg.Shows t ["M0 0\""] ["</text>"] := by
  constructor
  · have hrun : ((Layer.node gradientIcon []).markup (.ok []) (.ok [])).toOption.isSome = true := by
      decide +kernel
    have hrender : (Svg.shape gradientIcon).toOption.map Svg.render = some gradientText := by
      decide +kernel
    have hkind : Layer.isText gradientIcon = false := by decide +kernel
    cases hm : (Layer.node gradientIcon []).markup (.ok []) (.ok []) with
    | error e => rw [hm] at hrun; cases hrun
    | ok m =>
      obtain ⟨svg, attributes, html, t, hsvg, hread, hhtml, hvalue, ht, hshows⟩ :=
        graphic_drawn hm (by decide +kernel)
      rw [(hsvg.resolve_right (by simp [hkind])).2] at hrender
      have htext : svg.render = gradientText := Option.some.inj hrender
      rw [htext] at hvalue ht
      exact ⟨m, attributes, html, t, rfl, hread 0, hhtml, hvalue, ht, hshows⟩
  · have hrun : ((Layer.node curvedText []).markup (.ok []) (.ok [])).toOption.isSome = true := by
      decide +kernel
    have hkind : Layer.isText curvedText = true := by decide +kernel
    cases hm : (Layer.node curvedText []).markup (.ok []) (.ok []) with
    | error e => rw [hm] at hrun; cases hrun
    | ok m =>
      obtain ⟨svg, attributes, html, t, hsvg, -, -, -, ht, hshows⟩ :=
        graphic_drawn hm (by decide +kernel)
      exact ⟨m, svg, t, rfl, (hsvg.resolve_left (by simp [hkind])).2, ht, hshows⟩

end Maquette.Component
