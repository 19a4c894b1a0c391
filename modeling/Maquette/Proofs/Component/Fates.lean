/-
What the markup of nodes shows of the content that is given for slots. Every node that names a slot has a
fate of its own, by what it is and by what it stands in: a text shows the content in place of its
characters, an element with nothing inside shows it, an element with nodes inside keeps them, an input
stays empty, and a graphic is drawn as it is. The names that the markup shows and the names that it uses
at all are those of the slots with the fate "shown".
-/
import Maquette.Proofs.Component.Outlined

namespace Maquette.Markup

/-! ## What markup shows -/

mutual

/-- The names whose values markup shows: those of the expressions between its tags. -/
def shows : Markup → List String
  | .text _ => []
  | .expr c => c.refs
  | .element _ _ _ children => allShows children
  | .guarded _ child => shows child

def allShows : List Markup → List String
  | [] => []
  | m :: rest => shows m ++ allShows rest

end

mutual

/-- Markup uses all names whose values it shows. -/
theorem shows_subset_names (m : Markup) : m.shows ⊆ m.names := by
  intro name hname
  match m with
  | .text s => cases hname
  | .expr c => exact hname
  | .element _ tag attributes children =>
    rw [shows] at hname
    rw [names, List.mem_append]
    refine .inr ?_
    cases children with
    | nil => cases hname
    | cons m rest => exact List.mem_append_left _ (allShows_subset_allNames (m :: rest) hname)
  | .guarded _ child => exact List.mem_cons_of_mem _ (shows_subset_names child hname)

theorem allShows_subset_allNames (ms : List Markup) : allShows ms ⊆ allNames ms := by
  intro name hname
  match ms with
  | [] => cases hname
  | m :: rest =>
    rw [allNames, List.mem_append]
    rcases List.mem_append.1 hname with hname | hname
    · exact .inl (shows_subset_names m hname)
    · exact .inr (allShows_subset_allNames rest hname)

end

theorem mem_allShows {ms : List Markup} {name : String} :
    name ∈ allShows ms ↔ ∃ m ∈ ms, name ∈ m.shows := by
  induction ms with
  | nil => simp [allShows]
  | cons m rest ih => simp [allShows, ih]

@[simp] theorem allShows_append (ms ms' : List Markup) :
    allShows (ms ++ ms') = allShows ms ++ allShows ms' := by
  induction ms with
  | nil => rfl
  | cons m ms ih => rw [List.cons_append, allShows, allShows, ih, List.append_assoc]

/-- Pieces of markup show the values of names, and use no other names. -/
structure Shows (ms : List Markup) (names : List String) : Prop where
  shown : allShows ms = names
  used : allNames ms = names

namespace Shows

variable {ms : List Markup} {m : Markup} {names names' : List String}

theorem nil : Shows [] [] := ⟨rfl, rfl⟩

theorem cons (hm : Shows [m] names) (hs : Shows ms names') : Shows (m :: ms) (names ++ names') := by
  obtain ⟨hshown, hused⟩ := hm
  obtain ⟨hshown', hused'⟩ := hs
  simp only [allShows, allNames, List.append_nil] at hshown hused
  exact ⟨by rw [allShows, hshown, hshown'], by rw [allNames, hused, hused']⟩

theorem text (s : String) : Shows [.text s] [] := ⟨rfl, rfl⟩

theorem expr (c : Code) : Shows [.expr c] c.refs := by
  constructor <;> simp [allShows, shows, allNames, names]

/-- An element whose attributes use no names shows what is inside of it. -/
theorem element (layout : Layout) (tag : String) {attributes : List Attribute}
    (ha : ∀ a ∈ attributes, a.toCode.Scoped fun _ => False) (hc : Shows ms names) :
    Shows [.element layout (.plain tag) attributes ms] names := by
  obtain ⟨hshown, hused⟩ := hc
  have hattributes : attributeNames attributes = [] :=
    List.eq_nil_iff_forall_not_mem.2 fun name hname => by
      obtain ⟨a, hmem, hname⟩ := List.mem_flatMap.1 hname
      exact ha a hmem name hname
  refine ⟨by simpa [allShows, shows] using hshown, ?_⟩
  cases ms with
  | nil => simpa [allNames, Markup.names, hattributes] using hused
  | cons m rest => simpa [allNames, Markup.names, hattributes] using hused

end Shows

end Maquette.Markup

namespace Maquette.Component

open Markup (Attribute Shows)

/-! ## Content of nodes -/

/-- What becomes of the content that is given for a slot. -/
inductive Fate where
  /-- The markup shows it. -/
  | shown
  /-- The element keeps what is inside of it, or has to stay empty, or stands where nothing is shown. -/
  | withheld
  /-- The node is drawn as a graphic, or stands in one. -/
  | drawn
  deriving DecidableEq, Repr

/-- What becomes of content in a place of its own fate. -/
def Fate.within : Fate → Fate → Fate
  | .shown, fate => fate
  | around, _ => around

theorem Fate.shown_within (fate : Fate) : Fate.shown.within fate = fate := rfl

/-- The slot that a node names. -/
def ownKey? (d : Datum) : Option Datum := (d.at? "slotName").filter Datum.isTruthy

namespace Layer

/-- What becomes of the content for a node's own slot. -/
def fate (d : Datum) (children : List Layer) : Fate :=
  if isGraphic d then .drawn
  else if ((d.at? "type").getD .null).isThe "TEXT" then .shown
  else if isVoid (roleTag ((d.at? "roleHint").getD .null)) || !children.isEmpty then .withheld
  else .shown

/-- What becomes of the content for slots inside of a node. -/
def fateInside (d : Datum) : Fate :=
  if isGraphic d then .drawn else if isClosed d then .withheld else .shown

mutual

/-- The slots that nodes name, with what becomes of the content for them. -/
def fates (around : Fate) : Layer → List (Datum × Fate)
  | broken _ => []
  | node d children =>
    ((ownKey? d).toList.map fun key => (key, around.within (fate d children))) ++
      allFates (around.within (fateInside d)) children

def allFates (around : Fate) : List Layer → List (Datum × Fate)
  | [] => []
  | l :: rest => fates around l ++ allFates around rest

end

end Layer

/-- The slots that nodes name, as keys. -/
def keysAmong (nodes : List Datum) : List Datum := nodes.filterMap ownKey?

theorem keysAmong_shown (nodes : List Datum) : (keysAmong nodes).map Datum.shown = slotsAmong nodes := by
  rw [keysAmong, slotsAmong, List.map_filterMap]
  rfl

mutual

/-- Every slot that a node names has its fate, in walking order. -/
theorem fates_keys (around : Fate) (depth : Nat) (d : Datum) :
    ((Layer.read d).fates around).map Prod.fst = keysAmong ((d.preorder depth).map Prod.fst) := by
  match d with
  | .record fields =>
    have hown : ∀ (o : Option Datum) (fate : Fate),
        (o.toList.map fun key => (key, fate)).map Prod.fst = o.toList := by
      intro o fate
      cases o <;> rfl
    rw [Layer.read, Layer.fates, Datum.preorder, List.map_append, hown, fatesFields_keys _ (depth + 1),
      List.map_cons, keysAmong, keysAmong, List.filterMap_cons]
    cases ownKey? (.record fields) <;> rfl
  | .null | .bool _ | .int _ | .float _ | .text _ | .list _ => rfl

theorem fatesFields_keys (around : Fate) (depth : Nat) (fields : List (String × Datum)) :
    (Layer.allFates around (Layer.readFields fields)).map Prod.fst =
      keysAmong ((Datum.preorderFields depth fields).map Prod.fst) := by
  match fields with
  | [] => rfl
  | (k, v) :: rest =>
    rw [Layer.readFields, Datum.preorderFields]
    split
    · exact fatesChildren_keys around depth v
    · exact fatesFields_keys around depth rest

theorem fatesChildren_keys (around : Fate) (depth : Nat) (d : Datum) :
    (Layer.allFates around (Layer.readChildren d)).map Prod.fst =
      keysAmong ((Datum.preorderChildren depth d).map Prod.fst) := by
  match d with
  | .list items => exact fatesItems_keys around depth items
  | .record fields => rw [Layer.readChildren]; split <;> rfl
  | .text s => rw [Layer.readChildren]; split <;> rfl
  | .null | .bool _ | .int _ | .float _ =>
    rw [Layer.readChildren.eq_def]; simp only; split <;> rfl

theorem fatesItems_keys (around : Fate) (depth : Nat) (items : List Datum) :
    (Layer.allFates around (Layer.readItems items)).map Prod.fst =
      keysAmong ((Datum.preorderItems depth items).map Prod.fst) := by
  match items with
  | [] => rfl
  | d :: rest =>
    rw [Layer.readItems, Layer.allFates, Datum.preorderItems, List.map_append, List.map_append,
      fates_keys around depth d, fatesItems_keys around depth rest, keysAmong, keysAmong, keysAmong,
      List.filterMap_append]

end

mutual

/-- Where nothing is shown, everything inside shares the fate of the place. -/
theorem fates_around {around : Fate} (h : around ≠ .shown) (l : Layer) :
    ∀ row ∈ l.fates around, row.2 = around := by
  have hwithin : ∀ fate, around.within fate = around := by
    intro fate
    cases around with
    | shown => contradiction
    | withheld | drawn => rfl
  match l with
  | .broken _ => simp [Layer.fates]
  | .node d children =>
    have hin := allFates_around h children
    rw [Layer.fates, hwithin, hwithin]
    refine List.forall_mem_append.2 ⟨?_, hin⟩
    simp

theorem allFates_around {around : Fate} (h : around ≠ .shown) (ls : List Layer) :
    ∀ row ∈ Layer.allFates around ls, row.2 = around := by
  match ls with
  | [] => simp [Layer.allFates]
  | l :: rest =>
    rw [Layer.allFates]
    exact List.forall_mem_append.2 ⟨fates_around h l, allFates_around h rest⟩

end

/-! ## Names for content -/

/-- A table of the names of the content for slots. -/
def IsSlotTable (table : Table Datum Datum) : Prop :=
  ∀ row ∈ table, ∃ slot name, row = (.text slot, .text name) ∧ slot ≠ "" ∧ name ≠ ""

/-- The name of the content for a slot, if its fate is to be shown. -/
def content? (table : Table Datum Datum) (row : Datum × Fate) : Option String :=
  if row.2 = .shown then (table.lookup row.1).map Datum.shown else none

section Table

variable {table : Table Datum Datum} {d : Datum}

/-- The content for a node's slot is that of the slot that the node names. -/
theorem slotContent_eq (ht : IsSlotTable table) {slot : Option Datum}
    (h : slotContent (.ok table) d = .ok slot) : slot = (ownKey? d).bind fun key => table.lookup key := by
  unfold slotContent at h
  rw [Outcome.ok_bind] at h
  obtain ⟨v, hv, h⟩ := Outcome.bind_ok h
  obtain ⟨key, hkey, h⟩ := Outcome.bind_ok h
  cases h
  rw [Datum.asKey_ok hkey, (Datum.get_ok hv).2, ownKey?]
  -- what stands in the table holds something, and so does every slot in it
  have hfound : ∀ {k w}, table.lookup k = some w → w.isTruthy = true ∧ k.isTruthy = true := by
    intro k w hw
    obtain ⟨k', hk, hm⟩ := Table.mem_of_lookup hw
    obtain ⟨slot, name, he, hslot, hname⟩ := ht _ hm
    obtain ⟨rfl, rfl⟩ := Prod.mk.inj he
    rw [Datum.same_text.1 hk]
    exact ⟨by simpa [Datum.isTruthy] using hname, by simpa [Datum.isTruthy] using hslot⟩
  have hfilter : ∀ k, (table.lookup k).filter Datum.isTruthy = table.lookup k := by
    intro k
    cases hw : table.lookup k with
    | none => rfl
    | some w => rw [Option.filter_some, if_pos (hfound hw).1]
  have hblank : ∀ k, k.isTruthy = false → table.lookup k = none := by
    intro k hk
    cases hw : table.lookup k with
    | none => rfl
    | some w => rw [(hfound hw).2] at hk; cases hk
  rw [hfilter]
  cases d.at? "slotName" with
  | none => exact hblank _ rfl
  | some v =>
    rw [Option.getD_some, Option.filter_some]
    split
    · rfl
    · rename_i hv
      exact hblank v (by simpa using hv)

theorem content_own (o : Option Datum) (fate : Fate) :
    (o.toList.map fun key => (key, fate)).filterMap (content? table) =
      if fate = .shown then (o.bind fun key => table.lookup key).toList.map Datum.shown else [] := by
  cases o with
  | none => simp
  | some key =>
    by_cases h : fate = .shown
    · cases hl : table.lookup key <;> simp [content?, h, hl]
    · simp [content?, h]

theorem content_around {around : Fate} (h : around ≠ .shown) (ls : List Layer) :
    (Layer.allFates around ls).filterMap (content? table) = [] := by
  refine List.filterMap_eq_nil_iff.2 fun row hrow => ?_
  rw [content?, allFates_around h ls row hrow, if_neg h]

end Table

/-! ## Layers -/

section Layers

variable {tokens : TokenTable} {table : Table Datum Datum} {d : Datum}

theorem graphic_shows {svg : Svg} {label : Datum} {m : Markup} (h : graphic d svg label = .ok m) :
    Shows [m] [] := by
  unfold graphic at h
  obtain ⟨name, -, h⟩ := Outcome.bind_ok h
  obtain ⟨told, htold, h⟩ := Outcome.bind_ok h
  cases h
  refine .element .inline "div" (List.forall_mem_append.2 ⟨List.forall_mem_append.2
    ⟨?_, labelMarks_scoped htold⟩, ?_⟩) .nil
  · simpa using Markup.scoped_attribute _ _
  · simp [Markup.Code.Scoped]

theorem textContent_shows {characters : Datum} {slot : Option Datum} {ms : List Markup}
    (h : textContent characters slot = .ok ms) : Shows ms (slot.toList.map Datum.shown) := by
  unfold textContent at h
  split at h
  · rename_i name
    cases h
    have hquoted : Markup.Code.refs [quotedCharacters characters] = [] := by cases characters <;> rfl
    have hexpr := Shows.expr [.ref name, .raw " ?? ", quotedCharacters characters]
    rwa [Markup.Code.refs_ref, Markup.Code.refs_raw, hquoted] at hexpr
  · cases h
  · cases h
    split
    · exact .nil
    · exact .text _

/-- A text shows its content unless it is drawn along a curve. -/
theorem textMarkup_shows {slot : Option Datum} {m : Markup}
    (ht : ((d.at? "type").getD .null).isThe "TEXT" = true)
    (hs : ((d.at? "type").getD .null).isOneOf Svg.shapeKinds = false)
    (h : textMarkup tokens d slot = .ok m) :
    Shows [m] (if Layer.isGraphic d then [] else slot.toList.map Datum.shown) := by
  unfold textMarkup at h
  obtain ⟨svg, hsvg, h⟩ := Outcome.bind_ok h
  rw [isGraphic_of_text ht hs hsvg]
  cases svg with
  | some svg =>
    obtain ⟨_, -, h⟩ := Outcome.bind_ok h
    obtain ⟨_, -, h⟩ := Outcome.bind_ok h
    exact graphic_shows h
  | none =>
    unfold plainText at h
    obtain ⟨attributes, hattributes, h⟩ := Outcome.bind_ok h
    obtain ⟨characters, -, h⟩ := Outcome.bind_ok h
    obtain ⟨content, hcontent, h⟩ := Outcome.bind_ok h
    cases h
    exact .element .inline "span" (commonAttributes_scoped hattributes) (textContent_shows hcontent)

/-- An element shows what is inside of it, or its content if there is nothing; an input shows nothing. -/
theorem elementOf_shows (tag : String) (slot : Option Datum) {attributes : List Attribute}
    {children : List Markup} {names : List String}
    (ha : ∀ a ∈ attributes, a.toCode.Scoped fun _ => False) (hc : Shows children names) :
    Shows [elementOf tag attributes slot children]
      (if isVoid tag then [] else if children.isEmpty then slot.toList.map Datum.shown else names) := by
  have hslot : Shows (slot.toList.map fun name => Markup.expr [.ref name.shown])
      (slot.toList.map Datum.shown) := by
    cases slot with
    | none => exact .nil
    | some name => exact .expr _
  have hall : ∀ a ∈ (if tag == "button" then [Attribute.text "type" "button"] else []) ++ attributes,
      a.toCode.Scoped fun _ => False := by
    refine List.forall_mem_append.2 ⟨?_, ha⟩
    split
    · simpa using Markup.scoped_attribute _ _
    · simp
  unfold elementOf
  refine .element (.block 1) tag hall ?_
  split
  · exact .nil
  · split
    · exact hslot
    · exact hc

theorem allMarkup_isEmpty {slots : SlotTable} {ls : List Layer} {ms : List Markup}
    (h : Layer.allMarkup tokens slots ls = .ok ms) : ms.isEmpty = ls.isEmpty := by
  cases ls with
  | nil => cases h; rfl
  | cons l rest =>
    rw [Layer.allMarkup] at h
    obtain ⟨m, -, h⟩ := Outcome.bind_ok h
    obtain ⟨ms, -, h⟩ := Outcome.bind_ok h
    cases h
    rfl

mutual

/-- Layers show the content for exactly those slots whose fate is to be shown. -/
theorem layer_shows (ht : IsSlotTable table) (l : Layer) {m : Markup}
    (h : l.markup tokens (.ok table) = .ok m) :
    Shows [m] ((l.fates .shown).filterMap (content? table)) := by
  match l with
  | .broken f => cases h
  | .node d children =>
    rw [Layer.markup] at h
    obtain ⟨slot, hslot, h⟩ := Outcome.bind_ok h
    obtain ⟨shape, hshape, h⟩ := Outcome.bind_ok h
    obtain ⟨kind, hkind, hshape⟩ := Outcome.bind_ok hshape
    cases hshape
    rw [(Datum.get_ok hkind).2] at h
    rw [Layer.fates, Fate.shown_within, Fate.shown_within, List.filterMap_append, content_own,
      ← slotContent_eq ht hslot]
    split at h
    · rename_i hs
      obtain ⟨svg, -, h⟩ := Outcome.bind_ok h
      have hgraphic : Layer.isGraphic d = true := by simp [Layer.isGraphic, hs]
      have hown : Layer.fate d children = .drawn := if_pos hgraphic
      have hin : Layer.fateInside d = .drawn := if_pos hgraphic
      rw [hown, hin, if_neg (by decide), content_around (by decide)]
      exact graphic_shows h
    · rename_i hs
      rw [Bool.not_eq_true] at hs
      obtain ⟨kind', hkind', h⟩ := Outcome.bind_ok h
      rw [(Datum.get_ok hkind').2] at h
      split at h
      · rename_i htext
        have hshows := textMarkup_shows htext hs h
        have hclosed : Layer.isClosed d = true := by simp [Layer.isClosed, htext]
        have hin : Layer.fateInside d ≠ .shown := by
          rw [Layer.fateInside, if_pos hclosed]
          split <;> decide
        rw [content_around hin, List.append_nil, Layer.fate, if_pos htext]
        -- only a text along a curve is a graphic
        cases hgraphic : Layer.isGraphic d with
        | true => simpa [hgraphic] using hshows
        | false => simpa [hgraphic] using hshows
      · rename_i htext
        rw [Bool.not_eq_true] at htext
        obtain ⟨tag, htag, h⟩ := Outcome.bind_ok h
        obtain ⟨common, hcommon, h⟩ := Outcome.bind_ok h
        obtain ⟨inner, hinner, h⟩ := Outcome.bind_ok h
        cases h
        obtain rfl := elementTag_ok htext htag
        have hshows := elementOf_shows (roleTag ((d.at? "roleHint").getD .null)) slot
          (commonAttributes_scoped hcommon) (layers_shows ht children hinner)
        rw [allMarkup_isEmpty hinner] at hshows
        have hgraphic : Layer.isGraphic d = false := by simp [Layer.isGraphic, hs, htext]
        rw [Layer.fate, Layer.fateInside, Layer.isClosed, hgraphic, htext]
        -- an input shows nothing, any other element what is inside of it, or its content
        cases hvoid : isVoid (roleTag ((d.at? "roleHint").getD .null)) with
        | true => simpa [hvoid, content_around] using hshows
        | false =>
          cases children with
          | nil => simpa [hvoid, Layer.allFates] using hshows
          | cons l rest => simpa [hvoid] using hshows

theorem layers_shows (ht : IsSlotTable table) (ls : List Layer) {ms : List Markup}
    (h : Layer.allMarkup tokens (.ok table) ls = .ok ms) :
    Shows ms ((Layer.allFates .shown ls).filterMap (content? table)) := by
  match ls with
  | [] => cases h; exact .nil
  | l :: rest =>
    rw [Layer.allMarkup] at h
    obtain ⟨m, hm, h⟩ := Outcome.bind_ok h
    obtain ⟨ms, hms, h⟩ := Outcome.bind_ok h
    cases h
    rw [Layer.allFates, List.filterMap_append]
    exact (layer_shows ht l hm).cons (layers_shows ht rest hms)

end

end Layers

/-! ## Slots that are found -/

/-- What is found in a walk for slots are the slots of all nodes, absent ones included. -/
theorem slotsIn_ok {nodes keys : List Datum} (hare : ∀ d ∈ nodes, Outline.IsNode d)
    (h : Plan.slotsIn nodes = .ok keys) :
    keys = (Datum.preorderItems 0 nodes).map fun row => (row.1.at? "slotName").getD .null := by
  have hrows : ∀ (rows : List (Datum × Nat)) (acc keys : List Datum),
      rows.foldlM (fun names (row : Datum × Nat) => do
        return names ++ [← (← row.1.get "slotName").asKey]) acc = (.ok keys : Outcome (List Datum)) →
      keys = acc ++ rows.map fun row => (row.1.at? "slotName").getD .null := by
    intro rows
    induction rows with
    | nil => rintro acc keys ⟨⟩; simp
    | cons row rows ih =>
      intro acc keys h
      rw [List.foldlM_cons] at h
      obtain ⟨more, hmore, h⟩ := Outcome.bind_ok h
      obtain ⟨v, hv, hmore⟩ := Outcome.bind_ok hmore
      obtain ⟨key, hkey, hmore⟩ := Outcome.bind_ok hmore
      cases hmore
      rw [ih _ _ h, Datum.asKey_ok hkey, (Datum.get_ok hv).2, List.append_assoc]
      rfl
  have hall : ∀ (nodes : List Datum) (acc keys : List Datum), (∀ d ∈ nodes, Outline.IsNode d) →
      nodes.foldlM (fun names d => (Walked.ofDatum d).foldM (fun names node _ => do
        return names ++ [← (← node.get "slotName").asKey]) names) acc =
          (.ok keys : Outcome (List Datum)) →
      keys = acc ++ (Datum.preorderItems 0 nodes).map fun row => (row.1.at? "slotName").getD .null := by
    intro nodes
    induction nodes with
    | nil => rintro acc keys - ⟨⟩; simp [Datum.preorderItems]
    | cons d nodes ih =>
      intro acc keys hare h
      obtain ⟨hd, hare⟩ := List.forall_mem_cons.1 hare
      rw [List.foldlM_cons, Walked.ofDatum_tree hd.record.2 hd.record.1 hd.isTree] at h
      obtain ⟨found, hfound, h⟩ := Outcome.bind_ok h
      obtain ⟨names, hnames, hfound⟩ := Outcome.bind_ok hfound
      cases hfound
      rw [ih _ _ hare h, hrows _ _ _ hnames, Datum.preorderItems, List.map_append, List.append_assoc]
  exact hall nodes [] keys hare h

/-- A slot is found exactly if it has a fate. -/
theorem mem_slotsIn {nodes keys : List Datum} (hare : ∀ d ∈ nodes, Outline.IsNode d)
    (h : Plan.slotsIn nodes = .ok keys) {slot : String} (hslot : slot ≠ "") :
    .text slot ∈ keys ↔ ∃ fate, (.text slot, fate) ∈ Layer.allFates .shown (nodes.map Layer.read) := by
  have hkeys := fatesItems_keys .shown 0 nodes
  rw [readItems_eq] at hkeys
  have hfates : (∃ fate, (.text slot, fate) ∈ Layer.allFates .shown (nodes.map Layer.read)) ↔
      .text slot ∈ keysAmong ((Datum.preorderItems 0 nodes).map Prod.fst) := by
    rw [← hkeys]
    simp
  have hown : ∀ d : Datum, (d.at? "slotName").getD .null = .text slot ↔ ownKey? d = some (.text slot) := by
    intro d
    rw [ownKey?]
    cases d.at? "slotName" with
    | none => simp
    | some v =>
      rw [Option.getD_some, Option.filter_some]
      constructor
      · rintro rfl
        rw [if_pos (by simpa [Datum.isTruthy] using hslot)]
      · intro hv
        split at hv
        · exact Option.some.inj hv
        · cases hv
  rw [hfates, slotsIn_ok hare h, keysAmong, List.mem_map, List.mem_filterMap]
  simp only [hown, List.mem_map, exists_exists_and_eq_and]

end Maquette.Component
