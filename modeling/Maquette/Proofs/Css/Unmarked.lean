/-
Values without marks of code. What paints, strokes, effects and corners are written as consists of
numbers, colors and fixed words, whatever a design has for them; the reference to a token is a
normalized name. So these values end no declaration and open nothing. Only the address of an image is a
text of the design itself.
-/
import Maquette.Proofs.Css.Uncommented
import Maquette.Proofs.Datum
import Maquette.Proofs.Decimal.Integral
import Maquette.Proofs.Outcome
import Maquette.Proofs.Token.NormalName
import Maquette.Stylesheet

namespace Maquette.Css

/-! ## Texts without marks -/

/-- A text without a mark of code. -/
def Unmarked (s : String) : Prop := ∀ c ∈ s.toList, isMark c = false

instance (s : String) : Decidable (Unmarked s) :=
  decidable_of_iff (s.toList.all (!isMark ·) = true) (by simp [Unmarked])

instance (s : String) : Decidable (IsProperty s) :=
  decidable_of_iff (s ≠ "" ∧ s.toList.all isPropertyChar = true) (by simp [IsProperty])

theorem unmarked_append {a b : String} : Unmarked (a ++ b) ↔ Unmarked a ∧ Unmarked b := by
  simp only [Unmarked, String.toList_append, List.forall_mem_append]

theorem unmarked_intercalate {sep : String} (hsep : Unmarked sep) {parts : List String}
    (h : ∀ part ∈ parts, Unmarked part) : Unmarked (sep.intercalate parts) := by
  induction parts with
  | nil => exact fun c hc => absurd hc (by simp)
  | cons part parts ih =>
    obtain ⟨hpart, hparts⟩ := List.forall_mem_cons.1 h
    cases parts with
    | nil => simpa using hpart
    | cons next parts =>
      rw [String.intercalate_cons_cons, unmarked_append, unmarked_append]
      exact ⟨⟨hpart, hsep⟩, ih hparts⟩

/-- Declarations without marks in their values. -/
def ArePlain (ds : List Declaration) : Prop := ∀ d ∈ ds, Declaration.IsPlain d

theorem arePlain_nil : ArePlain [] := by simp [ArePlain]

theorem arePlain_single {property value : String} (hp : IsProperty property) (h : Unmarked value) :
    ArePlain [(property, value)] := List.forall_mem_singleton.2 ⟨hp, h⟩

theorem ArePlain.append {ds ds' : List Declaration} (h : ArePlain ds) (h' : ArePlain ds') :
    ArePlain (ds ++ ds') := List.forall_mem_append.2 ⟨h, h'⟩

/-! ## Numbers -/

theorem unmarked_of_numeral {c : Char} (h : Decimal.isNumeral c = true) : isMark c = false := by
  rw [Bool.eq_false_iff]
  intro hc
  simp only [isMark, List.contains_eq_mem, decide_eq_true_eq, List.mem_cons, List.not_mem_nil,
    or_false] at hc
  rcases hc with rfl | rfl | rfl | rfl | rfl | rfl | rfl <;> exact absurd h (by decide)

theorem unmarked_of_numerals {s : String} (h : Decimal.AreNumerals s.toList) : Unmarked s :=
  fun c hc => unmarked_of_numeral (List.all_eq_true.1 h c hc)

section Numbers

variable {d : Datum} {text : String}

theorem unmarked_int (n : Int) : Unmarked (toString n) := unmarked_of_numerals (Decimal.areNumerals_int n)

theorem unmarked_plainNumber {n : Number} (h : n.plain = .ok text) : Unmarked text := by
  cases n with
  | int n =>
    obtain ⟨x, -, h⟩ := Outcome.bind_ok h
    cases h
    exact unmarked_int n
  | float x =>
    cases h
    exact unmarked_of_numerals (Decimal.areNumerals_plainFloat x)

/-- A value that is written as a number is written without marks, also when it is a text. -/
theorem unmarked_plain (h : d.plain = .ok text) : Unmarked text := by
  cases d with
  | text s =>
    rw [Datum.plain] at h
    split at h
    · cases h
    split at h
    · split at h
      · cases h
      split at h
      · cases h
        exact unmarked_int _
      · cases h
    · cases h
      exact unmarked_of_numerals (Decimal.areNumerals_plainFloat _)
  | _ =>
    obtain ⟨n, -, h⟩ := Outcome.bind_ok h
    exact unmarked_plainNumber h

theorem unmarked_pixels (h : d.pixels = .ok text) : Unmarked text := by
  unfold Datum.pixels at h
  split at h
  · cases h
    decide
  · obtain ⟨number, hnumber, h⟩ := Outcome.bind_ok h
    cases h
    exact unmarked_append.2 ⟨unmarked_plain hnumber, by decide⟩

theorem unmarked_percent (h : Paint.percent d = .ok text) : Unmarked text := by
  obtain ⟨product, -, h⟩ := Outcome.bind_ok h
  exact unmarked_plain h

/-! ## Colors -/

theorem unmarked_alpha {a : Number} (h : Color.alphaText a = .ok text) : Unmarked text := by
  obtain ⟨x, -, h⟩ := Outcome.bind_ok (f := fun x : Float => .ok (Decimal.brief x)) h
  cases h
  exact unmarked_of_numerals (Decimal.areNumerals_brief x)

theorem unmarked_rgba {color opacity : Datum} (h : Color.rgba color opacity = .ok text) :
    Unmarked text := by
  unfold Color.rgba at h
  obtain ⟨a, -, h⟩ := Outcome.bind_ok h
  obtain ⟨alpha, -, h⟩ := Outcome.bind_ok h
  obtain ⟨red, -, h⟩ := Outcome.bind_ok h
  obtain ⟨r, -, h⟩ := Outcome.bind_ok h
  obtain ⟨green, -, h⟩ := Outcome.bind_ok h
  obtain ⟨g, -, h⟩ := Outcome.bind_ok h
  obtain ⟨blue, -, h⟩ := Outcome.bind_ok h
  obtain ⟨b, -, h⟩ := Outcome.bind_ok h
  obtain ⟨number, -, h⟩ := Outcome.bind_ok h
  obtain ⟨shown, hshown, h⟩ := Outcome.bind_ok h
  cases h
  show Unmarked ("rgba(" ++ toString r ++ ", " ++ toString g ++ ", " ++ toString b ++ ", " ++ shown ++ ")")
  simp only [unmarked_append, unmarked_int, unmarked_alpha hshown, and_true]
  decide

end Numbers

/-! ## References -/

theorem unmarked_reference (name : String) : Unmarked (Token.cssVar name) := by
  have hname : Unmarked (Token.normalized name) := by
    intro c hc
    rw [Token.toList_normalized] at hc
    rcases Text.mem_intercalate hc with rfl | ⟨w, hw, hcw⟩
    · decide
    · refine (isMark_of_property ?_).1
      rw [isPropertyChar, ((Token.mem_nameWords hw).2 c hcw).2, Bool.true_or]
  rw [Token.cssVar]
  simp only [unmarked_append, hname, and_true]
  decide

end Maquette.Css

namespace Maquette.Paint

open Css (ArePlain Unmarked unmarked_append unmarked_intercalate arePlain_nil arePlain_single)

/-! ## Gradients -/

section Gradients

variable {paint box : Datum} {text : String}

theorem unmarked_stopList {stops : List Datum} {opacity : Datum} (h : stopList stops opacity = .ok text) :
    Unmarked text := by
  obtain ⟨parts, hparts, h⟩ := Outcome.bind_ok h
  cases h
  refine unmarked_intercalate (by decide) fun part hpart => ?_
  obtain ⟨stop, -, hstop⟩ := Outcome.mem_mapM hparts part hpart
  obtain ⟨place, -, hstop⟩ := Outcome.bind_ok hstop
  obtain ⟨position, hposition, hstop⟩ := Outcome.bind_ok hstop
  obtain ⟨own, -, hstop⟩ := Outcome.bind_ok hstop
  obtain ⟨color, hcolor, hstop⟩ := Outcome.bind_ok hstop
  cases hstop
  simp only [unmarked_append, Css.unmarked_rgba hcolor, Css.unmarked_percent hposition, true_and, and_true]
  decide

theorem unmarked_center (h : center paint = .ok text) : Unmarked text := by
  obtain ⟨handles, -, h⟩ := Outcome.bind_ok h
  split at h
  · cases h
    decide
  · obtain ⟨start, -, h⟩ := Outcome.bind_ok h
    obtain ⟨across, -, h⟩ := Outcome.bind_ok h
    obtain ⟨x, hx, h⟩ := Outcome.bind_ok h
    obtain ⟨down, -, h⟩ := Outcome.bind_ok h
    obtain ⟨y, hy, h⟩ := Outcome.bind_ok h
    cases h
    simp only [unmarked_append, Css.unmarked_percent hx, Css.unmarked_percent hy, true_and, and_true]
    decide

/-- A gradient is written without marks. -/
theorem unmarked_gradientOf {stops : List Datum} (h : gradientOf paint stops box = .ok text) :
    Unmarked text := by
  unfold gradientOf at h
  obtain ⟨opacity, -, h⟩ := Outcome.bind_ok h
  obtain ⟨list, hlist, h⟩ := Outcome.bind_ok h
  obtain ⟨kind, -, h⟩ := Outcome.bind_ok h
  have hlist := unmarked_stopList hlist
  split at h
  · obtain ⟨square, -, h⟩ := Outcome.bind_ok h
    obtain ⟨middle, hmiddle, h⟩ := Outcome.bind_ok h
    cases h
    show Unmarked ("radial-gradient(" ++ (if square = true then "circle" else "ellipse") ++ " at " ++
      middle ++ ", " ++ list ++ ")")
    have hshape : Unmarked (if square = true then "circle" else "ellipse") := by
      split <;> decide
    simp only [unmarked_append, hshape, unmarked_center hmiddle, hlist, and_true]
    decide
  split at h
  · obtain ⟨turn, -, h⟩ := Outcome.bind_ok h
    obtain ⟨degrees, hdegrees, h⟩ := Outcome.bind_ok h
    obtain ⟨middle, hmiddle, h⟩ := Outcome.bind_ok h
    cases h
    show Unmarked ("conic-gradient(from " ++ degrees ++ "deg at " ++ middle ++ ", " ++ list ++ ")")
    simp only [unmarked_append, Css.unmarked_plainNumber hdegrees, unmarked_center hmiddle, hlist, and_true]
    decide
  split at h
  · cases h
    show Unmarked ("linear-gradient(45deg, " ++ list ++ ")")
    simp only [unmarked_append, hlist, and_true]
    decide
  · obtain ⟨turn, -, h⟩ := Outcome.bind_ok h
    obtain ⟨degrees, hdegrees, h⟩ := Outcome.bind_ok h
    cases h
    show Unmarked ("linear-gradient(" ++ degrees ++ "deg, " ++ list ++ ")")
    simp only [unmarked_append, Css.unmarked_plainNumber hdegrees, hlist, and_true]
    decide

theorem unmarked_nestedGradient (h : nestedGradient paint box = .ok text) : Unmarked text := by
  have hplain : ∀ {text}, gradient paint box = .ok text → Unmarked text := by
    intro text h
    obtain ⟨stops, -, h⟩ := Outcome.bind_ok h
    exact unmarked_gradientOf h
  unfold nestedGradient at h
  obtain ⟨parent, -, h⟩ := Outcome.bind_ok h
  split at h
  · exact hplain h
  obtain ⟨kind, -, h⟩ := Outcome.bind_ok h
  split at h
  · exact hplain h
  · obtain ⟨outer, -, h⟩ := Outcome.bind_ok h
    obtain ⟨inner, -, h⟩ := Outcome.bind_ok h
    obtain ⟨stops, -, h⟩ := Outcome.bind_ok h
    exact unmarked_gradientOf h

end Gradients

/-! ## Fills -/

/-- A paint that is no image. -/
def IsDrawn (paint : Datum) : Prop := paint.at? "type" ≠ some (.text "image")

section Fills

variable {paint box : Datum} {paints : List Datum}

theorem unmarked_layer {lowest : Bool} {layer : Option Layer} (hdrawn : IsDrawn paint)
    (h : layer? paint box lowest = .ok layer) : ∀ l ∈ layer, Unmarked l.text := by
  unfold layer? at h
  obtain ⟨kind, hkind, h⟩ := Outcome.bind_ok h
  split at h
  · obtain ⟨color, hcolor, h⟩ := Outcome.bind_ok h
    obtain ⟨own, -, hcolor⟩ := Outcome.bind_ok hcolor
    obtain ⟨opacity, -, hcolor⟩ := Outcome.bind_ok hcolor
    have hcolor := Css.unmarked_rgba hcolor
    cases h
    rintro _ ⟨⟩
    cases lowest with
    | true => exact hcolor
    | false =>
      show Unmarked ("linear-gradient(" ++ color ++ ", " ++ color ++ ")")
      simp only [unmarked_append, hcolor, and_true]
      decide
  split at h
  · obtain ⟨css, hcss, h⟩ := Outcome.bind_ok h
    cases h
    rintro _ ⟨⟩
    exact unmarked_nestedGradient hcss
  split at h
  · cases h
    rintro _ ⟨⟩
  · rename_i himage
    -- what is neither a color nor a gradient nor an image makes no layer
    obtain ⟨-, hkind⟩ := Datum.get_ok hkind
    have hno : kind.isThe "image" = false := by
      rw [Bool.eq_false_iff, Ne, Datum.isThe_iff]
      rintro rfl
      cases hat : paint.at? "type" with
      | none => rw [hat] at hkind; cases hkind
      | some v => exact hdrawn (by rw [hat, hkind, hat]; rfl)
    exact absurd (by rw [hno]; rfl) himage

theorem unmarked_layers {ls : List Layer} (hdrawn : ∀ p ∈ paints, IsDrawn p)
    (h : layers box paints = .ok ls) : ∀ l ∈ ls, Unmarked l.text := by
  induction paints generalizing ls with
  | nil => cases h; simp
  | cons paint lower ih =>
    obtain ⟨hpaint, hlower⟩ := List.forall_mem_cons.1 hdrawn
    obtain ⟨top, htop, h⟩ := Outcome.bind_ok h
    obtain ⟨others, hothers, h⟩ := Outcome.bind_ok h
    cases h
    refine List.forall_mem_append.2 ⟨fun l hl => ?_, ih hlower hothers⟩
    exact unmarked_layer hpaint htop l (Option.mem_toList.1 hl)

/-- Fills without images are written without marks. -/
theorem fills_plain {d : Datum} {ds : List Css.Declaration}
    (hdrawn : ∀ fills, d = .list fills → ∀ p ∈ fills, IsDrawn p) (h : fills d box = .ok ds) :
    ArePlain ds := by
  unfold fills at h
  obtain ⟨items, hitems, h⟩ := Outcome.bind_ok h
  obtain ⟨shown, hshown, h⟩ := Outcome.bind_ok h
  have hitems : ∀ p ∈ items, IsDrawn p := by
    intro p hp
    unfold Datum.orElse at hitems
    split at hitems
    · cases d with
      | list given =>
        cases hitems
        exact hdrawn _ rfl p hp
      | record fields =>
        cases hitems
        obtain ⟨row, -, rfl⟩ := List.mem_map.1 hp
        exact nofun
      | text s =>
        cases hitems
        obtain ⟨c, -, rfl⟩ := List.mem_map.1 hp
        exact nofun
      | _ => cases hitems
    · cases hitems
      cases hp
  have hshown : ∀ p ∈ shown, IsDrawn p := fun p hp => hitems p (Outcome.mem_filterM hshown p hp)
  have hbackground : ∀ {paints : List Datum} {ls : List Layer}, (∀ p ∈ paints, IsDrawn p) →
      layers box paints = .ok ls → ArePlain (background ls) := by
    intro paints ls hpaints hls
    unfold background
    split
    · exact arePlain_nil
    · refine arePlain_single (by decide) (unmarked_intercalate (by decide) ?_)
      exact List.forall_mem_map.2 (unmarked_layers hpaints hls)
  split at h
  · obtain ⟨kind, -, h⟩ := Outcome.bind_ok h
    split at h
    · obtain ⟨color, hcolor, h⟩ := Outcome.bind_ok h
      obtain ⟨own, -, hcolor⟩ := Outcome.bind_ok hcolor
      obtain ⟨opacity, -, hcolor⟩ := Outcome.bind_ok hcolor
      cases h
      exact arePlain_single (by decide) (Css.unmarked_rgba hcolor)
    · obtain ⟨ls, hls, h⟩ := Outcome.bind_ok h
      cases h
      exact hbackground hshown hls
  · obtain ⟨ls, hls, h⟩ := Outcome.bind_ok h
    cases h
    exact hbackground (fun p hp => hshown p (List.mem_reverse.1 hp)) hls

end Fills

/-! ## Effects -/

section Effects

variable {d : Datum} {text : String} {ds : List Css.Declaration}

theorem unmarked_shadow {inner : Bool} (h : shadow d inner = .ok text) : Unmarked text := by
  unfold shadow at h
  obtain ⟨offset, -, h⟩ := Outcome.bind_ok h
  obtain ⟨across, -, h⟩ := Outcome.bind_ok h
  obtain ⟨x, hx, h⟩ := Outcome.bind_ok h
  obtain ⟨down, -, h⟩ := Outcome.bind_ok h
  obtain ⟨y, hy, h⟩ := Outcome.bind_ok h
  obtain ⟨reach, -, h⟩ := Outcome.bind_ok h
  obtain ⟨radius, hradius, h⟩ := Outcome.bind_ok h
  obtain ⟨wide, -, h⟩ := Outcome.bind_ok h
  obtain ⟨spread, hspread, h⟩ := Outcome.bind_ok h
  obtain ⟨own, -, h⟩ := Outcome.bind_ok h
  obtain ⟨color, hcolor, h⟩ := Outcome.bind_ok h
  cases h
  have hinset : Unmarked (if inner = true then "inset " else "") := by split <;> decide
  show Unmarked ((if inner = true then "inset " else "") ++
    (x ++ " " ++ y ++ " " ++ radius ++ " " ++ spread ++ " " ++ color))
  simp only [unmarked_append, hinset, Css.unmarked_pixels hx, Css.unmarked_pixels hy,
    Css.unmarked_pixels hradius, Css.unmarked_pixels hspread, Css.unmarked_rgba hcolor, true_and, and_true]
  decide

theorem unmarked_blur (h : blur d = .ok text) : Unmarked text := by
  obtain ⟨reach, -, h⟩ := Outcome.bind_ok h
  obtain ⟨radius, hradius, h⟩ := Outcome.bind_ok h
  cases h
  simp only [unmarked_append, Css.unmarked_pixels hradius, and_true]
  decide

/-- Shadows and blurs without marks. -/
structure Effects.AreUnmarked (es : Effects) : Prop where
  shadows : ∀ s ∈ es.shadows, Unmarked s
  filters : ∀ s ∈ es.filters, Unmarked s
  backdrops : ∀ s ∈ es.backdrops, Unmarked s

theorem Effects.AreUnmarked.add {es es' : Effects} (h : es.AreUnmarked) {effect : Datum}
    (hadd : es.add effect = .ok es') : es'.AreUnmarked := by
  have hmore : ∀ {ss : List String} {s : String}, (∀ t ∈ ss, Unmarked t) → Unmarked s →
      ∀ t ∈ ss ++ [s], Unmarked t := fun hss hs =>
    List.forall_mem_append.2 ⟨hss, List.forall_mem_singleton.2 hs⟩
  unfold Effects.add at hadd
  obtain ⟨visible, -, hadd⟩ := Outcome.bind_ok hadd
  split at hadd
  · cases hadd
    exact h
  obtain ⟨kind, -, hadd⟩ := Outcome.bind_ok hadd
  split at hadd
  · obtain ⟨s, hs, hadd⟩ := Outcome.bind_ok hadd
    cases hadd
    exact { h with shadows := hmore h.shadows (unmarked_shadow hs) }
  split at hadd
  · obtain ⟨s, hs, hadd⟩ := Outcome.bind_ok hadd
    cases hadd
    exact { h with filters := hmore h.filters (unmarked_blur hs) }
  split at hadd
  · obtain ⟨s, hs, hadd⟩ := Outcome.bind_ok hadd
    cases hadd
    exact { h with backdrops := hmore h.backdrops (unmarked_blur hs) }
  · cases hadd
    exact h

theorem joined_plain {property sep : String} {values : List String} (hp : Css.IsProperty property)
    (hsep : Unmarked sep) (h : ∀ v ∈ values, Unmarked v) : ArePlain (joined property sep values) := by
  unfold joined
  split
  · exact arePlain_nil
  · exact arePlain_single hp (unmarked_intercalate hsep h)

theorem effects_plain (h : effects d = .ok ds) : ArePlain ds := by
  unfold effects at h
  obtain ⟨items, -, h⟩ := Outcome.bind_ok h
  obtain ⟨es, hes, h⟩ := Outcome.bind_ok h
  have hes : es.AreUnmarked :=
    Outcome.foldlM_keeps (fun es effect _ es' hadd hes => hes.add hadd) hes ⟨by simp, by simp, by simp⟩
  cases h
  exact ((joined_plain (by decide) (by decide) hes.shadows).append
    (joined_plain (by decide) (by decide) hes.filters)).append
    (joined_plain (by decide) (by decide) hes.backdrops)

/-! ## Strokes, corners and blend modes -/

theorem strokes_plain {style : StrokeStyle} (h : strokes d style = .ok ds) : ArePlain ds := by
  unfold strokes at h
  obtain ⟨items, -, h⟩ := Outcome.bind_ok h
  obtain ⟨solid, -, h⟩ := Outcome.bind_ok h
  split at h
  · cases h
    exact arePlain_nil
  · obtain ⟨own, -, h⟩ := Outcome.bind_ok h
    obtain ⟨color, hcolor, h⟩ := Outcome.bind_ok h
    obtain ⟨wide, -, h⟩ := Outcome.bind_ok h
    obtain ⟨width, hwidth, h⟩ := Outcome.bind_ok h
    obtain ⟨position, -, h⟩ := Outcome.bind_ok h
    have hwidth := Css.unmarked_pixels hwidth
    have hcolor := Css.unmarked_rgba hcolor
    split at h
    · cases h
      have hvalue : Unmarked (width ++ " solid " ++ color) := by
        simp only [unmarked_append, hwidth, hcolor, true_and, and_true]
        decide
      exact (arePlain_single (by decide) hvalue).append (arePlain_single (by decide) (by decide))
    · cases h
      have hvalue : Unmarked ("inset 0 0 0 " ++ width ++ " " ++ color) := by
        simp only [unmarked_append, hwidth, hcolor, and_true]
        decide
      exact arePlain_single (by decide) hvalue

theorem corners_plain (h : corners d = .ok ds) : ArePlain ds := by
  unfold corners at h
  obtain ⟨radii, -, h⟩ := Outcome.bind_ok h
  have hone : ∀ {ds}, (do
      let own ← d.get "cornerRadius"
      let radius ← if own.isNull && radii.isTruthy then radii.nth 0 else pure own
      if radius.isTruthy then return [("border-radius", ← radius.pixels)]
      return []) = Except.ok ds → ArePlain ds := by
    intro ds h
    obtain ⟨own, -, h⟩ := Outcome.bind_ok h
    obtain ⟨radius, -, h⟩ := Outcome.ite_bind_ok h
    dsimp only at h
    split at h
    · obtain ⟨value, hvalue, h⟩ := Outcome.bind_ok h
      cases h
      exact arePlain_single (by decide) (Css.unmarked_pixels hvalue)
    · cases h
      exact arePlain_nil
  split at h
  · obtain ⟨items, -, h⟩ := Outcome.bind_ok h
    obtain ⟨each, -, h⟩ := Outcome.bind_ok h
    split at h
    · obtain ⟨values, hvalues, h⟩ := Outcome.bind_ok h
      cases h
      refine arePlain_single (by decide) (unmarked_intercalate (by decide) fun value hvalue => ?_)
      obtain ⟨radius, -, hradius⟩ := Outcome.mem_mapM hvalues value hvalue
      exact Css.unmarked_pixels hradius
    · exact hone h
  · exact hone h

theorem blendNamed_plain (mode : String) : ArePlain (blendNamed mode) := by
  unfold blendNamed
  split
  · exact arePlain_nil
  split
  · rename_i name hname
    obtain ⟨key, -, hrow⟩ := Table.mem_of_lookup hname
    have hall : ∀ row ∈ blendModes, Unmarked row.2 := by simp [blendModes]; decide
    exact arePlain_single (by decide) (hall _ hrow)
  split
  · rename_i name filter hname
    obtain ⟨key, -, hrow⟩ := Table.mem_of_lookup hname
    have hall : ∀ row ∈ filteredModes, Unmarked row.2.1 ∧ Unmarked row.2.2 := by simp [filteredModes]; decide
    obtain ⟨hfirst, hsecond⟩ := hall _ hrow
    exact (arePlain_single (by decide) hfirst).append (arePlain_single (by decide) hsecond)
  · exact arePlain_nil

theorem blend_plain {mode : Datum} (h : blend mode = .ok ds) : ArePlain ds := by
  unfold blend at h
  split at h
  · cases h
    exact arePlain_nil
  obtain ⟨key, -, h⟩ := Outcome.bind_ok h
  split at h
  · cases h
    exact blendNamed_plain _
  · cases h
    exact arePlain_nil

end Effects

end Maquette.Paint
