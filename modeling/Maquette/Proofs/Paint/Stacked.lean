/-
Fills on top of each other. When several paints show, their background has one layer for each paint that
makes one, from the top to the bottom: gradients and images as they are by themselves, and colors as
gradients from themselves to themselves. Only the bottom paint is written as a bare color, and the layers
that are left out do not change that: no bare color comes to stand above another layer.
-/
import Maquette.Paint.Fill
import Maquette.Proofs.Datum

namespace Maquette.Paint

/-! ## Single layers -/

/-- How an image is fitted into its layer, and whether it is repeated there. -/
def fitting : Datum → String × String
  | .text "FIT" => ("contain", "no-repeat")
  | .text "TILE" => ("auto", "repeat")
  | _ => ("cover", "no-repeat")

/-- What a paint can become: a layer, or nothing if it is an image that is not to be found. -/
inductive Makes (box paint : Datum) : Option Layer → Prop where
  | bare {color : String} (kind : paint.at? "type" = some (.text "solid"))
    (drawn : solidColor paint = .ok color) : Makes box paint (some (.bare color))
  | flat {color : String} (kind : paint.at? "type" = some (.text "solid"))
    (drawn : solidColor paint = .ok color) : Makes box paint (some (.flat color))
  | gradient {css : String} (kind : paint.at? "type" = some (.text "gradient"))
    (drawn : nestedGradient paint box = .ok css) : Makes box paint (some (.gradient css))
  | image {url mode : Datum} (kind : paint.at? "type" = some (.text "image"))
    (source : paint.at? "imageUrl" = some url) (given : url.isTruthy = true)
    (fit : (paint.at? "scaleMode").getD (.text "FILL") = mode) (legible : mode.isKey = true) :
    Makes box paint (some (.image url.shown (fitting mode).1 (fitting mode).2))
  | blank (kind : paint.at? "type" = some (.text "image"))
    (missing : ((paint.at? "imageUrl").getD .null).isTruthy = false) : Makes box paint none

/-- The paints of the kinds that show. -/
def showing (items : List Datum) : List Datum :=
  items.filter fun d => ((d.at? "type").getD .null).isOneOf ["solid", "gradient", "image"]

/-- Whether a layer is written as it is only at the bottom, or only above another one. -/
def Layer.fits (lowest : Bool) : Option Layer → Prop
  | some (.bare _) => lowest = true
  | some (.flat _) => lowest = false
  | _ => True

section Single

variable {box paint : Datum} {lowest : Bool} {layer : Option Layer}

theorem isOneOf_iff {d : Datum} {options : List String} :
    d.isOneOf options = true ↔ ∃ s ∈ options, d = .text s := by
  rw [Datum.isOneOf, List.any_eq_true]
  exact exists_congr fun s => and_congr_right fun _ => Datum.isThe_iff

theorem kind_of_showing {items : List Datum} (h : paint ∈ showing items) :
    ∃ kind ∈ ["solid", "gradient", "image"], paint.at? "type" = some (.text kind) := by
  obtain ⟨kind, hkind, heq⟩ := isOneOf_iff.1 (List.mem_filter.1 h).2
  refine ⟨kind, hkind, ?_⟩
  cases hat : paint.at? "type" with
  | none => rw [hat] at heq; cases heq
  | some d => rw [hat] at heq; exact congrArg some heq

theorem imageSize_ok {mode : Datum} (h : mode.isKey = true) : imageSize mode = .ok (fitting mode).1 := by
  fun_cases fitting mode with
  | case1 => rfl
  | case2 => rfl
  | case3 _ hfit htile =>
    unfold imageSize
    rw [Datum.asKey_eq h, Outcome.ok_bind]
    split
    · exact absurd rfl hfit
    · exact absurd rfl htile
    · rfl

theorem isKey_of_imageSize {mode : Datum} {size : String} (h : imageSize mode = .ok size) :
    mode.isKey = true := by
  obtain ⟨key, hkey, -⟩ := Outcome.bind_ok h
  unfold Datum.asKey at hkey
  split at hkey
  · assumption
  · cases hkey

theorem tiling_eq (mode : Datum) :
    (if mode.isThe "TILE" then "repeat" else "no-repeat") = (fitting mode).2 := by
  fun_cases fitting mode with
  | case1 => rfl
  | case2 => rfl
  | case3 _ hfit htile => exact if_neg fun h => htile (Datum.isThe_iff.1 h)

/-- A mode that is absent is not one of repeating. -/
theorem tiling_absent (mode : Option Datum) :
    (if (mode.getD .null).isThe "TILE" then "repeat" else "no-repeat") =
      (fitting (mode.getD (.text "FILL"))).2 := by
  rw [← tiling_eq]
  cases mode <;> rfl

section Kinds

variable (hrecord : paint.isRecord = true)
include hrecord

theorem layer?_solid (kind : paint.at? "type" = some (.text "solid")) :
    layer? paint box lowest = .ok layer ↔
      ∃ color, solidColor paint = .ok color ∧ layer = some (if lowest then .bare color else .flat color) := by
  have heq : layer? paint box lowest = (do
      let color ← solidColor paint
      return some (if lowest then .bare color else .flat color)) := by
    rw [layer?, Datum.get_eq hrecord, kind]
    rfl
  rw [heq]
  constructor
  · intro h
    obtain ⟨color, hcolor, h⟩ := Outcome.bind_ok h
    exact ⟨color, hcolor, (Except.ok.inj h).symm⟩
  · rintro ⟨color, hcolor, rfl⟩
    rw [hcolor]
    rfl

theorem layer?_gradient (kind : paint.at? "type" = some (.text "gradient")) :
    layer? paint box lowest = .ok layer ↔
      ∃ css, nestedGradient paint box = .ok css ∧ layer = some (.gradient css) := by
  have heq : layer? paint box lowest = (do return some (.gradient (← nestedGradient paint box))) := by
    rw [layer?, Datum.get_eq hrecord, kind]
    rfl
  rw [heq]
  constructor
  · intro h
    obtain ⟨css, hcss, h⟩ := Outcome.bind_ok h
    exact ⟨css, hcss, (Except.ok.inj h).symm⟩
  · rintro ⟨css, hcss, rfl⟩
    rw [hcss]
    rfl

theorem layer?_image (kind : paint.at? "type" = some (.text "image")) :
    layer? paint box lowest = .ok layer ↔
      (((paint.at? "imageUrl").getD .null).isTruthy = false ∧ layer = none) ∨
      ∃ url mode, paint.at? "imageUrl" = some url ∧ url.isTruthy = true ∧
        (paint.at? "scaleMode").getD (.text "FILL") = mode ∧ mode.isKey = true ∧
        layer = some (.image url.shown (fitting mode).1 (fitting mode).2) := by
  have heq : layer? paint box lowest =
      if !((paint.at? "imageUrl").getD .null).isTruthy then .ok none else do
        let size ← imageSize ((paint.at? "scaleMode").getD (.text "FILL"))
        return some (.image ((paint.at? "imageUrl").getD .null).shown size
          (fitting ((paint.at? "scaleMode").getD (.text "FILL"))).2) := by
    rw [layer?, Datum.get_eq hrecord, kind, ← tiling_absent]
    simp only [Datum.get_eq hrecord, Datum.fieldOr_eq hrecord, Outcome.ok_bind]
    rfl
  rw [heq]
  -- without an address the mode is not looked at, so it may be any value
  by_cases hgiven : ((paint.at? "imageUrl").getD .null).isTruthy = true
  · obtain ⟨url, hurl⟩ : ∃ url, paint.at? "imageUrl" = some url := by
      cases hat : paint.at? "imageUrl" with
      | none => rw [hat] at hgiven; cases hgiven
      | some url => exact ⟨url, rfl⟩
    rw [hurl] at hgiven ⊢
    rw [Option.getD_some] at hgiven ⊢
    rw [if_neg (by rw [hgiven]; decide)]
    constructor
    · intro h
      obtain ⟨size, hsize, h⟩ := Outcome.bind_ok h
      have hkey := isKey_of_imageSize hsize
      cases (imageSize_ok hkey).symm.trans hsize
      exact .inr ⟨url, _, rfl, hgiven, rfl, hkey, (Except.ok.inj h).symm⟩
    · rintro (⟨hmissing, -⟩ | ⟨url', mode, hsame, -, rfl, hkey, rfl⟩)
      · rw [hgiven] at hmissing
        cases hmissing
      · rw [imageSize_ok hkey, ← Option.some.inj hsame]
        rfl
  · have hmissing : ((paint.at? "imageUrl").getD .null).isTruthy = false := by simpa using hgiven
    rw [if_pos (by rw [hmissing]; rfl)]
    constructor
    · exact fun h => .inl ⟨hmissing, (Except.ok.inj h).symm⟩
    · rintro (⟨-, rfl⟩ | ⟨url, mode, hurl, htruthy, -⟩)
      · rfl
      · rw [hurl] at hmissing
        rw [Option.getD_some, htruthy] at hmissing
        cases hmissing

/-- The layer of a paint that shows is what the paint can become at that height. -/
theorem layer?_iff {items : List Datum} (hshown : paint ∈ showing items) :
    layer? paint box lowest = .ok layer ↔ Makes box paint layer ∧ Layer.fits lowest layer := by
  obtain ⟨kind, hkind, hat⟩ := kind_of_showing hshown
  have hother : ∀ {other : String}, paint.at? "type" = some (.text other) → other = kind := fun h =>
    Datum.text.inj (Option.some.inj (h.symm.trans hat))
  simp only [List.mem_cons, List.not_mem_nil, or_false] at hkind
  rcases hkind with rfl | rfl | rfl
  · rw [layer?_solid hrecord hat]
    constructor
    · rintro ⟨color, hcolor, rfl⟩
      cases lowest with
      | true => exact ⟨.bare hat hcolor, rfl⟩
      | false => exact ⟨.flat hat hcolor, rfl⟩
    · rintro ⟨hmakes, hfits⟩
      cases hmakes with
      | bare _ hcolor =>
        obtain rfl : lowest = true := hfits
        exact ⟨_, hcolor, rfl⟩
      | flat _ hcolor =>
        obtain rfl : lowest = false := hfits
        exact ⟨_, hcolor, rfl⟩
      | gradient h => exact absurd (hother h) (by decide)
      | image h => exact absurd (hother h) (by decide)
      | blank h => exact absurd (hother h) (by decide)
  · rw [layer?_gradient hrecord hat]
    constructor
    · rintro ⟨css, hcss, rfl⟩
      exact ⟨.gradient hat hcss, trivial⟩
    · rintro ⟨hmakes, -⟩
      cases hmakes with
      | gradient _ hcss => exact ⟨_, hcss, rfl⟩
      | bare h => exact absurd (hother h) (by decide)
      | flat h => exact absurd (hother h) (by decide)
      | image h => exact absurd (hother h) (by decide)
      | blank h => exact absurd (hother h) (by decide)
  · rw [layer?_image hrecord hat]
    constructor
    · rintro (⟨hmissing, rfl⟩ | ⟨url, mode, hurl, hgiven, hmode, hkey, rfl⟩)
      · exact ⟨.blank hat hmissing, trivial⟩
      · exact ⟨.image hat hurl hgiven hmode hkey, trivial⟩
    · rintro ⟨hmakes, -⟩
      cases hmakes with
      | image _ hurl hgiven hmode hkey => exact .inr ⟨_, _, hurl, hgiven, hmode, hkey, rfl⟩
      | blank _ hmissing => exact .inl ⟨hmissing, rfl⟩
      | bare h => exact absurd (hother h) (by decide)
      | flat h => exact absurd (hother h) (by decide)
      | gradient h => exact absurd (hother h) (by decide)

end Kinds

end Single

/-! ## Stacks of layers -/

/-- What paints become in a background, both from the top to the bottom: each one what it can, no color
above the bottom as it is, and one at the bottom not as a gradient. -/
structure Stacked (box : Datum) (paints : List Datum) (layers : List (Option Layer)) : Prop where
  drawn : List.Forall₂ (Makes box) paints layers
  above : ∀ color, some (.bare color) ∉ layers.dropLast
  bottom : ∀ color, layers.getLast? ≠ some (some (.flat color))

section Stacks

variable {box paint : Datum} {paints lower items : List Datum} {layer : Option Layer}
  {layers : List (Option Layer)}

theorem Makes.fit (h : Makes box paint layer) (lowest : Bool) :
    ∃ fitted, Makes box paint fitted ∧ Layer.fits lowest fitted := by
  have hsolid : ∀ {color}, paint.at? "type" = some (.text "solid") → solidColor paint = .ok color →
      ∃ fitted, Makes box paint fitted ∧ Layer.fits lowest fitted := fun kind hcolor =>
    match lowest with
    | true => ⟨_, .bare kind hcolor, rfl⟩
    | false => ⟨_, .flat kind hcolor, rfl⟩
  cases h with
  | bare kind drawn => exact hsolid kind drawn
  | flat kind drawn => exact hsolid kind drawn
  | gradient kind drawn => exact ⟨_, .gradient kind drawn, trivial⟩
  | image kind source given fit legible => exact ⟨_, .image kind source given fit legible, trivial⟩
  | blank kind missing => exact ⟨_, .blank kind missing, trivial⟩

theorem Stacked.nil : Stacked box [] [] := ⟨.nil, by simp, by simp⟩

/-- A paint on top of others: it is at the bottom if there are none. -/
theorem stacked_cons : Stacked box (paint :: lower) layers ↔ ∃ layer rest, layers = layer :: rest ∧
    Makes box paint layer ∧ Layer.fits lower.isEmpty layer ∧ Stacked box lower rest := by
  constructor
  · rintro ⟨hdrawn, habove, hbottom⟩
    obtain ⟨layer, rest, hmakes, hrest, rfl⟩ := List.forall₂_cons_left_iff.1 hdrawn
    refine ⟨layer, rest, rfl, hmakes, ?_⟩
    cases hrest with
    | nil =>
      refine ⟨?_, .nil⟩
      rcases layer with _ | ⟨color⟩ | ⟨color⟩ | ⟨css⟩ | ⟨url, size, tiling⟩
      · trivial
      · rfl
      · exact absurd rfl (hbottom color)
      · trivial
      · trivial
    | cons hnext hothers =>
      refine ⟨?_, .cons hnext hothers, fun color hmem => ?_, hbottom⟩
      · rcases layer with _ | ⟨color⟩ | ⟨color⟩ | ⟨css⟩ | ⟨url, size, tiling⟩
        · trivial
        · exact absurd List.mem_cons_self (habove color)
        · rfl
        · trivial
        · trivial
      · exact habove color (List.mem_cons_of_mem _ hmem)
  · rintro ⟨layer, rest, rfl, hmakes, hfits, hdrawn, habove, hbottom⟩
    cases hdrawn with
    | nil =>
      refine ⟨.cons hmakes .nil, by simp, fun color h => ?_⟩
      obtain rfl : layer = some (.flat color) := Option.some.inj h
      cases hfits
    | cons hnext hothers =>
      refine ⟨.cons hmakes (.cons hnext hothers), fun color hmem => ?_, hbottom⟩
      rcases List.mem_cons.1 hmem with rfl | hmem
      · cases hfits
      · exact habove color hmem

theorem layers_iff (hrecords : ∀ d ∈ items, d.isRecord = true) (hpaints : ∀ p ∈ paints, p ∈ showing items)
    {kept : List Layer} : Paint.layers box paints = .ok kept ↔
      ∃ layers, Stacked box paints layers ∧ kept = layers.reduceOption := by
  induction paints generalizing kept with
  | nil =>
    constructor
    · intro h
      cases h
      exact ⟨[], .nil, rfl⟩
    · rintro ⟨layers, hstacked, rfl⟩
      cases hstacked.drawn
      rfl
  | cons paint lower ih =>
    obtain ⟨hpaint, hlower⟩ := List.forall_mem_cons.1 hpaints
    have htop : ∀ {layer}, layer? paint box lower.isEmpty = .ok layer ↔
        Makes box paint layer ∧ Layer.fits lower.isEmpty layer :=
      layer?_iff (hrecords paint (List.mem_of_mem_filter hpaint)) hpaint
    constructor
    · intro h
      obtain ⟨layer, hlayer, h⟩ := Outcome.bind_ok h
      obtain ⟨others, hothers, h⟩ := Outcome.bind_ok h
      obtain ⟨hmakes, hfits⟩ := htop.1 hlayer
      obtain ⟨rest, hrest, rfl⟩ := (ih hlower).1 hothers
      refine ⟨layer :: rest, stacked_cons.2 ⟨layer, rest, rfl, hmakes, hfits, hrest⟩, ?_⟩
      rw [← Except.ok.inj h]
      cases layer <;> rfl
    · rintro ⟨layers, hstacked, rfl⟩
      obtain ⟨layer, rest, rfl, hmakes, hfits, hrest⟩ := stacked_cons.1 hstacked
      rw [Paint.layers, htop.2 ⟨hmakes, hfits⟩, Outcome.ok_bind, (ih hlower).2 ⟨rest, hrest, rfl⟩]
      cases layer <;> rfl

/-- Paints that can all become something stack. -/
theorem exists_stacked : (∃ layers, Stacked box paints layers) ↔ ∀ p ∈ paints, ∃ layer, Makes box p layer := by
  constructor
  · rintro ⟨layers, hdrawn, -, -⟩
    induction hdrawn with
    | nil => simp
    | cons hmakes hrest ih => exact List.forall_mem_cons.2 ⟨⟨_, hmakes⟩, ih⟩
  · intro h
    induction paints with
    | nil => exact ⟨[], .nil⟩
    | cons paint lower ih =>
      obtain ⟨⟨layer, hmakes⟩, hlower⟩ := List.forall_mem_cons.1 h
      obtain ⟨rest, hrest⟩ := ih hlower
      obtain ⟨fitted, hfitted, hfits⟩ := hmakes.fit lower.isEmpty
      exact ⟨fitted :: rest, stacked_cons.2 ⟨fitted, rest, rfl, hfitted, hfits, hrest⟩⟩

/-- A bare color that is left is the last layer, and is that of the bottom paint. -/
theorem Stacked.bare_last (h : Stacked box paints layers) :
    (∀ color, .bare color ∉ layers.reduceOption.dropLast) ∧
    ∀ color, .bare color ∈ layers.reduceOption → layers.reduceOption.getLast? = some (.bare color) ∧
      ∃ bottom, paints.getLast? = some bottom ∧ Makes box bottom (some (.bare color)) := by
  obtain ⟨hdrawn, habove, -⟩ := h
  rcases List.eq_nil_or_concat layers with rfl | ⟨upper, last, rfl⟩
  · simp
  · rw [List.concat_eq_append] at hdrawn habove ⊢
    rw [List.dropLast_concat] at habove
    have hupper : ∀ color, .bare color ∉ upper.reduceOption := fun color hmem =>
      habove color (List.reduceOption_mem_iff.1 hmem)
    rw [List.reduceOption_append]
    cases last with
    | none =>
      -- the bottom paint has no layer, and those above it were not drawn as the lowest
      have hkept : upper.reduceOption ++ [none].reduceOption = upper.reduceOption := by simp
      rw [hkept]
      exact ⟨fun color hmem => hupper color (List.mem_of_mem_dropLast hmem),
        fun color hmem => absurd hmem (hupper color)⟩
    | some lowest =>
      have hkept : upper.reduceOption ++ [some lowest].reduceOption = upper.reduceOption ++ [lowest] := by simp
      rw [hkept, List.dropLast_concat]
      refine ⟨hupper, fun color hmem => ?_⟩
      obtain rfl : Layer.bare color = lowest :=
        List.mem_singleton.1 ((List.mem_append.1 hmem).resolve_left (hupper color))
      refine ⟨List.getLast?_concat, ?_⟩
      have hreverse := List.rel_reverse hdrawn
      rw [List.reverse_append] at hreverse
      obtain ⟨bottom, rest, hmakes, -, hpaints⟩ := List.forall₂_cons_right_iff.1 hreverse
      refine ⟨bottom, ?_, hmakes⟩
      rw [← List.head?_reverse, hpaints]
      rfl

end Stacks

/-! ## Fills -/

section Fills

variable {paints box : Datum} {decls : List Css.Declaration}

theorem background_shape (layers : List Layer) :
    background layers = [] ∨ ∃ value, background layers = [("background", value)] := by
  unfold background
  split
  · exact .inl rfl
  · exact .inr ⟨_, rfl⟩

/-- Fills make one declaration at most. -/
theorem fills_shape (h : fills paints box = .ok decls) :
    decls = [] ∨ ∃ property ∈ ["background-color", "background"], ∃ value, decls = [(property, value)] := by
  have hbackground : ∀ layers, background layers = [] ∨
      ∃ property ∈ ["background-color", "background"], ∃ value, background layers = [(property, value)] :=
    fun layers => (background_shape layers).imp_right fun h => ⟨"background", by simp, h⟩
  unfold fills at h
  obtain ⟨items, -, h⟩ := Outcome.bind_ok h
  obtain ⟨shown, -, h⟩ := Outcome.bind_ok h
  split at h
  · obtain ⟨kind, -, h⟩ := Outcome.bind_ok h
    split at h
    · obtain ⟨color, -, h⟩ := Outcome.bind_ok h
      exact .inr ⟨"background-color", by simp, color, (Except.ok.inj h).symm⟩
    · obtain ⟨layers, -, h⟩ := Outcome.bind_ok h
      exact Except.ok.inj h ▸ hbackground layers
  · obtain ⟨layers, -, h⟩ := Outcome.bind_ok h
    exact Except.ok.inj h ▸ hbackground layers

/-- The value of a background is that of the one declaration, if there is one. -/
theorem backgroundValue_iff {value : Option String} : backgroundValue paints box = .ok value ↔
    fills paints box = .ok [] ∧ value = none ∨
      ∃ property text, fills paints box = .ok [(property, text)] ∧ value = some text := by
  unfold backgroundValue
  constructor
  · intro h
    obtain ⟨decls, hdecls, h⟩ := Outcome.bind_ok h
    obtain rfl := Except.ok.inj h
    rcases fills_shape hdecls with rfl | ⟨property, -, text, rfl⟩
    · exact .inl ⟨hdecls, rfl⟩
    · exact .inr ⟨property, text, hdecls, rfl⟩
  · rintro (⟨hdecls, rfl⟩ | ⟨property, text, hdecls, rfl⟩)
    · rw [hdecls]
      rfl
    · rw [hdecls]
      rfl

theorem backgroundValue_error {f : Fault} :
    backgroundValue paints box = .error f ↔ fills paints box = .error f := by
  unfold backgroundValue
  cases fills paints box with
  | error e =>
    show (Except.error e : Outcome (Option String)) = .error f ↔ _
    rw [Except.error.injEq, Except.error.injEq]
  | ok decls => exact ⟨nofun, nofun⟩

/-- Several paints that show become the background of their layers. -/
theorem fills_eq {items : List Datum} (hrecords : ∀ d ∈ items, d.isRecord = true)
    (htwo : 2 ≤ (showing items).length) :
    fills (.list items) box = background <$> layers box (showing items).reverse := by
  have hitems : ((Datum.list items).orElse (.list [])).items = .ok items := by
    cases items <;> rfl
  have hshows : items.filterM shows = .ok (showing items) := by
    refine filterM_pure fun d hd => ?_
    rw [shows, Datum.get_eq (hrecords d hd)]
    rfl
  unfold fills
  rw [hitems, Outcome.ok_bind, hshows, Outcome.ok_bind]
  match hshown : showing items, htwo with
  | first :: second :: rest, _ =>
    cases layers box (first :: second :: rest).reverse <;> rfl

end Fills

/-- Of several paints that show, each one that has a layer is one layer of the background, from the top to
the bottom; only the bottom paint is a bare color, and only as the last layer. There is a background or
nothing if all paints can be drawn. As a value, fills are what their only declaration has, if any. -/
theorem fills_stacked :
    (∀ (items : List Datum) (box : Datum), (∀ d ∈ items, d.isRecord = true) → 2 ≤ (showing items).length →
      (∀ decls, fills (.list items) box = .ok decls ↔
        ∃ layers, Stacked box (showing items).reverse layers ∧
          decls = if layers.reduceOption = [] then []
            else [("background", ", ".intercalate (layers.reduceOption.map Layer.text))]) ∧
      ((∃ decls, fills (.list items) box = .ok decls) ↔
        ∀ paint ∈ showing items, ∃ layer, Makes box paint layer) ∧
      ∀ layers, Stacked box (showing items).reverse layers →
        (∀ color, .bare color ∉ layers.reduceOption.dropLast) ∧
        ∀ color, .bare color ∈ layers.reduceOption → layers.reduceOption.getLast? = some (.bare color) ∧
          ∃ bottom, (showing items).head? = some bottom ∧ Makes box bottom (some (.bare color))) ∧
    ∀ (paints box : Datum),
      (∀ value, backgroundValue paints box = .ok value ↔
        fills paints box = .ok [] ∧ value = none ∨
          ∃ property text, fills paints box = .ok [(property, text)] ∧ value = some text) ∧
      (∀ f, backgroundValue paints box = .error f ↔ fills paints box = .error f) := by
  refine ⟨fun items box hrecords htwo => ?_, fun paints box =>
    ⟨fun value => backgroundValue_iff, fun f => backgroundValue_error⟩⟩
  have hlayers : ∀ kept, layers box (showing items).reverse = .ok kept ↔
      ∃ layers, Stacked box (showing items).reverse layers ∧ kept = layers.reduceOption := fun kept =>
    layers_iff hrecords fun p hp => List.mem_reverse.1 hp
  have hfills : ∀ decls, fills (.list items) box = .ok decls ↔
      ∃ layers, Stacked box (showing items).reverse layers ∧
        decls = if layers.reduceOption = [] then []
          else [("background", ", ".intercalate (layers.reduceOption.map Layer.text))] := by
    have hbackground : ∀ kept : List Layer, background kept =
        if kept = [] then [] else [("background", ", ".intercalate (kept.map Layer.text))] := by
      rintro (_ | ⟨layer, rest⟩) <;> rfl
    intro decls
    rw [fills_eq hrecords htwo]
    constructor
    · intro h
      obtain ⟨kept, hkept, rfl⟩ := Outcome.map_ok_inv h
      obtain ⟨layers, hstacked, rfl⟩ := (hlayers kept).1 hkept
      exact ⟨layers, hstacked, hbackground _⟩
    · rintro ⟨layers, hstacked, rfl⟩
      rw [(hlayers _).2 ⟨layers, hstacked, rfl⟩, Outcome.map_ok, hbackground]
  refine ⟨hfills, ?_, fun layers hstacked => ?_⟩
  · have hreverse : (∀ p ∈ (showing items).reverse, ∃ layer, Makes box p layer) ↔
        ∀ p ∈ showing items, ∃ layer, Makes box p layer := by simp only [List.mem_reverse]
    rw [← hreverse, ← exists_stacked]
    exact ⟨fun ⟨decls, h⟩ => ((hfills decls).1 h).imp fun _ h => h.1,
      fun ⟨layers, h⟩ => ⟨_, (hfills _).2 ⟨layers, h, rfl⟩⟩⟩
  · have hlast := hstacked.bare_last
    rwa [List.getLast?_reverse] at hlast

/-- A paint of one color. -/
def solid (r g b : Int) : Datum :=
  .record [("type", .text "solid"), ("color", .record [("r", .int r), ("g", .int g), ("b", .int b)])]

/-- Red at the bottom, an image that is not to be found, and blue on top. -/
def redUnderBlue : List Datum := [solid 1 0 0, .record [("type", .text "image")], solid 0 0 1]

/-- The blue on top is a gradient, the image has no layer, and the red at the bottom is bare. -/
theorem fills_stacked_redUnderBlue :
    (∀ d ∈ redUnderBlue, d.isRecord = true) ∧ 2 ≤ (showing redUnderBlue).length ∧
    fills (.list redUnderBlue) .null =
      .ok [("background", "linear-gradient(rgba(0, 0, 255, 1), rgba(0, 0, 255, 1)), rgba(255, 0, 0, 1)")] ∧
    backgroundValue (.list redUnderBlue) .null =
      .ok (some "linear-gradient(rgba(0, 0, 255, 1), rgba(0, 0, 255, 1)), rgba(255, 0, 0, 1)") := by
  have hrecords : ∀ d ∈ redUnderBlue, d.isRecord = true := by simp [redUnderBlue, solid, Datum.isRecord]
  have htwo : 2 ≤ (showing redUnderBlue).length := by decide
  have hblue : solidColor (solid 0 0 1) = .ok "rgba(0, 0, 255, 1)" := by rfl
  have hred : solidColor (solid 1 0 0) = .ok "rgba(255, 0, 0, 1)" := by rfl
  have hreverse : (showing redUnderBlue).reverse =
      [solid 0 0 1, .record [("type", .text "image")], solid 1 0 0] := rfl
  have hdrawn : List.Forall₂ (Makes .null)
      [solid 0 0 1, .record [("type", .text "image")], solid 1 0 0]
      [some (.flat "rgba(0, 0, 255, 1)"), none, some (.bare "rgba(255, 0, 0, 1)")] :=
    .cons (.flat rfl hblue) (.cons (.blank rfl rfl) (.cons (.bare rfl hred) .nil))
  have hstacked : Stacked .null (showing redUnderBlue).reverse
      [some (.flat "rgba(0, 0, 255, 1)"), none, some (.bare "rgba(255, 0, 0, 1)")] :=
    ⟨hreverse ▸ hdrawn, by simp, by simp⟩
  obtain ⟨hstacks, hvalues⟩ := fills_stacked
  have hfills := ((hstacks redUnderBlue .null hrecords htwo).1 _).2 ⟨_, hstacked, rfl⟩
  have hvalue := ((hvalues (.list redUnderBlue) .null).1 _).2 (.inr ⟨_, _, hfills, rfl⟩)
  exact ⟨hrecords, htwo, hfills, hvalue⟩

end Maquette.Paint
