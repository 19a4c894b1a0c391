/-
Interpolation without rounding. In exact fractions a position parts the ordered stops of a gradient into
those before it and the others, and it lies between the last of the former and the first of the latter;
so its color is a mean of the colors of these two, with a weight from nothing to one. A stop that stands
at the position is the first of the latter, and then its color has the whole weight.

A gradient that is nested in another one is flattened into eleven stops, from the color that the outer one has
at its start to the color that the inner one has at its end; every stop between them stays in the hull of the
colors of both.
-/
import Mathlib.Tactic.Linarith
import Mathlib.Tactic.Positivity
import Mathlib.Tactic.FieldSimp
import Maquette.Paint.Gradient
import Maquette.Proofs.Datum

namespace Maquette.Paint

/-! ## Colors of any kind -/

/-- What interpolation needs to know of colors: the numbers that they are made of, the color of a stop,
the channels of a color by their names, and the color that channels make. -/
structure Shading (m : Type → Type) (α κ γ : Type) extends Arithmetic m α where
  count : ℕ → α
  color : κ → m γ
  channel : γ → String → m α
  ofChannels : List (String × α) → γ

namespace Shading

variable {m : Type → Type} [Monad m] {α κ γ : Type} (sh : Shading m α κ γ)

/-- A color between two others. -/
def mixed (left right : m γ) (share : α) : m γ := do
  return sh.ofChannels (← channels.mapM fun (key, _) => do
    return (key, ← mix sh.toArithmetic (do sh.channel (← left) key) (do sh.channel (← right) key) share))

/-- The color of a gradient at a position; without stops it is transparent. -/
def colorAt (stops : List (Stop α κ)) (t : α) : m γ := do
  match ← spot? sh.toArithmetic stops t with
  | none => return sh.ofChannels (channels.map fun (key, _) => (key, sh.zero))
  | some (.exactly stop) => sh.color stop
  | some (.between left right share) => sh.mixed (sh.color left) (sh.color right) share

/-- The stop of a flattened gradient after so many steps. -/
def blended (outer inner : List (Stop α κ)) (step : ℕ) : m (Stop α γ) := do
  let t ← sh.div (sh.count step) (sh.count nestedSteps)
  let around ← sh.colorAt outer t
  let within ← sh.colorAt inner t
  return ⟨t, ← sh.mixed (pure around) (pure within) t⟩

/-- A gradient that is nested in another one, as a list of stops. -/
def flattened (outer inner : List (Stop α κ)) : m (List (Stop α γ)) :=
  (List.range (nestedSteps + 1)).mapM (sh.blended outer inner)

end Shading

/-! ## Loosely typed colors -/

/-- The colors that gradients are made with. -/
def loose : Shading Outcome Datum Datum Datum where
  toArithmetic := looseArithmetic
  count n := .int n
  color stop := stop.need "color"
  channel color key := color.fieldOr key ((channels.lookup key).getD .null)
  ofChannels rows := .record rows

theorem mixed_loose (left right : Outcome Datum) (share : Datum) :
    loose.mixed left right share = mixColors left right share := rfl

theorem colorAt_loose {stops : Datum} {items : List Datum} {read : List (Stop Datum Datum)}
    (hitems : (stops.orElse (.list [])).items = .ok items) (hread : stopsOf items = .ok read) (t : Datum) :
    colorAt stops t = loose.colorAt read t := by
  unfold colorAt Shading.colorAt
  rw [hitems, Outcome.ok_bind, hread, Outcome.ok_bind]
  show (spot? looseArithmetic read t >>= _) = (spot? looseArithmetic read t >>= _)
  cases spot? looseArithmetic read t with
  | error f => rfl
  | ok spot =>
    cases spot with
    | none => rfl
    | some spot => cases spot <;> rfl

/-! ## Exact colors -/

/-- A color with all four channels, in exact fractions. -/
structure Rgba where
  r : ℚ
  g : ℚ
  b : ℚ
  a : ℚ
  deriving DecidableEq

/-- A channel by its name. -/
def Rgba.channel (c : Rgba) : String → ℚ
  | "r" => c.r
  | "g" => c.g
  | "b" => c.b
  | _ => c.a

/-- The color of channels that are listed by their names. -/
def Rgba.ofChannels (rows : List (String × ℚ)) : Rgba :=
  let channel (key : String) : ℚ := (rows.lookup key).getD 0
  ⟨channel "r", channel "g", channel "b", channel "a"⟩

/-- Every channel by the share of the second color. -/
def Rgba.mix (c d : Rgba) (share : ℚ) : Rgba :=
  let channel (x y : ℚ) : ℚ := x * (1 - share) + y * share
  ⟨channel c.r d.r, channel c.g d.g, channel c.b d.b, channel c.a d.a⟩

/-- Exact fractions, which can be divided by anything but zero. -/
def exact : Shading Option ℚ Rgba Rgba where
  zero := 0
  one := 1
  add x y := some (x + y)
  sub x y := some (x - y)
  mul x y := some (x * y)
  div x y := if y = 0 then none else some (x / y)
  le x y := decide (x ≤ y)
  count n := n
  color := some
  channel c key := some (c.channel key)
  ofChannels := Rgba.ofChannels

theorem mixed_exact (c d : Rgba) (share : ℚ) :
    exact.mixed (some c) (some d) share = some (c.mix d share) := rfl

section Exact

variable {stops : List (Stop ℚ Rgba)} {t : ℚ}

/-! ## Ordered stops -/

theorem exact_le_trans (a b c : Stop ℚ Rgba) (hab : exact.le a.position b.position = true)
    (hbc : exact.le b.position c.position = true) : exact.le a.position c.position = true :=
  decide_eq_true ((of_decide_eq_true hab).trans (of_decide_eq_true hbc))

theorem exact_le_total (a b : Stop ℚ Rgba) :
    (exact.le a.position b.position || exact.le b.position a.position) = true := by
  simpa [exact] using le_total a.position b.position

theorem mem_inOrder {s : Stop ℚ Rgba} : s ∈ inOrder exact.toArithmetic stops ↔ s ∈ stops :=
  List.mem_mergeSort

theorem inOrder_ascending (stops : List (Stop ℚ Rgba)) :
    (inOrder exact.toArithmetic stops).Pairwise fun a b => a.position ≤ b.position :=
  (List.pairwise_mergeSort exact_le_trans exact_le_total stops).imp of_decide_eq_true

/-- Stops at one position keep their order. -/
theorem inOrder_filter (stops : List (Stop ℚ Rgba)) (p : ℚ) :
    (inOrder exact.toArithmetic stops).filter (·.position = p) = stops.filter (·.position = p) := by
  refine filter_mergeSort exact_le_trans exact_le_total (fun a b ha hb => ?_) stops
  exact decide_eq_true ((of_decide_eq_true ha).trans (of_decide_eq_true hb).symm).le

/-- The stops before a position, in order. -/
def behind (stops : List (Stop ℚ Rgba)) (t : ℚ) : List (Stop ℚ Rgba) :=
  (inOrder exact.toArithmetic stops).filter (·.position < t)

/-- The stops at a position and after it, in order. -/
def ahead (stops : List (Stop ℚ Rgba)) (t : ℚ) : List (Stop ℚ Rgba) :=
  (inOrder exact.toArithmetic stops).filter (t ≤ ·.position)

theorem mem_behind {s : Stop ℚ Rgba} : s ∈ behind stops t ↔ s ∈ stops ∧ s.position < t := by
  simp [behind, mem_inOrder]

theorem mem_ahead {s : Stop ℚ Rgba} : s ∈ ahead stops t ↔ s ∈ stops ∧ t ≤ s.position := by
  simp [ahead, mem_inOrder]

theorem ahead_ascending : (ahead stops t).Pairwise fun a b => a.position ≤ b.position :=
  (inOrder_ascending stops).filter _

theorem behind_ascending : (behind stops t).Pairwise fun a b => a.position ≤ b.position :=
  (inOrder_ascending stops).filter _

theorem parted_of_ascending : ∀ {l : List (Stop ℚ Rgba)}, (l.Pairwise fun a b => a.position ≤ b.position) →
    l.filter (·.position < t) ++ l.filter (t ≤ ·.position) = l
  | [], _ => rfl
  | s :: l, h => by
    obtain ⟨hs, hl⟩ := List.pairwise_cons.1 h
    by_cases ht : s.position < t
    · rw [List.filter_cons_of_pos (by simpa using ht), List.filter_cons_of_neg (by simpa using ht),
        List.cons_append, parted_of_ascending hl]
    · have hall : ∀ s' ∈ s :: l, t ≤ s'.position := by
        rintro s' (_ | ⟨_, hs'⟩)
        · exact not_lt.1 ht
        · exact (not_lt.1 ht).trans (hs s' hs')
      rw [List.filter_eq_nil_iff.2 fun s' hs' => by simpa using hall s' hs',
        List.filter_eq_self.2 fun s' hs' => by simpa using hall s' hs', List.nil_append]

/-- A position parts the ordered stops. -/
theorem behind_append_ahead (stops : List (Stop ℚ Rgba)) (t : ℚ) :
    behind stops t ++ ahead stops t = inOrder exact.toArithmetic stops :=
  parted_of_ascending (inOrder_ascending stops)

/-- The next stop is the first one of the gradient that stands where it does. -/
theorem find?_of_head?_ahead {right : Stop ℚ Rgba} (h : (ahead stops t).head? = some right) :
    stops.find? (·.position = right.position) = some right := by
  obtain ⟨rest, hrest⟩ := List.head?_eq_some_iff.1 h
  have hright : t ≤ right.position := (mem_ahead.1 (List.mem_of_head? h)).2
  have hbehind : (behind stops t).filter (·.position = right.position) = [] :=
    List.filter_eq_nil_iff.2 fun s hs => by
      simpa using ((mem_behind.1 hs).2.trans_le hright).ne
  rw [← List.head?_filter, ← inOrder_filter, ← behind_append_ahead stops t, List.filter_append, hbehind,
    List.nil_append, hrest, List.filter_cons_of_pos (by simp), List.head?_cons]

/-- The stop that was passed last is the last one of the gradient that stands where it does. -/
theorem getLast?_filter_of_behind {left : Stop ℚ Rgba} (h : (behind stops t).getLast? = some left) :
    (stops.filter (·.position = left.position)).getLast? = some left := by
  obtain ⟨before, hbefore⟩ := List.getLast?_eq_some_iff.1 h
  have hleft : left.position < t := (mem_behind.1 (List.mem_of_getLast? h)).2
  have hahead : (ahead stops t).filter (·.position = left.position) = [] :=
    List.filter_eq_nil_iff.2 fun s hs => by
      simpa using (hleft.trans_le (mem_ahead.1 hs).2).ne'
  rw [← inOrder_filter, ← behind_append_ahead stops t, List.filter_append, hahead, List.append_nil,
    hbefore, List.filter_append, List.filter_cons_of_pos (by simp), List.filter_nil, List.getLast?_concat]

/-! ## Where a position lies -/

/-- A position with the stop that was passed last and the one that comes next. -/
def place (t : ℚ) : Option (Stop ℚ Rgba) → Option (Stop ℚ Rgba) → Option (Spot ℚ Rgba)
  | none, none => none
  | none, some right => some (.exactly right.color)
  | some left, none => some (.exactly left.color)
  | some left, some right =>
    some (.between left.color right.color ((t - left.position) / (right.position - left.position)))

/-- The scan passes every stop before the position. -/
theorem spotFrom_exact {next : List (Stop ℚ Rgba)} (hnext : ∀ s ∈ next, t ≤ s.position) :
    ∀ {left : Stop ℚ Rgba} {passed : List (Stop ℚ Rgba)}, (∀ s ∈ left :: passed, s.position < t) →
      some <$> spotFrom exact.toArithmetic t left (passed ++ next) =
        some (place t (left :: passed).getLast? next.head?)
  | left, [], hleft => by
    have hl : left.position < t := hleft left List.mem_cons_self
    cases next with
    | nil => rfl
    | cons right rest =>
      have hr : t ≤ right.position := hnext right List.mem_cons_self
      have hapart : ¬right.position - left.position = 0 := by linarith
      simp [spotFrom, exact, place, hl.le, hr, (hl.trans_le hr).not_ge, hapart]
  | left, s :: passed, hpassed => by
    have hs : s.position < t := hpassed s (List.mem_cons_of_mem _ List.mem_cons_self)
    have hskip : (exact.le left.position t && exact.le t s.position) = false := by
      simp [exact, hs.not_ge]
    rw [List.cons_append, spotFrom, hskip, List.getLast?_cons_cons]
    exact spotFrom_exact hnext fun s' hs' => hpassed s' (List.mem_cons_of_mem _ hs')

theorem spot_exact (stops : List (Stop ℚ Rgba)) (t : ℚ) :
    spot? exact.toArithmetic stops t = some (place t (behind stops t).getLast? (ahead stops t).head?) := by
  have hnext : ∀ s ∈ ahead stops t, t ≤ s.position := fun s hs => (mem_ahead.1 hs).2
  have hpassed : ∀ s ∈ behind stops t, s.position < t := fun s hs => (mem_behind.1 hs).2
  unfold spot?
  rw [← behind_append_ahead stops t]
  cases hb : behind stops t with
  | nil =>
    cases ha : ahead stops t with
    | nil => rfl
    | cons right rest =>
      have hr : t ≤ right.position := hnext right (ha ▸ List.mem_cons_self)
      simp [exact, place, hr]
  | cons left passed =>
    rw [hb] at hpassed
    have hl : left.position < t := hpassed left List.mem_cons_self
    have hskip : exact.le t left.position = false := by simp [exact, hl.not_ge]
    simp only [List.cons_append, hskip, Bool.false_eq_true, if_false]
    exact spotFrom_exact hnext hpassed

/-- The color at a place: that of a stop, or one between two. -/
theorem colorAt_exact (stops : List (Stop ℚ Rgba)) (t : ℚ) :
    exact.colorAt stops t = some (match (behind stops t).getLast?, (ahead stops t).head? with
      | none, none => ⟨0, 0, 0, 0⟩
      | none, some right => right.color
      | some left, none => left.color
      | some left, some right =>
        left.color.mix right.color ((t - left.position) / (right.position - left.position))) := by
  unfold Shading.colorAt
  rw [spot_exact]
  cases (behind stops t).getLast? <;> cases (ahead stops t).head? <;> rfl

/-! ## Colors at stops and beyond them -/

/-- Before every stop there is the color of the first one. -/
theorem colorAt_before (hstops : stops ≠ []) (ht : ∀ s ∈ stops, t ≤ s.position) :
    ∃ first, stops.find? (·.position = first.position) = some first ∧
      (∀ s ∈ stops, first.position ≤ s.position) ∧ exact.colorAt stops t = some first.color := by
  have hb : behind stops t = [] := List.eq_nil_iff_forall_not_mem.2 fun s hs =>
    (mem_behind.1 hs).2.not_ge (ht s (mem_behind.1 hs).1)
  cases ha : ahead stops t with
  | nil =>
    obtain ⟨s, hs⟩ := List.exists_mem_of_ne_nil stops hstops
    exact absurd (mem_ahead.2 ⟨hs, ht s hs⟩) (ha ▸ List.not_mem_nil)
  | cons first rest =>
    have hhead : (ahead stops t).head? = some first := by rw [ha, List.head?_cons]
    refine ⟨first, find?_of_head?_ahead hhead, fun s hs => ?_, ?_⟩
    · have hmem : s ∈ first :: rest := ha ▸ mem_ahead.2 ⟨hs, ht s hs⟩
      rcases List.mem_cons.1 hmem with rfl | hrest
      · exact le_rfl
      · exact (List.pairwise_cons.1 (ha ▸ ahead_ascending)).1 s hrest
    · rw [colorAt_exact, hb, hhead]
      rfl

/-- After every stop there is the color of the last one. -/
theorem colorAt_after (hstops : stops ≠ []) (ht : ∀ s ∈ stops, s.position < t) :
    ∃ last, (stops.filter (·.position = last.position)).getLast? = some last ∧
      (∀ s ∈ stops, s.position ≤ last.position) ∧ exact.colorAt stops t = some last.color := by
  have ha : ahead stops t = [] := List.eq_nil_iff_forall_not_mem.2 fun s hs =>
    (mem_ahead.1 hs).2.not_gt (ht s (mem_ahead.1 hs).1)
  rcases List.eq_nil_or_concat' (behind stops t) with hb | ⟨passed, last, hb⟩
  · obtain ⟨s, hs⟩ := List.exists_mem_of_ne_nil stops hstops
    exact absurd (mem_behind.2 ⟨hs, ht s hs⟩) (hb ▸ List.not_mem_nil)
  · have hlast : (behind stops t).getLast? = some last := by rw [hb, List.getLast?_concat]
    refine ⟨last, getLast?_filter_of_behind hlast, fun s hs => ?_, ?_⟩
    · have hmem : s ∈ passed ++ [last] := hb ▸ mem_behind.2 ⟨hs, ht s hs⟩
      rcases List.mem_append.1 hmem with hpassed | hs
      · exact (List.pairwise_append.1 (hb ▸ behind_ascending)).2.2 s hpassed last List.mem_cons_self
      · exact (congrArg Stop.position (List.mem_singleton.1 hs)).le
    · rw [colorAt_exact, ha, hlast]
      rfl

theorem Rgba.mix_one (c d : Rgba) : c.mix d 1 = d := by simp [Rgba.mix]

/-- Where a stop stands there is its color, that of the first one if there are several. -/
theorem colorAt_stop {s : Stop ℚ Rgba} (hs : stops.find? (·.position = t) = some s) :
    exact.colorAt stops t = some s.color := by
  have hposition : s.position = t := by simpa using List.find?_some hs
  have hmem : s ∈ ahead stops t := mem_ahead.2 ⟨List.mem_of_find?_eq_some hs, hposition.ge⟩
  cases ha : ahead stops t with
  | nil => exact absurd (ha ▸ hmem) List.not_mem_nil
  | cons right rest =>
    have hhead : (ahead stops t).head? = some right := by rw [ha, List.head?_cons]
    have hle : right.position ≤ t := by
      rcases List.mem_cons.1 (ha ▸ hmem) with rfl | hrest
      · exact hposition.le
      · exact hposition ▸ (List.pairwise_cons.1 (ha ▸ ahead_ascending)).1 s hrest
    have hright : right.position = t := hle.antisymm (mem_ahead.1 (List.mem_of_head? hhead)).2
    obtain rfl : right = s := by
      have hfirst := find?_of_head?_ahead hhead
      rw [hright, hs] at hfirst
      exact (Option.some.inj hfirst).symm
    rw [colorAt_exact, hhead]
    cases hb : (behind stops t).getLast? with
    | none => rfl
    | some left =>
      have hl : left.position < t := (mem_behind.1 (List.mem_of_getLast? hb)).2
      show some (left.color.mix right.color _) = _
      rw [hright, div_self (by linarith), Rgba.mix_one]

/-! ## The hull of colors -/

/-- A color has every channel between those of other colors. -/
def InHull (colors : List Rgba) (c : Rgba) : Prop :=
  ∀ key, (∃ low ∈ colors, low.channel key ≤ c.channel key) ∧ ∃ high ∈ colors, c.channel key ≤ high.channel key

theorem InHull.of_mem {colors : List Rgba} {c : Rgba} (h : c ∈ colors) : InHull colors c :=
  fun _ => ⟨⟨c, h, le_rfl⟩, c, h, le_rfl⟩

theorem InHull.mono {colors more : List Rgba} {c : Rgba} (h : InHull colors c) (hsub : colors ⊆ more) :
    InHull more c := fun key =>
  have ⟨⟨low, hlow, hle⟩, high, hhigh, hge⟩ := h key
  ⟨⟨low, hsub hlow, hle⟩, high, hsub hhigh, hge⟩

theorem Rgba.channel_mix (c d : Rgba) (share : ℚ) (key : String) :
    (c.mix d share).channel key = c.channel key * (1 - share) + d.channel key * share := by
  unfold Rgba.channel
  split <;> rfl

/-- A mean of two colors from a hull is in it. -/
theorem InHull.mix {colors : List Rgba} {c d : Rgba} {share : ℚ} (hc : InHull colors c) (hd : InHull colors d)
    (hpos : 0 ≤ share) (hone : share ≤ 1) : InHull colors (c.mix d share) := by
  intro key
  rw [Rgba.channel_mix]
  obtain ⟨⟨lowC, hlowC, hleC⟩, highC, hhighC, hgeC⟩ := hc key
  obtain ⟨⟨lowD, hlowD, hleD⟩, highD, hhighD, hgeD⟩ := hd key
  rcases le_total (c.channel key) (d.channel key) with hle | hle
  · exact ⟨⟨lowC, hlowC, by nlinarith⟩, highD, hhighD, by nlinarith⟩
  · exact ⟨⟨lowD, hlowD, by nlinarith⟩, highC, hhighC, by nlinarith⟩

theorem colorAt_inHull (hstops : stops ≠ []) (t : ℚ) :
    ∃ c, exact.colorAt stops t = some c ∧ InHull (stops.map Stop.color) c := by
  refine ⟨_, colorAt_exact stops t, ?_⟩
  have hmem {s : Stop ℚ Rgba} (hs : s ∈ stops) : InHull (stops.map Stop.color) s.color :=
    .of_mem (List.mem_map_of_mem hs)
  cases hb : (behind stops t).getLast? with
  | none =>
    cases ha : (ahead stops t).head? with
    | none =>
      -- A stop is on one of the two sides.
      have hempty : inOrder exact.toArithmetic stops = [] := by
        rw [← behind_append_ahead stops t, List.getLast?_eq_none_iff.1 hb, List.head?_eq_none_iff.1 ha,
          List.nil_append]
      obtain ⟨s, hs⟩ := List.exists_mem_of_ne_nil stops hstops
      exact absurd (mem_inOrder.2 hs) (hempty ▸ List.not_mem_nil)
    | some right => exact hmem (mem_ahead.1 (List.mem_of_head? ha)).1
  | some left =>
    obtain ⟨hleft, hl⟩ := mem_behind.1 (List.mem_of_getLast? hb)
    cases ha : (ahead stops t).head? with
    | none => exact hmem hleft
    | some right =>
      obtain ⟨hright, hr⟩ := mem_ahead.1 (List.mem_of_head? ha)
      have hwhole : 0 < right.position - left.position := by linarith
      exact (hmem hleft).mix (hmem hright) (div_nonneg (by linarith) hwhole.le)
        ((div_le_one hwhole).2 (by linarith))

end Exact

/-! ## What is written -/

theorem mapM_bind_pure {m : Type → Type} [Monad m] [LawfulMonad m] {α β γ : Type} (f : α → m β) (g : β → γ) :
    ∀ xs : List α, xs.mapM (fun x => f x >>= fun y => pure (g y)) = xs.mapM f >>= fun ys => pure (ys.map g)
  | [] => by simp
  | x :: xs => by
    simp only [List.mapM_cons, mapM_bind_pure f g xs, bind_assoc, pure_bind, List.map_cons]

/-- A nested gradient is written with the stops of the flattened one. -/
theorem nestedGradient_loose {paint parent box outer inner : Datum} {outerItems innerItems : List Datum}
    {outerStops innerStops : List (Stop Datum Datum)} (hparent : paint.get "parentGradient" = .ok parent)
    (hkind : parent.at? "type" = some (.text "gradient"))
    (houter : parent.get "gradientStops" = .ok outer) (hinner : paint.get "gradientStops" = .ok inner)
    (hout : (outer.orElse (.list [])).items = .ok outerItems) (hin : (inner.orElse (.list [])).items = .ok innerItems)
    (hreadOut : stopsOf outerItems = .ok outerStops) (hreadIn : stopsOf innerItems = .ok innerStops) :
    nestedGradient paint box = (do
      let stops ← loose.flattened outerStops innerStops
      gradientOf paint (stops.map fun s => .record [("position", s.position), ("color", s.color)]) box) := by
  have hstep (step : ℕ) : blendedStop outer inner step = (do
      let s ← loose.blended outerStops innerStops step
      return .record [("position", s.position), ("color", s.color)]) := by
    unfold blendedStop Shading.blended
    rw [bind_assoc]
    refine bind_congr fun t => ?_
    rw [colorAt_loose hout hreadOut, colorAt_loose hin hreadIn]
    simp only [bind_assoc, pure_bind]
    rfl
  obtain ⟨fields, rfl⟩ : ∃ fields, parent = .record fields := by
    cases parent <;> first | exact ⟨_, rfl⟩ | cases hkind
  have htruthy : (Datum.record fields).isTruthy = true := by
    cases fields with
    | nil => cases hkind
    | cons => rfl
  have htype : (Datum.record fields).get "type" = .ok (.text "gradient") := by
    rw [Datum.get_eq rfl, hkind]
    rfl
  unfold nestedGradient
  rw [hparent, Outcome.ok_bind, htruthy, htype]
  simp only [Bool.not_true, Bool.false_eq_true, if_false, Outcome.ok_bind, Datum.isThe, beq_self_eq_true]
  rw [houter, hinner, Outcome.ok_bind, Outcome.ok_bind, funext hstep, mapM_bind_pure, bind_assoc]
  simp only [pure_bind]
  rfl

/-! ## The stops -/

theorem mapM_some {α β : Type} {f : α → Option β} {g : α → β} :
    ∀ {xs : List α}, (∀ x ∈ xs, f x = some (g x)) → xs.mapM f = some (xs.map g)
  | [], _ => rfl
  | x :: xs, h => by
    rw [List.mapM_cons, h x List.mem_cons_self, mapM_some fun y hy => h y (List.mem_cons_of_mem _ hy)]
    rfl

variable {outer inner : List (Stop ℚ Rgba)}

theorem Rgba.mix_zero (c d : Rgba) : c.mix d 0 = c := by simp [Rgba.mix]

theorem blended_exact {step : ℕ} {around within : Rgba}
    (haround : exact.colorAt outer (step / 10) = some around)
    (hwithin : exact.colorAt inner (step / 10) = some within) :
    exact.blended outer inner step = some ⟨step / 10, around.mix within (step / 10)⟩ := by
  have hdiv : exact.div (exact.count step) (exact.count nestedSteps) = some (step / 10 : ℚ) := by
    simp [exact, nestedSteps]
  unfold Shading.blended
  rw [hdiv, Option.bind_eq_bind, Option.bind_some, haround, Option.bind_eq_bind, Option.bind_some, hwithin]
  rfl

/-- A flattened gradient goes over from the outer to the inner one, in the hull of both. -/
theorem flattened_exact (houter : outer ≠ []) (hinner : inner ≠ []) :
    ∃ blend : ℕ → Rgba,
      exact.flattened outer inner = some ((List.range 11).map fun i => ⟨i / 10, blend i⟩) ∧
      (∀ i ≤ 10, InHull ((outer ++ inner).map Stop.color) (blend i)) ∧
      exact.colorAt outer 0 = some (blend 0) ∧ exact.colorAt inner 1 = some (blend 10) := by
  choose around haround haroundHull using fun i : ℕ => colorAt_inHull houter (i / 10 : ℚ)
  choose within hwithin hwithinHull using fun i : ℕ => colorAt_inHull hinner (i / 10 : ℚ)
  refine ⟨fun i => (around i).mix (within i) (i / 10), ?_, fun i hi => ?_, ?_, ?_⟩
  · exact mapM_some fun i _ => blended_exact (haround i) (hwithin i)
  · have hten : (i : ℚ) ≤ 10 := by exact_mod_cast hi
    rw [List.map_append]
    exact ((haroundHull i).mono (List.subset_append_left _ _)).mix
      ((hwithinHull i).mono (List.subset_append_right _ _)) (by positivity) (by linarith)
  · simpa [Rgba.mix_zero] using haround 0
  · simpa [Rgba.mix_one] using hwithin 10

/-! ## Interpolation -/

/-- Gradients interpolate. The program colors a position, and flattens a nested gradient, by a computation
that is written for any kind of number. With exact fractions every position has a color in the hull of the
stops: beyond the stops it is that of the outermost one, and at a stop it is that of the first one there. A
nested gradient has eleven stops, a tenth apart, that go over from the outer to the inner one. -/
theorem interpolates :
    (∀ {stops : Datum} {items read}, (stops.orElse (.list [])).items = .ok items → stopsOf items = .ok read →
      ∀ t, colorAt stops t = loose.colorAt read t) ∧
    (∀ {paint parent box outer inner : Datum} {outerItems innerItems outerStops innerStops},
      paint.get "parentGradient" = .ok parent → parent.at? "type" = some (.text "gradient") →
      parent.get "gradientStops" = .ok outer → paint.get "gradientStops" = .ok inner →
      (outer.orElse (.list [])).items = .ok outerItems → (inner.orElse (.list [])).items = .ok innerItems →
      stopsOf outerItems = .ok outerStops → stopsOf innerItems = .ok innerStops →
      nestedGradient paint box = (do
        let stops ← loose.flattened outerStops innerStops
        gradientOf paint (stops.map fun s => .record [("position", s.position), ("color", s.color)]) box)) ∧
    (∀ {stops : List (Stop ℚ Rgba)}, stops ≠ [] → ∀ t, ∃ c, exact.colorAt stops t = some c ∧
      InHull (stops.map Stop.color) c ∧
      ((∀ s ∈ stops, t < s.position) → ∃ first, stops.find? (·.position = first.position) = some first ∧
        (∀ s ∈ stops, first.position ≤ s.position) ∧ c = first.color) ∧
      ((∀ s ∈ stops, s.position < t) → ∃ last,
        (stops.filter (·.position = last.position)).getLast? = some last ∧
        (∀ s ∈ stops, s.position ≤ last.position) ∧ c = last.color) ∧
      ∀ s, stops.find? (·.position = t) = some s → c = s.color) ∧
    ∀ {outer inner : List (Stop ℚ Rgba)}, outer ≠ [] → inner ≠ [] → ∃ blend : ℕ → Rgba,
      exact.flattened outer inner = some ((List.range 11).map fun i => ⟨i / 10, blend i⟩) ∧
      (∀ i ≤ 10, InHull ((outer ++ inner).map Stop.color) (blend i)) ∧
      exact.colorAt outer 0 = some (blend 0) ∧ exact.colorAt inner 1 = some (blend 10) := by
  refine ⟨colorAt_loose, nestedGradient_loose, fun {stops} hstops t => ?_, flattened_exact⟩
  obtain ⟨c, hc, hhull⟩ := colorAt_inHull hstops t
  refine ⟨c, hc, hhull, fun ht => ?_, fun ht => ?_, fun s hs => ?_⟩
  · obtain ⟨first, hfirst, hleast, hcolor⟩ := colorAt_before hstops fun s hs => (ht s hs).le
    exact ⟨first, hfirst, hleast, Option.some.inj (hc.symm.trans hcolor)⟩
  · obtain ⟨last, hlast, hgreatest, hcolor⟩ := colorAt_after hstops ht
    exact ⟨last, hlast, hgreatest, Option.some.inj (hc.symm.trans hcolor)⟩
  · exact Option.some.inj (hc.symm.trans (colorAt_stop hs))

/-- Two stops at the end of a gradient, white before red, and a black one at its start. -/
def twoEnds : List (Stop ℚ Rgba) := [⟨1, ⟨1, 1, 1, 1⟩⟩, ⟨0, ⟨0, 0, 0, 1⟩⟩, ⟨1, ⟨1, 0, 0, 1⟩⟩]

/-- A black gradient with a transparent one around it. -/
def shade : Datum :=
  .record [("gradientStops", .list [.record [("color", .record [("r", .int 0)])]]),
    ("parentGradient", .record [("type", .text "gradient"),
      ("gradientStops", .list [.record [("position", .int 1), ("color", .record [("a", .int 0)])]])])]

theorem interpolates_twoEnds :
    exact.colorAt twoEnds 1 = some ⟨1, 1, 1, 1⟩ ∧
    (∃ c, exact.colorAt twoEnds (1 / 2) = some c ∧ InHull (twoEnds.map Stop.color) c) ∧
    (∃ last : Stop ℚ Rgba, (∀ s ∈ twoEnds, s.position ≤ last.position) ∧ exact.colorAt twoEnds 2 = some last.color) ∧
    (∃ first : Stop ℚ Rgba,
      (∀ s ∈ twoEnds, first.position ≤ s.position) ∧ exact.colorAt twoEnds (-1) = some first.color) ∧
    (∃ blend : ℕ → Rgba, exact.flattened twoEnds twoEnds = some ((List.range 11).map fun i => ⟨i / 10, blend i⟩) ∧
      blend 0 = ⟨0, 0, 0, 1⟩ ∧ blend 10 = ⟨1, 1, 1, 1⟩) ∧
    nestedGradient shade .null = (do
      let stops ← loose.flattened
        [⟨.int 1, .record [("position", .int 1), ("color", .record [("a", .int 0)])]⟩]
        [⟨.int 0, .record [("color", .record [("r", .int 0)])]⟩]
      gradientOf shade (stops.map fun s => .record [("position", s.position), ("color", s.color)]) .null) ∧
    colorAt (.list [.record [("color", .record [("r", .int 0)])]]) (.int 1) =
      loose.colorAt [⟨.int 0, .record [("color", .record [("r", .int 0)])]⟩] (.int 1) := by
  have hne : twoEnds ≠ [] := List.cons_ne_nil _ _
  have hend : exact.colorAt twoEnds 1 = some ⟨1, 1, 1, 1⟩ := by
    obtain ⟨c, hc, -, -, -, hstop⟩ := interpolates.2.2.1 hne 1
    rw [hc, hstop ⟨1, ⟨1, 1, 1, 1⟩⟩ (by simp [twoEnds])]
  have hstart : exact.colorAt twoEnds 0 = some ⟨0, 0, 0, 1⟩ := by
    obtain ⟨c, hc, -, -, -, hstop⟩ := interpolates.2.2.1 hne 0
    rw [hc, hstop ⟨0, ⟨0, 0, 0, 1⟩⟩ (by simp [twoEnds])]
  refine ⟨hend, ?_, ?_, ?_, ?_, ?_, ?_⟩
  · obtain ⟨c, hc, hhull, -⟩ := interpolates.2.2.1 hne (1 / 2)
    exact ⟨c, hc, hhull⟩
  · obtain ⟨c, hc, -, -, hafter, -⟩ := interpolates.2.2.1 hne 2
    obtain ⟨last, -, hgreatest, rfl⟩ := hafter (by simp [twoEnds])
    exact ⟨last, hgreatest, hc⟩
  · obtain ⟨c, hc, -, hbefore, -, -⟩ := interpolates.2.2.1 hne (-1)
    obtain ⟨first, -, hleast, rfl⟩ := hbefore (by simp [twoEnds])
    exact ⟨first, hleast, hc⟩
  · obtain ⟨blend, hblend, -, hzero, hten⟩ := interpolates.2.2.2 hne hne
    exact ⟨blend, hblend, Option.some.inj (hzero.symm.trans hstart), Option.some.inj (hten.symm.trans hend)⟩
  · exact interpolates.2.1 rfl rfl rfl rfl rfl rfl rfl rfl
  · exact interpolates.1 rfl rfl _

end Maquette.Paint
