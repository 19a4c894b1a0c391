/-
Colors read back from their spellings. A record of finite channels, with an alpha value between zero and one or
none, is read from either of its spellings with the channels that the record itself is read with, and with its
alpha value rounded to three places. A channel too large for 255 times its double can neither be read nor be
spelled.

So it makes no difference to the similarity with a token which of them is compared. The squares of doubles are
taken by a function of doubles that may be any one, as long as the squares of small integers are exact; then
the sum of such squares is exact as well, and a color of integers is as far from every other color as its copy
in doubles.
-/
import Maquette.Proofs.Color.Spelling
import Maquette.Proofs.Token.Reckoned

namespace Maquette.Color

open Decimal

/-! ## Squares of doubles -/

section Squares

variable (power : Float → Float)

/-- The square of a number, the one of a double as it is given. -/
def squareBy : Number → Outcome Number
  | .int n => .ok (.int (n * n))
  | .float x =>
    let size := x.abs
    let y := power size
    if isFinite size && !isFinite y then .error .tooLarge else .ok (.float y)

/-- The distance of two lists of channels, with squares as they are given. -/
def distanceBy (a b : List Datum) : Outcome Float := do
  let sum ← ((a.take 3).zip (b.take 3)).foldlM (fun sum (x, y) => do
    sum.add (← squareBy power (← (← x.minus y).number))) (0 : Number)
  return (← sum.toFloat).sqrt

/-- Doubles with squares as they are given. -/
def doublesBy : Token.Reckoning Float :=
  { Token.doubles with distance := fun x y => distanceBy power x.channels y.channels }

/-- Whether the squares of the whole numbers up to 255 are exact. -/
def SquaresWhole : Prop := ∀ n ≤ 255, power (ofRatio false n 1) = ofRatio false (n * n) 1

end Squares

/-- With the squares of doubles that there are, these are the similarities that matches are made with. -/
theorem colorsIn_doublesBy (a b : Datum) :
    Token.colorsIn (doublesBy fun x => Float.pow x 2.0) a b = Token.colorSimilarity a b := rfl

/-- The product of a double with itself is such a square. -/
theorem squaresWhole_mul : SquaresWhole fun x => x * x := by
  intro n hn
  have hsquare : n * n ≤ 255 * 255 := Nat.mul_le_mul hn hn
  rcases Nat.eq_zero_or_pos n with rfl | hpos
  · rfl
  · have hvalue : HasValue (ofRatio false (n * n) 1) ((n : ℚ) * n) := by
      exact_mod_cast hasValue_whole (show n * n < 2 ^ 53 by omega)
    have hwhole := hasValue_whole (show n < 2 ^ 53 by omega)
    exact (hwhole.mul hwhole hvalue).eq hvalue (by positivity)

/-! ## Colors that are read -/

/-- A color with integers from 0 to 255 for channels, or with doubles. -/
def IsScaled (c : Rgb) : Prop :=
  (∃ r g b : ℕ, (r ≤ 255 ∧ g ≤ 255 ∧ b ≤ 255) ∧ c.r = .int r ∧ c.g = .int g ∧ c.b = .int b) ∨
    ∃ x y z, c.r = .float x ∧ c.g = .float y ∧ c.b = .float z

theorem hexDigit?_lt {c : Char} {d : ℕ} (h : Text.hexDigit? c = some d) : d < 16 := by
  unfold Text.hexDigit? at h
  split at h
  · rename_i hc
    cases h
    have : c.toNat ≤ 57 := hc.2
    omega
  split at h
  · rename_i hc
    cases h
    have : c.toNat ≤ 102 := hc.2
    omega
  split at h
  · rename_i hc
    cases h
    have : c.toNat ≤ 70 := hc.2
    omega
  · cases h

theorem mapM_hexDigit?_lt : ∀ {cs : List Char} {ds : List ℕ}, cs.mapM Text.hexDigit? = some ds → ∀ d ∈ ds, d < 16
  | [], ds, h, d, hd => by
    cases h
    cases hd
  | c :: cs, ds, h, d, hd => by
    simp only [List.mapM_cons, Option.bind_eq_bind, Option.bind_eq_some_iff, Option.pure_def, Option.some.injEq] at h
    obtain ⟨first, hfirst, rest, hrest, rfl⟩ := h
    rcases List.mem_cons.1 hd with rfl | hd
    · exact hexDigit?_lt hfirst
    · exact mapM_hexDigit?_lt hrest d hd

theorem hexDigits?_lt {cs : List Char} {ds : List ℕ} (h : hexDigits? cs = some ds) : ∀ d ∈ ds, d < 16 := by
  unfold hexDigits? at h
  split at h
  · obtain ⟨digits, hdigits, h⟩ := Option.bind_eq_some_iff.1 h
    have hlt := mapM_hexDigit?_lt hdigits
    split at h
    · cases h
      intro d hd
      obtain ⟨e, he, hde⟩ := List.mem_flatMap.1 hd
      simp only [List.mem_cons, List.not_mem_nil, or_false, or_self] at hde
      exact hde ▸ hlt e he
    split at h
    · cases h
      exact hlt
    · cases h
  · cases h

theorem isScaled_ofHex {ds : List ℕ} (h : ∀ d ∈ ds, d < 16) : IsScaled (ofHex ds) := by
  have hdigit (i : ℕ) : ds.getD i 0 < 16 := by
    rw [List.getD_eq_getElem?_getD]
    cases hi : ds[i]? with
    | none => exact Nat.zero_lt_succ _
    | some d => exact h d (List.mem_of_getElem? hi)
  have hbyte (i : ℕ) : ds.getD i 0 * 16 + ds.getD (i + 1) 0 ≤ 255 := by
    have := hdigit i
    have := hdigit (i + 1)
    omega
  exact .inl ⟨_, _, _, ⟨hbyte 0, hbyte 2, hbyte 4⟩, rfl, rfl, rfl⟩

theorem isScaled_ofArguments? {body : List Char} {c : Rgb} (h : ofArguments? body = some c) : IsScaled c := by
  have hfloat {cs : List Char} {n : Number} (h : channelOf? cs = some n) : ∃ x, n = .float x := by
    obtain ⟨x, -, rfl⟩ := Option.map_eq_some_iff.1 h
    exact ⟨_, rfl⟩
  unfold ofArguments? at h
  simp only at h
  split at h
  · obtain ⟨r, hr, h⟩ := Option.bind_eq_some_iff.1 h
    obtain ⟨g, hg, h⟩ := Option.bind_eq_some_iff.1 h
    obtain ⟨b, hb, h⟩ := Option.bind_eq_some_iff.1 h
    obtain ⟨x, rfl⟩ := hfloat hr
    obtain ⟨y, rfl⟩ := hfloat hg
    obtain ⟨z, rfl⟩ := hfloat hb
    split at h
    · cases h
      exact .inr ⟨x, y, z, rfl, rfl, rfl⟩
    · obtain ⟨a, -, h⟩ := Option.bind_eq_some_iff.1 h
      cases h
      exact .inr ⟨x, y, z, rfl, rfl, rfl⟩
  · cases h

/-- Whatever is read as a color has integers from 0 to 255 for channels, or doubles. -/
theorem read_isScaled {d : Datum} {c : Rgb} (h : read d = .ok (some c)) : IsScaled c := by
  unfold read at h
  split at h
  · obtain ⟨red, -, h⟩ := Outcome.bind_ok h
    obtain ⟨r, hr, h⟩ := Outcome.bind_ok h
    obtain ⟨green, -, h⟩ := Outcome.bind_ok h
    obtain ⟨g, hg, h⟩ := Outcome.bind_ok h
    obtain ⟨blue, -, h⟩ := Outcome.bind_ok h
    obtain ⟨b, hb, h⟩ := Outcome.bind_ok h
    obtain ⟨a, -, h⟩ := Outcome.bind_ok h
    cases h
    obtain ⟨r, hr', rfl⟩ := exists_channel hr
    obtain ⟨g, hg', rfl⟩ := exists_channel hg
    obtain ⟨b, hb', rfl⟩ := exists_channel hb
    exact .inl ⟨r, g, b, ⟨hr', hg', hb'⟩, rfl, rfl, rfl⟩
  split at h
  · simp only at h
    split at h
    · rename_i hdigits
      cases h
      exact isScaled_ofHex (hexDigits?_lt hdigits)
    · obtain ⟨body, -, hbody⟩ := Option.bind_eq_some_iff.1 (Except.ok.inj h)
      exact isScaled_ofArguments? hbody
  · cases h

/-! ## Distances -/

section Distances

variable {power : Float → Float} {r g b : ℕ}

/-- The square of the difference of two channels. -/
def apart (power : Float → Float) (x y : Number) : Outcome Number := do squareBy power (← x.sub y)

theorem distanceBy_channels (x y : Rgb) : distanceBy power x.channels y.channels = (do
    let sum ← Number.add 0 (← apart power x.r y.r)
    let sum ← sum.add (← apart power x.g y.g)
    let sum ← sum.add (← apart power x.b y.b)
    return (← sum.toFloat).sqrt) := by
  unfold distanceBy Rgb.channels apart Datum.minus
  simp only [List.take, List.zip_cons_cons, List.zip_nil_right, List.foldlM_cons, List.foldlM_nil,
    Token.number_toDatum, Outcome.ok_bind, bind_assoc, pure_bind]

theorem toFloat_whole {n : ℕ} (hn : n < 2 ^ 53) : Number.toFloat (.int n) = .ok (ofRatio false n 1) := by
  rw [Number.toFloat, ofInt?_whole hn]

/-- An integer is as far from a double as the double of it. -/
theorem apart_float {n : ℕ} (hn : n ≤ 255) (x : Float) :
    apart power (.int n) (.float x) = apart power (.float (ofRatio false n 1)) (.float x) := by
  have hsub : Number.sub (.int n) (.float x) = .ok (.float (ofRatio false n 1 - x)) := by
    simp only [Number.sub, Number.combine, toFloat_whole (show n < 2 ^ 53 by omega), Outcome.ok_bind]
    rfl
  rw [apart, hsub]
  rfl

/-- Two integers are as far apart as the double of one of them is from the other. -/
theorem apart_whole (hpower : SquaresWhole power) {m n : ℕ} (hm : m ≤ 255) (hn : n ≤ 255) :
    ∃ d ≤ 255, apart power (.int m) (.int n) = .ok (.int (d * d : ℕ)) ∧
      apart power (.float (ofRatio false m 1)) (.int n) = .ok (.float (ofRatio false (d * d) 1)) := by
  have hd : max m n - min m n ≤ 255 := by omega
  have hsquare : (max m n - min m n) * (max m n - min m n) ≤ 255 * 255 := Nat.mul_le_mul hd hd
  refine ⟨max m n - min m n, hd, ?_, ?_⟩
  · have hint : ((m : ℤ) - n) * (m - n) = ((max m n - min m n) * (max m n - min m n) : ℕ) := by
      rcases le_total m n with h | h
      · rw [max_eq_right h, min_eq_left h]
        push_cast [h]
        ring
      · rw [max_eq_left h, min_eq_right h]
        push_cast [h]
        ring
    rw [← hint]
    rfl
  · have hfinite := (hasValue_whole (show (max m n - min m n) * (max m n - min m n) < 2 ^ 53 by omega)).isFinite
    have hsub : Number.sub (.float (ofRatio false m 1)) (.int n) =
        .ok (.float (ofRatio false m 1 - ofRatio false n 1)) := by
      simp only [Number.sub, Number.combine, toFloat_whole (show n < 2 ^ 53 by omega)]
      rfl
    rw [apart, hsub, Outcome.ok_bind]
    simp only [squareBy, whole_sub_abs (show m < 2 ^ 53 by omega) (show n < 2 ^ 53 by omega), hpower _ hd, hfinite,
      Bool.not_true, Bool.and_false, Bool.false_eq_true, if_false]

theorem add_int (m n : ℕ) : Number.add (.int m) (.int n) = .ok (.int (m + n : ℕ)) := rfl

theorem add_float {m n : ℕ} (h : m + n < 2 ^ 53) :
    Number.add (.float (ofRatio false m 1)) (.float (ofRatio false n 1)) =
      .ok (.float (ofRatio false (m + n) 1)) := by
  rw [← whole_add h]
  rfl

/-- A sum starts with the integer zero, whatever is added to it. -/
theorem zero_add_float {n : ℕ} (h : n < 2 ^ 53) :
    Number.add 0 (.float (ofRatio false n 1)) = .ok (.float (ofRatio false n 1)) := by
  have hzero : Number.toFloat (.int 0) = .ok (ofRatio false 0 1) := toFloat_whole (n := 0) (by norm_num)
  have hsum := whole_add (m := 0) (n := n) (by omega)
  rw [Nat.zero_add] at hsum
  show (do return Number.float ((← Number.toFloat (.int 0)) + (← Number.toFloat (.float (ofRatio false n 1))))) = _
  rw [hzero, Outcome.ok_bind]
  exact congrArg (Except.ok <| Number.float ·) hsum

/-- A color of integers is as far from a color that is read as its copy in doubles. -/
theorem distanceBy_ofWholes (hpower : SquaresWhole power) (hr : r ≤ 255) (hg : g ≤ 255) (hb : b ≤ 255)
    (alpha alpha' : Datum) {c : Rgb} (hc : IsScaled c) :
    distanceBy power (ofWholes r g b alpha).channels c.channels =
      distanceBy power (⟨.int r, .int g, .int b, alpha'⟩ : Rgb).channels c.channels := by
  rw [distanceBy_channels, distanceBy_channels, ofWholes]
  rcases hc with ⟨r', g', b', ⟨hr', hg', hb'⟩, hcr, hcg, hcb⟩ | ⟨x, y, z, hcr, hcg, hcb⟩
  · obtain ⟨i, hi, hri, hri'⟩ := apart_whole hpower hr hr'
    obtain ⟨j, hj, hgj, hgj'⟩ := apart_whole hpower hg hg'
    obtain ⟨k, hk, hbk, hbk'⟩ := apart_whole hpower hb hb'
    have hsquares : i * i ≤ 255 * 255 ∧ j * j ≤ 255 * 255 ∧ k * k ≤ 255 * 255 :=
      ⟨Nat.mul_le_mul hi hi, Nat.mul_le_mul hj hj, Nat.mul_le_mul hk hk⟩
    have hint : Number.add 0 (.int (i * i : ℕ)) = .ok (.int (0 + i * i : ℕ)) := add_int 0 (i * i)
    have hsum := toFloat_whole (show i * i + j * j + k * k < 2 ^ 53 by omega)
    rw [hcr, hcg, hcb, hri, hgj, hbk, hri', hgj', hbk']
    simp only [Outcome.ok_bind, hint, Nat.zero_add, add_int, hsum, zero_add_float (show i * i < 2 ^ 53 by omega),
      add_float (show i * i + j * j < 2 ^ 53 by omega), add_float (show i * i + j * j + k * k < 2 ^ 53 by omega)]
    rfl
  · simp only [hcr, hcg, hcb, apart_float hr, apart_float hg, apart_float hb]

end Distances

/-- The fields of a color of finite channels with an alpha value between zero and one. -/
structure IsColor (fields : List (String × Datum)) (alpha : Number) : Prop where
  channels : ∀ k ∈ ["r", "g", "b"], ∃ d, fields.lookup k = some d ∧ IsChannel d
  opacity : ((fields.lookup "a").getD (.int 1)).number? = some alpha
  share : alpha.IsShare

/-- Whether a channel is too large for 255 times its double. -/
def HasOverflow (fields : List (String × Datum)) : Prop :=
  ∃ k ∈ ["r", "g", "b"], ∃ d, fields.lookup k = some d ∧ Overflows d

/-- A text is read as a color of the same channels as another one, with an alpha value that equals the given one. -/
def Spells (s : String) (color : Rgb) (alpha : Number) : Prop :=
  ∃ c, read (.text s) = .ok (some c) ∧ c.r.eq color.r = true ∧ c.g.eq color.g = true ∧ c.b.eq color.b = true ∧
    c.a.equals alpha.toDatum = true

section Records

variable {fields : List (String × Datum)} {alpha : Number}

/-- The three channels of a record, as they are written. -/
def channelsOf (fields : List (String × Datum)) : Outcome (ℤ × ℤ × ℤ) := do
  let r ← channel ((fields.lookup "r").getD (.int 0))
  let g ← channel ((fields.lookup "g").getD (.int 0))
  let b ← channel ((fields.lookup "b").getD (.int 0))
  return (r, g, b)

theorem IsColor.isRecord (h : IsColor fields alpha) : isRecord (.record fields) = true := by
  refine List.all_eq_true.2 fun k hk => ?_
  obtain ⟨d, hd, -⟩ := h.channels k hk
  rw [hd]
  rfl

theorem IsColor.read_eq (h : IsColor fields alpha) : read (.record fields) = (do
    let (r, g, b) ← channelsOf fields
    return some ⟨.int r, .int g, .int b, (fields.lookup "a").getD (.int 1)⟩) := by
  obtain ⟨red, hred, -⟩ := h.channels "r" (by simp)
  obtain ⟨green, hgreen, -⟩ := h.channels "g" (by simp)
  obtain ⟨blue, hblue, -⟩ := h.channels "b" (by simp)
  unfold read
  rw [if_pos h.isRecord]
  simp only [Datum.need, hred, hgreen, hblue, channelsOf, Option.getD_some, Outcome.ok_bind, bind_assoc, pure_bind]
  rfl

theorem IsColor.rgba_eq (h : IsColor fields alpha) : rgba (.record fields) (.int 1) = (do
    let (r, g, b) ← channelsOf fields
    return functional r g b (← alphaText alpha)) := by
  have hunder : alphaUnder ((fields.lookup "a").getD (.int 1)) (.int 1) = .ok alpha.toDatum := by
    unfold alphaUnder
    rw [h.opacity]
    show (do return (← alpha.mul (.int 1)).toDatum) = _
    rw [Number.mul_one_int h.share.isFinite]
    rfl
  show (do
    let alpha ← alphaUnder ((fields.lookup "a").getD (.int 1)) (.int 1)
    let r ← channel ((fields.lookup "r").getD (.int 0))
    let g ← channel ((fields.lookup "g").getD (.int 0))
    let b ← channel ((fields.lookup "b").getD (.int 0))
    return functional r g b (← alphaText (← alpha.number))) = _
  rw [hunder, Outcome.ok_bind, Token.number_toDatum]
  simp only [channelsOf, Outcome.ok_bind, bind_assoc, pure_bind]

theorem IsColor.hexOrRgba_eq (h : IsColor fields alpha) : hexOrRgba (.record fields) =
    if alpha.lt 1 then rgba (.record fields) (.int 1) else (do
      let (r, g, b) ← channelsOf fields
      return "#" ++ String.join [hexPair r, hexPair g, hexPair b]) := by
  have hnumber : ((fields.lookup "a").getD (.int 1)).number = .ok alpha := number_of_number? h.opacity
  show (do
    let alpha ← ((fields.lookup "a").getD (.int 1)).number
    if alpha.lt 1 then rgba (.record fields) (.int 1)
    else
      let parts ← ["r", "g", "b"].mapM fun k => do
        return hexPair (← channel ((fields.lookup k).getD (.int 0)))
      return "#" ++ String.join parts) = _
  rw [hnumber, Outcome.ok_bind]
  simp only [List.mapM_cons, List.mapM_nil, channelsOf, bind_assoc, pure_bind]

/-- A channel of a color is written, or it is too large. -/
theorem IsColor.channel_cases (h : IsColor fields alpha) {k : String} (hk : k ∈ ["r", "g", "b"]) :
    (∃ n : ℕ, n ≤ 255 ∧ channel ((fields.lookup k).getD (.int 0)) = .ok n) ∨
      HasOverflow fields ∧ channel ((fields.lookup k).getD (.int 0)) = .error .tooLarge := by
  obtain ⟨d, hd, hchannel⟩ := h.channels k hk
  rw [hd]
  by_cases hover : Overflows d
  · exact .inr ⟨⟨k, hk, d, hd, hover⟩, channel_overflows hchannel hover⟩
  · exact .inl (channel_ok hchannel hover)

theorem IsColor.channelsOf_ok (h : IsColor fields alpha) (hover : ¬ HasOverflow fields) :
    ∃ r g b : ℕ, (r ≤ 255 ∧ g ≤ 255 ∧ b ≤ 255) ∧ channelsOf fields = .ok (↑r, ↑g, ↑b) := by
  have hchannel (k : String) (hk : k ∈ ["r", "g", "b"]) :=
    (h.channel_cases hk).resolve_right fun hlarge => hover hlarge.1
  obtain ⟨r, hr, hred⟩ := hchannel "r" (by simp)
  obtain ⟨g, hg, hgreen⟩ := hchannel "g" (by simp)
  obtain ⟨b, hb, hblue⟩ := hchannel "b" (by simp)
  refine ⟨r, g, b, ⟨hr, hg, hb⟩, ?_⟩
  rw [channelsOf, hred, hgreen, hblue]
  rfl

theorem IsColor.channelsOf_overflow (h : IsColor fields alpha) (hover : HasOverflow fields) :
    channelsOf fields = .error .tooLarge := by
  obtain ⟨k, hk, d, hd, hover⟩ := hover
  have hfault : channel ((fields.lookup k).getD (.int 0)) = .error .tooLarge := by
    obtain ⟨d', hd', hchannel⟩ := h.channels k hk
    rw [hd, Option.some.injEq] at hd'
    subst hd'
    rw [hd]
    exact channel_overflows hchannel hover
  have hcases (k : String) (hk : k ∈ ["r", "g", "b"]) := h.channel_cases hk
  simp only [List.mem_cons, List.not_mem_nil, or_false] at hk
  rcases hk with rfl | rfl | rfl
  · rw [channelsOf, hfault]
    rfl
  · rcases hcases "r" (by simp) with ⟨r, -, hr⟩ | ⟨-, hr⟩ <;> rw [channelsOf, hr]
    · rw [Outcome.ok_bind, hfault]
      rfl
    · rfl
  · rcases hcases "r" (by simp) with ⟨r, -, hr⟩ | ⟨-, hr⟩ <;> rw [channelsOf, hr]
    · rcases hcases "g" (by simp) with ⟨g, -, hg⟩ | ⟨-, hg⟩ <;> rw [Outcome.ok_bind, hg]
      · rw [Outcome.ok_bind, hfault]
        rfl
      · rfl
    · rfl

/-- A color with a channel too large can be neither read nor spelled. -/
theorem IsColor.overflow (h : IsColor fields alpha) (hover : HasOverflow fields) :
    read (.record fields) = .error .tooLarge ∧ rgba (.record fields) (.int 1) = .error .tooLarge ∧
      hexOrRgba (.record fields) = .error .tooLarge := by
  have hchannels := h.channelsOf_overflow hover
  have hrgba : rgba (.record fields) (.int 1) = .error .tooLarge := by
    rw [h.rgba_eq, hchannels]
    rfl
  refine ⟨by rw [h.read_eq, hchannels]; rfl, hrgba, ?_⟩
  rw [h.hexOrRgba_eq, hrgba, hchannels]
  split <;> rfl

/-! ## The spellings -/

variable {r g b : ℕ}

/-- The functional spelling of a color is read as doubles of its channels. -/
theorem IsColor.rgba_spec (h : IsColor fields alpha) (hchannels : channelsOf fields = .ok (↑r, ↑g, ↑b))
    (hr : r ≤ 255) (hg : g ≤ 255) (hb : b ≤ 255) : ∃ s y, rgba (.record fields) (.int 1) = .ok s ∧
      read (.text s) = .ok (some (ofWholes r g b (.float y))) ∧ Number.eq (.float y) (alpha.roundTo 3) = true := by
  obtain ⟨y, htext, hy, hfinite, heq⟩ := alphaText_spec h.share
  refine ⟨functional r g b (brief y), y, ?_, ?_, heq⟩
  · rw [h.rgba_eq, hchannels, htext]
    rfl
  · exact read_functional (by omega) (by omega) (by omega) (areNumerals_brief y) hy hfinite

end Records

/-! ## Similarity -/

/-- Colors as far from every color that is read are as similar to every token. -/
theorem colorsIn_congr {power : Float → Float} {a a' : Datum} {x x' : Rgb} (ha : read a = .ok (some x))
    (ha' : read a' = .ok (some x'))
    (hdistance : ∀ c, IsScaled c → distanceBy power x.channels c.channels = distanceBy power x'.channels c.channels)
    (token : Datum) : Token.colorsIn (doublesBy power) a token = Token.colorsIn (doublesBy power) a' token := by
  unfold Token.colorsIn
  rw [ha, ha', Outcome.ok_bind, Outcome.ok_bind]
  cases htoken : read token with
  | error f => rfl
  | ok found =>
    cases found with
    | none => rfl
    | some c =>
      have hsame := hdistance c (read_isScaled htoken)
      simp only [Outcome.ok_bind, doublesBy, hsame]

/-! ## Both spellings -/

/-- A color of finite channels is read from its spellings as it is read itself, with its alpha value rounded
to three places, which is one in the hexadecimal spelling; and its similarity with a token is the one of the
text that it is compared as. If a channel is too large, there is neither. -/
theorem spellings_decode {power : Float → Float} {fields : List (String × Datum)} {alpha : Number}
    (hpower : SquaresWhole power) (h : IsColor fields alpha) :
    (HasOverflow fields → read (.record fields) = .error .tooLarge ∧
      rgba (.record fields) (.int 1) = .error .tooLarge ∧ hexOrRgba (.record fields) = .error .tooLarge) ∧
    (¬ HasOverflow fields → ∃ r g b : ℕ, ∃ hex rgb : String, (r ≤ 255 ∧ g ≤ 255 ∧ b ≤ 255) ∧
      channelsOf fields = .ok (↑r, ↑g, ↑b) ∧
      let color : Rgb := ⟨.int r, .int g, .int b, (fields.lookup "a").getD (.int 1)⟩
      read (.record fields) = .ok (some color) ∧
      rgba (.record fields) (.int 1) = .ok rgb ∧ Spells rgb color (alpha.roundTo 3) ∧
      hexOrRgba (.record fields) = .ok hex ∧ Spells hex color (alpha.roundTo 3) ∧
      (alpha.lt 1 = false → Spells hex color 1) ∧
      (Token.isAlias (.record fields) = false → ∀ type, Token.comparable (.record fields) type = .ok hex) ∧
      ∀ token, Token.colorsIn (doublesBy power) (.text hex) token =
        Token.colorsIn (doublesBy power) (.record fields) token) := by
  refine ⟨h.overflow, fun hover => ?_⟩
  obtain ⟨r, g, b, ⟨hr, hg, hb⟩, hchannels⟩ := h.channelsOf_ok hover
  obtain ⟨rgb, y, hrgb, hreadRgb, halpha⟩ := h.rgba_spec hchannels hr hg hb
  have hread : read (.record fields) = .ok (some ⟨.int r, .int g, .int b, (fields.lookup "a").getD (.int 1)⟩) := by
    rw [h.read_eq, hchannels]
    rfl
  have hspellsRgb : Spells rgb ⟨.int r, .int g, .int b, (fields.lookup "a").getD (.int 1)⟩ (alpha.roundTo 3) :=
    ⟨_, hreadRgb, Number.eq_whole hr, Number.eq_whole hg, Number.eq_whole hb, halpha⟩
  have hcompared {hex : String} (hhex : hexOrRgba (.record fields) = .ok hex)
      (halias : Token.isAlias (.record fields) = false) (type : String) :
      Token.comparable (.record fields) type = .ok hex := by
    unfold Token.comparable
    rw [halias, if_neg Bool.false_ne_true, if_pos h.isRecord, hhex]
  cases hlt : alpha.lt 1 with
  | true =>
    have hhex : hexOrRgba (.record fields) = .ok rgb := by rw [h.hexOrRgba_eq, hlt, if_pos rfl, hrgb]
    exact ⟨r, g, b, rgb, rgb, ⟨hr, hg, hb⟩, hchannels, hread, hrgb, hspellsRgb, hhex, hspellsRgb,
      fun hfalse => Bool.noConfusion hfalse, hcompared hhex,
      colorsIn_congr hreadRgb hread fun c hc => distanceBy_ofWholes hpower hr hg hb _ _ hc⟩
  | false =>
    have hhex : hexOrRgba (.record fields) = .ok ("#" ++ String.join [hexPair r, hexPair g, hexPair b]) := by
      rw [h.hexOrRgba_eq, hlt, if_neg Bool.false_ne_true, hchannels]
      rfl
    have hreadHex := read_hex (show r < 256 by omega) (show g < 256 by omega) (show b < 256 by omega)
    exact ⟨r, g, b, _, rgb, ⟨hr, hg, hb⟩, hchannels, hread, hrgb, hspellsRgb, hhex,
      ⟨_, hreadHex, Number.eq_int r, Number.eq_int g, Number.eq_int b, h.share.roundTo_of_not_lt hlt⟩,
      fun _ => ⟨_, hreadHex, Number.eq_int r, Number.eq_int g, Number.eq_int b, Number.eq_int 1⟩, hcompared hhex,
      colorsIn_congr hreadHex hread fun c _ => rfl⟩

/-- A color with an alpha value of one half. -/
def halfway : List (String × Datum) := [("r", .float 0.2), ("g", .float 0.4), ("b", .int 1), ("a", .float 0.5)]

theorem isColor_halfway : IsColor halfway (.float 0.5) where
  channels := by
    simp only [List.forall_mem_cons, List.not_mem_nil, false_implies, implies_true, and_true]
    exact ⟨⟨_, rfl, _, rfl, rfl⟩, ⟨_, rfl, _, rfl, rfl⟩, ⟨_, rfl, _, rfl, trivial⟩⟩
  opacity := rfl
  share := by decide +kernel

theorem not_hasOverflow_halfway : ¬ HasOverflow halfway := by
  rintro ⟨k, hk, d, hd, x, rfl, hx⟩
  simp only [List.mem_cons, List.not_mem_nil, or_false] at hk
  rcases hk with rfl | rfl | rfl <;> cases hd <;> exact absurd hx (by decide +kernel)

theorem spellings_decode_halfway : SquaresWhole (fun x => x * x) ∧ IsColor halfway (.float 0.5) ∧
    ¬ HasOverflow halfway ∧ ∃ hex, hexOrRgba (.record halfway) = .ok hex ∧
      Spells hex ⟨.int 51, .int 102, .int 255, .float 0.5⟩ (.float 0.5) ∧
      ∀ token, Token.colorsIn (doublesBy fun x => x * x) (.text hex) token =
        Token.colorsIn (doublesBy fun x => x * x) (.record halfway) token := by
  refine ⟨squaresWhole_mul, isColor_halfway, not_hasOverflow_halfway, ?_⟩
  obtain ⟨r, g, b, hex, rgb, -, hchannels, -, -, -, hhex, hspells, -, -, hsimilar⟩ :=
    (spellings_decode squaresWhole_mul isColor_halfway).2 not_hasOverflow_halfway
  have hwritten : channelsOf halfway = .ok (51, 102, 255) := by rfl
  have hrounded : (Number.float 0.5).roundTo 3 = .float 0.5 :=
    congrArg Number.float (show roundTo 3 0.5 = 0.5 by decide +kernel)
  rw [hwritten, Except.ok.injEq, Prod.mk.injEq, Prod.mk.injEq] at hchannels
  rw [← hchannels.1, ← hchannels.2.1, ← hchannels.2.2, hrounded] at hspells
  exact ⟨hex, hhex, hspells, hsimilar⟩

/-- A color with a channel too large. -/
def glaring : List (String × Datum) := [("r", .float 1e306), ("g", .int 0), ("b", .int 0)]

theorem isColor_glaring : IsColor glaring 1 where
  channels := by
    simp only [List.forall_mem_cons, List.not_mem_nil, false_implies, implies_true, and_true]
    exact ⟨⟨_, rfl, _, rfl, by decide +kernel⟩, ⟨_, rfl, _, rfl, trivial⟩, ⟨_, rfl, _, rfl, trivial⟩⟩
  opacity := rfl
  share := by decide

/-- A finite channel can be too large, though it would be cut off at 255. -/
theorem glaring_unread : IsColor glaring 1 ∧ read (.record glaring) = .error .tooLarge ∧
    hexOrRgba (.record glaring) = .error .tooLarge := by
  have hover : HasOverflow glaring := ⟨"r", by simp, _, rfl, 1e306, rfl, by decide +kernel⟩
  obtain ⟨hread, -, hhex⟩ := isColor_glaring.overflow hover
  exact ⟨isColor_glaring, hread, hhex⟩

end Maquette.Color
