/-
Spellings of colors that are read back. A finite channel is written as an integer from 0 to 255, unless 255
times its double is beyond all doubles, and an alpha value between zero and one as a text that is read back as
what the value is rounded to. Two hexadecimal digits are read as the integer that they were written for; and
the arguments of the functional spelling are parted again where they were joined, so that each is read by
itself.
-/
import Maquette.Color
import Maquette.Proofs.Decimal.Spelled

namespace Maquette

open Decimal

namespace Number

/-- An integer, or a double that is neither infinite nor a NaN. -/
def IsFinite : Number → Prop
  | int _ => True
  | float x => isFinite x = true

/-- A number between zero and one. -/
def IsShare : Number → Prop
  | int n => n = 0 ∨ n = 1
  | float x => 0 ≤ x ∧ x ≤ 1

instance : (n : Number) → Decidable n.IsFinite
  | .int _ => .isTrue trivial
  | .float x => inferInstanceAs (Decidable (Decimal.isFinite x = true))

instance : (n : Number) → Decidable n.IsShare
  | .int n => inferInstanceAs (Decidable (n = 0 ∨ n = 1))
  | .float x => inferInstanceAs (Decidable (0 ≤ x ∧ x ≤ 1))

theorem isNaN_of_isFinite {x : Float} (hx : isFinite x = true) : x.isNaN = false := by
  rw [← Bool.not_eq_true, isNaN_iff]
  intro h
  rw [isFinite, h] at hx
  cases hx

theorem eq_float_self {x : Float} (hx : isFinite x = true) : Number.eq (.float x) (.float x) = true := by
  have hsame : (x == x || (x.isNaN && x.isNaN)) = true := sameFloat_iff.2 rfl
  show (!x.isNaN && (x == x || (x.isNaN && x.isNaN))) = true
  rw [hsame, isNaN_of_isFinite hx]
  rfl

theorem eq_int (n : ℤ) : Number.eq (.int n) (.int n) = true := beq_self_eq_true n

theorem eq_whole {n : ℕ} (hn : n ≤ 255) : Number.eq (.float (ofRatio false n 1)) (.int n) = true := by
  have hvalue := hasValue_whole (show n < 2 ^ 53 by omega)
  have hsame := intEqFloat_whole (show n < 2 ^ 53 by omega)
  show (!(ofRatio false n 1).isNaN && intEqFloat n (ofRatio false n 1)) = true
  rw [hsame, isNaN_of_isFinite hvalue.isFinite]
  rfl

theorem mul_one_int {n : Number} (h : n.IsFinite) : n.mul (.int 1) = .ok n := by
  cases n with
  | int n => exact congrArg (Except.ok <| Number.int ·) (mul_one n)
  | float x => exact congrArg (Except.ok <| Number.float ·) (mul_one_eq h)

theorem IsShare.isFinite {n : Number} (h : n.IsShare) : n.IsFinite := by
  cases n with
  | int n => trivial
  | float x => exact isFinite_of_unit h.1 h.2

/-- A share that is not less than one is one. -/
theorem IsShare.roundTo_of_not_lt {n : Number} (h : n.IsShare) (hlt : n.lt 1 = false) :
    Number.eq 1 (n.roundTo 3) = true := by
  cases n with
  | int n =>
    rcases h with rfl | rfl
    · cases hlt
    · rfl
  | float x =>
    obtain ⟨neg, t, m, hx⟩ := isFinite_iff.1 h.isFinite
    obtain ⟨hden, hvalue⟩ := magnitude_spec t m
    have hreached : ¬ (if neg then -((magnitude m (t - 1074)).1 : ℤ) else (magnitude m (t - 1074)).1) <
        1 * (magnitude m (t - 1074)).2 := by
      change floatLt x 1 = false at hlt
      simpa only [floatLt, ratio?, hx.decoded, decide_eq_false_iff_not] using hlt
    have hneg : neg = false := by
      cases neg with
      | false => rfl
      | true => simp only [if_true] at hreached; omega
    subst hneg
    have hone : HasValue x (unitsOf false t m / 2 ^ 1074) :=
      ⟨false, t, m, hx, (div_mul_cancel₀ _ (by positivity)).symm⟩
    have hlow : 1 ≤ unitsOf false t m / 2 ^ 1074 := by
      rw [unitsOf, withSign, Int.cast_natCast, ← hvalue, mul_div_cancel_right₀ _ (by positivity),
        one_le_div (by positivity)]
      simp only [Bool.false_eq_true, if_false, one_mul, not_lt] at hreached
      exact_mod_cast Int.ofNat_le.1 hreached
    rw [le_antisymm (hone.le hasValue_one h.2) hlow] at hone
    rw [hone.eq hasValue_one one_ne_zero]
    decide +kernel

end Number

namespace Color

/-! ## Channels -/

theorem number_of_number? {d : Datum} {n : Number} (h : d.number? = some n) : d.number = .ok n := by
  rw [Datum.number, h]

/-- A channel that is a finite number. -/
def IsChannel (d : Datum) : Prop := ∃ n, d.number? = some n ∧ n.IsFinite

/-- A channel whose product with 255 is beyond all doubles. -/
def Overflows (d : Datum) : Prop := ∃ x, d = .float x ∧ isFinite (x * 255) = false

theorem channel_int {d : Datum} {n : ℤ} (h : d.number? = some (.int n)) :
    channel d = .ok (max 0 (min 255 (n * 255))) := by
  rw [channel, number_of_number? h]
  rfl

theorem channel_float {x : Float} {n : ℤ} (h : round? (x * 255) = some n) :
    channel (.float x) = .ok (max 0 (min 255 n)) := by
  show ((Number.float (x * 255)).round >>= _) = _
  rw [Number.round, h]
  rfl

theorem channel_overflows {d : Datum} (h : IsChannel d) (hover : Overflows d) : channel d = .error .tooLarge := by
  obtain ⟨x, rfl, hinfinite⟩ := hover
  obtain ⟨n, hn, hfinite⟩ := h
  cases hn
  obtain ⟨neg, t, m, hx⟩ := isFinite_iff.1 hfinite
  obtain ⟨neg', t', m', hscale⟩ := isFinite_iff.1 (show isFinite 255 = true from rfl)
  obtain ⟨r, hr, -⟩ := rank_mul hx hscale
  show ((Number.float (x * 255)).round >>= _) = _
  cases hproduct : decode (x * 255) with
  | nan =>
    rw [rank_of_nan hproduct] at hr
    cases hr
  | infinite neg =>
    rw [Number.round, round?, hproduct]
    rfl
  | finite neg m e =>
    rw [isFinite, hproduct] at hinfinite
    cases hinfinite

theorem exists_clamped (n : ℤ) : ∃ k : ℕ, k ≤ 255 ∧ max 0 (min 255 n) = k :=
  ⟨(max 0 (min 255 n)).toNat, by omega, by omega⟩

/-- A channel is written as an integer from 0 to 255. -/
theorem exists_channel {d : Datum} {n : ℤ} (h : channel d = .ok n) : ∃ k : ℕ, k ≤ 255 ∧ n = k := by
  obtain ⟨m, -, h⟩ := Outcome.bind_ok h
  obtain ⟨product, -, h⟩ := Outcome.bind_ok h
  obtain ⟨rounded, -, h⟩ := Outcome.bind_ok h
  cases h
  exact exists_clamped rounded

theorem channel_ok {d : Datum} (h : IsChannel d) (hover : ¬ Overflows d) :
    ∃ k : ℕ, k ≤ 255 ∧ channel d = .ok k := by
  obtain ⟨n, hn, hfinite⟩ := h
  cases n with
  | int n =>
    obtain ⟨k, hk, heq⟩ := exists_clamped (n * 255)
    exact ⟨k, hk, by rw [channel_int hn, heq]⟩
  | float x =>
    obtain rfl : d = .float x := by
      cases d with
      | float y => cases hn; rfl
      | _ => cases hn
    have hproduct : isFinite (x * 255) = true := by
      by_contra hinfinite
      exact hover ⟨x, rfl, Bool.eq_false_iff.2 hinfinite⟩
    obtain ⟨neg, t, m, hx⟩ := isFinite_iff.1 hproduct
    have hround : round? (x * 255) = some (if neg then -(units m (t - 1074) 0 : ℤ) else units m (t - 1074) 0) := by
      rw [round?, hx.decoded]
    obtain ⟨k, hk, heq⟩ := exists_clamped (if neg then -(units m (t - 1074) 0 : ℤ) else units m (t - 1074) 0)
    exact ⟨k, hk, by rw [channel_float hround, heq]⟩

/-- A color whose channels are the doubles of integers. -/
def ofWholes (r g b : ℕ) (alpha : Datum) : Rgb :=
  ⟨.float (ofRatio false r 1), .float (ofRatio false g 1), .float (ofRatio false b 1), alpha⟩

/-! ## Alpha values -/

theorem alphaText_spec {n : Number} (h : n.IsShare) :
    ∃ y, alphaText n = .ok (brief y) ∧ looseDouble? (brief y) = some y ∧ isFinite y = true ∧
      Number.eq (.float y) (n.roundTo 3) = true := by
  cases n with
  | int n =>
    rcases h with rfl | rfl
    · exact ⟨ofRatio false 0 1, rfl, rfl, rfl, Number.eq_whole (show 0 ≤ 255 by decide)⟩
    · exact ⟨ofRatio false 1 1, rfl, rfl, rfl, Number.eq_whole (show 1 ≤ 255 by decide)⟩
  | float x =>
    obtain ⟨hlow, hhigh⟩ := h
    obtain ⟨hread, hfinite⟩ := looseDouble?_roundTo hlow hhigh
    exact ⟨roundTo 3 x, rfl, hread, hfinite, Number.eq_float_self hfinite⟩

theorem read_text (s : String) : read (.text s) = match hexDigits? (Text.trim Text.isBlank s.toList) with
    | some ds => .ok (some (ofHex ds))
    | none => .ok ((rgbBody? (Text.trim Text.isBlank s.toList)).bind ofArguments?) := rfl

/-! ## Hexadecimal spelling -/

/-- A hexadecimal digit as it is written. -/
def hexMark (d : ℕ) : Char := ((Text.capitalChar (Nat.digitChar d)).head?).getD '0'

theorem hexMark_spec : ∀ d < 16, Text.capitalChar (Nat.digitChar d) = [hexMark d] ∧
    Text.hexDigit? (hexMark d) = some d ∧ Text.isBlank (hexMark d) = false := by
  decide

theorem hexPair_eq {n : ℕ} (hn : n < 256) : (hexPair n).toList = [hexMark (n / 16), hexMark (n % 16)] := by
  have hdigits : (hex 2 n).toList = [Nat.digitChar (n / 16), Nat.digitChar (n % 16)] := by
    unfold hex
    by_cases hsmall : n < 16
    · rw [Nat.toDigits_of_lt_base hsmall, Nat.div_eq_of_lt hsmall, Nat.mod_eq_of_lt hsmall]
      exact String.toList_ofList
    · rw [Nat.toDigits_of_base_le (by decide) (not_lt.1 hsmall), Nat.toDigits_of_lt_base (by omega)]
      exact String.toList_ofList
  unfold hexPair Text.upper
  rw [Int.toNat_natCast, hdigits, String.toList_ofList]
  simp only [List.flatMap_cons, List.flatMap_nil, (hexMark_spec (n / 16) (by omega)).1,
    (hexMark_spec (n % 16) (by omega)).1]
  rfl

/-- A hexadecimal spelling of three channels is read as these. -/
theorem read_hex {r g b : ℕ} (hr : r < 256) (hg : g < 256) (hb : b < 256) :
    read (.text ("#" ++ String.join [hexPair r, hexPair g, hexPair b])) =
      .ok (some ⟨.int r, .int g, .int b, .int 1⟩) := by
  have hlist : ("#" ++ String.join [hexPair r, hexPair g, hexPair b]).toList = '#' :: [hexMark (r / 16),
      hexMark (r % 16), hexMark (g / 16), hexMark (g % 16), hexMark (b / 16), hexMark (b % 16)] := by
    rw [String.toList_append, String.toList_join]
    simp only [List.flatMap_cons, List.flatMap_nil, hexPair_eq hr, hexPair_eq hg, hexPair_eq hb]
    rfl
  have htrim : Text.trim Text.isBlank ('#' :: [hexMark (r / 16), hexMark (r % 16), hexMark (g / 16),
      hexMark (g % 16), hexMark (b / 16), hexMark (b % 16)]) = _ :=
    Text.trim_eq_self_iff.2 ⟨fun c hc => by cases hc; rfl,
      fun c hc => by cases hc; exact (hexMark_spec (b % 16) (by omega)).2.2⟩
  have hdigits : hexDigits? ('#' :: [hexMark (r / 16), hexMark (r % 16), hexMark (g / 16), hexMark (g % 16),
      hexMark (b / 16), hexMark (b % 16)]) = some [r / 16, r % 16, g / 16, g % 16, b / 16, b % 16] := by
    have hdigit (d : ℕ) (hd : d < 16) := (hexMark_spec d hd).2.1
    simp [hexDigits?, hdigit (r / 16) (by omega), hdigit (r % 16) (by omega), hdigit (g / 16) (by omega),
      hdigit (g % 16) (by omega), hdigit (b / 16) (by omega), hdigit (b % 16) (by omega)]
  have hbyte (n : ℕ) : ((n / 16 : ℕ) : ℤ) * 16 + (n % 16 : ℕ) = n := by omega
  rw [read_text, hlist, htrim, hdigits]
  show (Except.ok (some ⟨.int (((r / 16 : ℕ) : ℤ) * 16 + (r % 16 : ℕ)), .int (((g / 16 : ℕ) : ℤ) * 16 + (g % 16 : ℕ)),
    .int (((b / 16 : ℕ) : ℤ) * 16 + (b % 16 : ℕ)), .int 1⟩) : Outcome (Option Rgb)) = _
  rw [hbyte r, hbyte g, hbyte b]

/-! ## Functional spelling -/

/-- What parts the arguments. -/
def isComma (c : Char) : Bool := c == ',' || c == '/' || Text.isBlank c

/-- A character of a number neither parts arguments nor ends them. -/
theorem isNumeral_spec {c : Char} (h : isNumeral c = true) :
    isComma c = false ∧ c ≠ ')' ∧ c ≠ '%' ∧ Text.isBlank c = false := by
  rcases Bool.or_eq_true_iff.1 h with h | h
  · obtain ⟨hlow, hhigh⟩ : 48 ≤ c.toNat ∧ c.toNat ≤ 57 := by
      simpa [Char.isDigit, UInt32.le_iff_toNat_le] using h
    have hblank : Text.isBlank c = false := by
      simp only [Text.isBlank, Bool.or_eq_false_iff, Bool.and_eq_false_iff, decide_eq_false_iff_not,
        beq_eq_false_iff_ne]
      omega
    have hne (m : Char) (hm : m.toNat < 48) : c ≠ m := by
      rintro rfl
      omega
    refine ⟨?_, hne _ (by decide), hne _ (by decide), hblank⟩
    rw [isComma, hblank, beq_eq_false_iff_ne.2 (hne ',' (by decide)), beq_eq_false_iff_ne.2 (hne '/' (by decide))]
    rfl
  · simp only [List.contains_cons, List.contains_nil, Bool.or_false, Bool.or_eq_true, beq_iff_eq] at h
    rcases h with rfl | rfl | rfl | rfl | rfl | rfl | rfl | rfl <;> exact ⟨rfl, by decide, by decide, rfl⟩

theorem words_argument {cs : List Char} (hne : cs ≠ []) (h : AreNumerals cs) : Text.words isComma cs = [cs] := by
  rw [Text.words, Text.splitOn_word fun c hc => (isNumeral_spec (List.all_eq_true.1 h c hc)).1]
  simp [hne]

theorem words_arguments {r g b a : List Char} (hr : r ≠ []) (hr' : AreNumerals r) (hg : g ≠ [])
    (hg' : AreNumerals g) (hb : b ≠ []) (hb' : AreNumerals b) (ha : a ≠ []) (ha' : AreNumerals a) :
    Text.words isComma (r ++ ',' :: ' ' :: (g ++ ',' :: ' ' :: (b ++ ',' :: ' ' :: a))) = [r, g, b, a] := by
  have hcomma : isComma ',' = true := rfl
  have hblank : isComma ' ' = true := rfl
  rw [Text.words_append_sep hcomma, Text.words_sep hblank, Text.words_append_sep hcomma, Text.words_sep hblank,
    Text.words_append_sep hcomma, Text.words_sep hblank, words_argument hr hr', words_argument hg hg',
    words_argument hb hb', words_argument ha ha']
  rfl

theorem percented?_eq {cs : List Char} (h : AreNumerals cs) :
    percented? cs = (looseDouble? (String.ofList cs)).map (·, false) := by
  have hkept : Text.dropEnd (· == '%') cs = cs := Text.dropEnd_eq_self_iff.2 fun c hc =>
    beq_eq_false_iff_ne.2 (isNumeral_spec (List.all_eq_true.1 h c (List.mem_of_getLast? hc))).2.2.1
  simp [percented?, hkept]

/-- The functional spelling of whole channels and a written alpha value. -/
def functional (r g b : ℤ) (alpha : String) : String := s!"rgba({r}, {g}, {b}, {alpha})"

/-- The arguments of the functional spelling, as they are joined. -/
def arguments (r g b : ℕ) (alpha : String) : List Char :=
  Nat.toDigits 10 r ++ ',' :: ' ' :: (Nat.toDigits 10 g ++ ',' :: ' ' :: (Nat.toDigits 10 b ++ ',' :: ' ' ::
    alpha.toList))

theorem functional_toList (r g b : ℕ) (alpha : String) :
    (functional r g b alpha).toList = 'r' :: 'g' :: 'b' :: 'a' :: '(' :: (arguments r g b alpha ++ [')']) := by
  have hnat (n : ℕ) : (toString (n : ℤ)).toList = Nat.toDigits 10 n := Nat.toList_repr
  have hself (s : String) : toString s = s := rfl
  have hopen : "rgba(".toList = ['r', 'g', 'b', 'a', '('] := rfl
  have hcomma : ", ".toList = [',', ' '] := rfl
  have hclose : ")".toList = [')'] := rfl
  simp only [functional, arguments, String.toList_append, hnat, hself, hopen, hcomma, hclose, List.append_assoc,
    List.cons_append, List.nil_append]

variable {r g b : ℕ} {alpha : String} {y : Float}

theorem rgbBody?_functional (halpha : AreNumerals alpha.toList) :
    rgbBody? ('r' :: 'g' :: 'b' :: 'a' :: '(' :: (arguments r g b alpha ++ [')'])) =
      some (arguments r g b alpha) := by
  have hcut : ')' ∉ arguments r g b alpha := by
    have hnumeral {cs : List Char} (h : AreNumerals cs) : ')' ∉ cs := fun hc =>
      (isNumeral_spec (List.all_eq_true.1 h _ hc)).2.1 rfl
    simp [arguments, hnumeral (areNumerals_digits r), hnumeral (areNumerals_digits g),
      hnumeral (areNumerals_digits b), hnumeral halpha]
  have hname : afterName? "rgb" ('r' :: 'g' :: 'b' :: 'a' :: '(' :: (arguments r g b alpha ++ [')'])) =
      some (arguments r g b alpha ++ [')']) := rfl
  rw [rgbBody?, hname, Option.bind_eq_bind, Option.bind_some, Text.cut?_append hcut]
  rfl

theorem channelOf?_digits {n : ℕ} (hn : n < 256) :
    channelOf? (Nat.toDigits 10 n) = some (.float (ofRatio false n 1)) := by
  have hlength : (Nat.toDigits 10 n).length ≤ 3 :=
    (Nat.length_toDigits_le_iff (by decide) (by decide)).2 (hn.trans (by decide))
  rw [channelOf?, percented?_eq (areNumerals_digits n), looseDouble?_toDigits (hlength.trans (by decide))]
  show some (Number.float (ofRatio false n 1 * 1)) = _
  rw [mul_one_eq (hasValue_whole (by omega)).isFinite]

theorem ofArguments?_eq (hr : r < 256) (hg : g < 256) (hb : b < 256) (halpha : AreNumerals alpha.toList)
    (hy : looseDouble? alpha = some y) (hfinite : isFinite y = true) :
    ofArguments? (arguments r g b alpha) = some (ofWholes r g b (.float y)) := by
  have hsome : alpha.toList ≠ [] := by
    intro hempty
    rw [String.toList_eq_nil_iff.1 hempty] at hy
    have hnone : looseDouble? "" = none := rfl
    exact Option.some_ne_none y (hy.symm.trans hnone)
  have hwords : Text.words (fun c => c == ',' || c == '/' || Text.isBlank c) (arguments r g b alpha) = _ :=
    words_arguments Nat.toDigits_ne_nil (areNumerals_digits r) Nat.toDigits_ne_nil (areNumerals_digits g)
      Nat.toDigits_ne_nil (areNumerals_digits b) hsome halpha
  have hread : percented? alpha.toList = some (y, false) := by
    rw [percented?_eq halpha, String.ofList_toList, hy]
    rfl
  rw [ofArguments?, hwords]
  simp only [channelOf?_digits hr, channelOf?_digits hg, channelOf?_digits hb, hread, Option.bind_eq_bind,
    Option.bind_some, Bool.false_eq_true, if_false, div_one_eq hfinite]
  rfl

/-- Whole channels and an alpha value that can be read are read back from the functional spelling. -/
theorem read_functional (hr : r < 256) (hg : g < 256) (hb : b < 256) (halpha : AreNumerals alpha.toList)
    (hy : looseDouble? alpha = some y) (hfinite : isFinite y = true) :
    read (.text (functional r g b alpha)) = .ok (some (ofWholes r g b (.float y))) := by
  have htrim : Text.trim Text.isBlank (functional r g b alpha).toList = (functional r g b alpha).toList := by
    refine Text.trim_eq_self_iff.2 ?_
    rw [functional_toList]
    refine ⟨fun c hc => by cases hc; rfl, fun c hc => ?_⟩
    simp only [List.getLast?_cons, List.getLast?_append, Option.getD_some] at hc
    cases hc
    rfl
  have hhex : hexDigits? ('r' :: 'g' :: 'b' :: 'a' :: '(' :: (arguments r g b alpha ++ [')'])) = none := rfl
  rw [read_text, htrim, functional_toList, hhex]
  show Except.ok ((rgbBody? _).bind ofArguments?) = _
  rw [rgbBody?_functional halpha, Option.bind_some, ofArguments?_eq hr hg hb halpha hy hfinite]

end Color

end Maquette
