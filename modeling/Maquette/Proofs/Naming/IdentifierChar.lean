/-
The characters of identifiers. What an identifier begins and goes on with is told by classes of
Unicode. Letters and all that has a numeric value go on with identifiers, but for some numerals, such as
fractions and superscripts, and one mark; what goes on with one begins one or is a digit. The capitals
and the small letters of a character of identifiers are such characters again, and all other characters
of names have neither.
-/
import Maquette.Proofs.Naming.Lettered

namespace Maquette.Text

/-! ## Ranges -/

/-- Whether all code points from one to another lie in a single range. -/
def Ranges.covers : Ranges → ℕ → ℕ → Bool
  | [], _, _ => false
  | r :: rest, a, b => r.1.ble a && (b.ble r.2 || r.2.blt a && Ranges.covers rest a b)

/-- Whether the ranges have no code point in common with others; both are gone through side by side. -/
def Ranges.apart : Ranges → Ranges → Bool
  | [], _ => true
  | r :: rest, others =>
    let above := others.dropWhile (·.2.blt r.1)
    above.head?.all (r.2.blt ·.1) && Ranges.apart rest above

section Ranges

variable {rs : Ranges} {a b n : ℕ}

theorem Ranges.has_of_covers (h : rs.covers a b = true) (ha : a ≤ n) (hb : n ≤ b) :
    rs.has n = true := by
  induction rs with
  | nil => cases h
  | cons r rest ih =>
    obtain ⟨lo, hi⟩ := r
    simp only [Ranges.covers, Bool.and_eq_true, Bool.or_eq_true, Nat.ble_eq, Nat.blt_eq] at h
    obtain ⟨hlo, hhi⟩ := h
    rw [Ranges.has, if_neg (by omega)]
    rcases hhi with hhi | ⟨hhi, hrest⟩
    · rw [if_pos (by omega)]
    · rw [if_neg (by omega), ih hrest]

theorem Ranges.exists_of_has (h : rs.has n = true) : ∃ r ∈ rs, r.1 ≤ n ∧ n ≤ r.2 := by
  induction rs with
  | nil => cases h
  | cons r rest ih =>
    unfold Ranges.has at h
    split at h
    · cases h
    · split at h
      · exact ⟨r, List.mem_cons_self, by omega, by assumption⟩
      · obtain ⟨r', hr', hn⟩ := ih h
        exact ⟨r', List.mem_cons_of_mem _ hr', hn⟩

/-- Ranges that end before a code point do not hold it. -/
theorem Ranges.has_dropWhile (ha : a ≤ n) (h : rs.has n = true) :
    Ranges.has (rs.dropWhile (·.2.blt a)) n = true := by
  induction rs with
  | nil => cases h
  | cons r rest ih =>
    by_cases hr : r.2.blt a = true
    · rw [List.dropWhile_cons, if_pos hr]
      rw [Nat.blt_eq] at hr
      unfold Ranges.has at h
      split at h
      · cases h
      · rw [if_neg (by omega)] at h
        exact ih h
    · rwa [List.dropWhile_cons, if_neg hr]

theorem Ranges.not_has_of_apart {others : Ranges} (h : rs.apart others = true)
    (hn : rs.has n = true) : others.has n = false := by
  rw [← Bool.not_eq_true]
  intro hother
  induction rs generalizing others with
  | nil => cases hn
  | cons r rest ih =>
    obtain ⟨habove, hrest⟩ := Bool.and_eq_true_iff.1 h
    unfold Ranges.has at hn
    split at hn
    · cases hn
    · have hother := has_dropWhile (a := r.1) (by omega) hother
      split at hn
      · -- what is left of the others begins above the range
        generalize others.dropWhile (·.2.blt r.1) = above at habove hother
        cases above with
        | nil => cases hother
        | cons s above =>
          obtain ⟨lo, hi⟩ := s
          simp only [List.head?_cons, Option.all_some, Nat.blt_eq] at habove
          rw [Ranges.has, if_pos (by omega)] at hother
          cases hother
      · exact ih hrest hn hother

/-- A code point of a span that is apart from ranges. -/
theorem Ranges.not_has_of_span (h : Ranges.apart [(a, b)] rs = true) (ha : a ≤ n) (hb : n ≤ b) :
    rs.has n = false := by
  refine not_has_of_apart h ?_
  rw [Ranges.has, if_neg (by omega), if_pos hb]

end Ranges

/-! ## Characters of identifiers -/

/-- Letter numbers: the category Nl of Unicode 14. -/
def letterNumberRanges : Ranges :=
  [(5870, 5872), (8544, 8578), (8581, 8584), (12295, 12295), (12321, 12329), (12344, 12346),
   (42726, 42735), (65856, 65908), (66369, 66369), (66378, 66378), (66513, 66517), (74752, 74862)]

/-- Combining marks: the categories Mn and Mc. -/
def markRanges : Ranges :=
  [(768, 879), (1155, 1159), (1425, 1469), (1471, 1471), (1473, 1474), (1476, 1477), (1479, 1479),
   (1552, 1562), (1611, 1631), (1648, 1648), (1750, 1756), (1759, 1764), (1767, 1768), (1770, 1773),
   (1809, 1809), (1840, 1866), (1958, 1968), (2027, 2035), (2045, 2045), (2070, 2073), (2075, 2083),
   (2085, 2087), (2089, 2093), (2137, 2139), (2200, 2207), (2250, 2273), (2275, 2307), (2362, 2364),
   (2366, 2383), (2385, 2391), (2402, 2403), (2433, 2435), (2492, 2492), (2494, 2500), (2503, 2504),
   (2507, 2509), (2519, 2519), (2530, 2531), (2558, 2558), (2561, 2563), (2620, 2620), (2622, 2626),
   (2631, 2632), (2635, 2637), (2641, 2641), (2672, 2673), (2677, 2677), (2689, 2691), (2748, 2748),
   (2750, 2757), (2759, 2761), (2763, 2765), (2786, 2787), (2810, 2815), (2817, 2819), (2876, 2876),
   (2878, 2884), (2887, 2888), (2891, 2893), (2901, 2903), (2914, 2915), (2946, 2946), (3006, 3010),
   (3014, 3016), (3018, 3021), (3031, 3031), (3072, 3076), (3132, 3132), (3134, 3140), (3142, 3144),
   (3146, 3149), (3157, 3158), (3170, 3171), (3201, 3203), (3260, 3260), (3262, 3268), (3270, 3272),
   (3274, 3277), (3285, 3286), (3298, 3299), (3328, 3331), (3387, 3388), (3390, 3396), (3398, 3400),
   (3402, 3405), (3415, 3415), (3426, 3427), (3457, 3459), (3530, 3530), (3535, 3540), (3542, 3542),
   (3544, 3551), (3570, 3571), (3633, 3633), (3636, 3642), (3655, 3662), (3761, 3761), (3764, 3772),
   (3784, 3789), (3864, 3865), (3893, 3893), (3895, 3895), (3897, 3897), (3902, 3903), (3953, 3972),
   (3974, 3975), (3981, 3991), (3993, 4028), (4038, 4038), (4139, 4158), (4182, 4185), (4190, 4192),
   (4194, 4196), (4199, 4205), (4209, 4212), (4226, 4237), (4239, 4239), (4250, 4253), (4957, 4959),
   (5906, 5909), (5938, 5940), (5970, 5971), (6002, 6003), (6068, 6099), (6109, 6109), (6155, 6157),
   (6159, 6159), (6277, 6278), (6313, 6313), (6432, 6443), (6448, 6459), (6679, 6683), (6741, 6750),
   (6752, 6780), (6783, 6783), (6832, 6845), (6847, 6862), (6912, 6916), (6964, 6980), (7019, 7027),
   (7040, 7042), (7073, 7085), (7142, 7155), (7204, 7223), (7376, 7378), (7380, 7400), (7405, 7405),
   (7412, 7412), (7415, 7417), (7616, 7679), (8400, 8412), (8417, 8417), (8421, 8432),
   (11503, 11505), (11647, 11647), (11744, 11775), (12330, 12335), (12441, 12442), (42607, 42607),
   (42612, 42621), (42654, 42655), (42736, 42737), (43010, 43010), (43014, 43014), (43019, 43019),
   (43043, 43047), (43052, 43052), (43136, 43137), (43188, 43205), (43232, 43249), (43263, 43263),
   (43302, 43309), (43335, 43347), (43392, 43395), (43443, 43456), (43493, 43493), (43561, 43574),
   (43587, 43587), (43596, 43597), (43643, 43645), (43696, 43696), (43698, 43700), (43703, 43704),
   (43710, 43711), (43713, 43713), (43755, 43759), (43765, 43766), (44003, 44010), (44012, 44013),
   (64286, 64286), (65024, 65039), (65056, 65071), (66045, 66045), (66272, 66272), (66422, 66426),
   (68097, 68099), (68101, 68102), (68108, 68111), (68152, 68154), (68159, 68159), (68325, 68326),
   (68900, 68903), (69291, 69292), (69446, 69456), (69506, 69509), (69632, 69634), (69688, 69702),
   (69744, 69744), (69747, 69748), (69759, 69762), (69808, 69818), (69826, 69826), (69888, 69890),
   (69927, 69940), (69957, 69958), (70003, 70003), (70016, 70018), (70067, 70080), (70089, 70092),
   (70094, 70095), (70188, 70199), (70206, 70206), (70367, 70378), (70400, 70403), (70459, 70460),
   (70462, 70468), (70471, 70472), (70475, 70477), (70487, 70487), (70498, 70499), (70502, 70508),
   (70512, 70516), (70709, 70726), (70750, 70750), (70832, 70851), (71087, 71093), (71096, 71104),
   (71132, 71133), (71216, 71232), (71339, 71351), (71453, 71467), (71724, 71738), (71984, 71989),
   (71991, 71992), (71995, 71998), (72000, 72000), (72002, 72003), (72145, 72151), (72154, 72160),
   (72164, 72164), (72193, 72202), (72243, 72249), (72251, 72254), (72263, 72263), (72273, 72283),
   (72330, 72345), (72751, 72758), (72760, 72767), (72850, 72871), (72873, 72886), (73009, 73014),
   (73018, 73018), (73020, 73021), (73023, 73029), (73031, 73031), (73098, 73102), (73104, 73105),
   (73107, 73111), (73459, 73462), (92912, 92916), (92976, 92982), (94031, 94031), (94033, 94087),
   (94095, 94098), (94180, 94180), (94192, 94193), (113821, 113822), (118528, 118573),
   (118576, 118598), (119141, 119145), (119149, 119154), (119163, 119170), (119173, 119179),
   (119210, 119213), (119362, 119364), (121344, 121398), (121403, 121452), (121461, 121461),
   (121476, 121476), (121499, 121503), (121505, 121519), (122880, 122886), (122888, 122904),
   (122907, 122913), (122915, 122916), (122918, 122922), (123184, 123190), (123566, 123566),
   (123628, 123631), (125136, 125142), (125252, 125258), (917760, 917999)]

/-- Connector punctuation: the category Pc. -/
def connectorRanges : Ranges :=
  [(95, 95), (8255, 8256), (8276, 8276), (65075, 65076), (65101, 65103), (65343, 65343)]

/-- Decimal digits: the category Nd. -/
def decimalRanges : Ranges := decimalZeros.map fun z => (z, z + 9)

/-- What begins an identifier without being a letter or a letter number: the property
Other_ID_Start. -/
def addedStarts : Ranges := [(0x1885, 0x1886), (0x2118, 0x2118), (0x212e, 0x212e), (0x309b, 0x309c)]

/-- What goes on with an identifier and is none of these, marks, digits and connectors: the property
Other_ID_Continue. -/
def addedExtenders : Ranges := [(0xb7, 0xb7), (0x387, 0x387), (0x1369, 0x1371), (0x19da, 0x19da)]

/-- The code points of ID_Start: letters, letter numbers and a few more, without the vertical tilde, a
letter that counts as syntax. -/
def startCode (n : ℕ) : Bool :=
  (letterRanges.has n && n != 0x2e2f) || letterNumberRanges.has n ||
    addedStarts.has n

/-- What goes on with an identifier and need not begin one. -/
def extenders : List Ranges := [markRanges, decimalRanges, connectorRanges, addedExtenders]

/-- The code points of ID_Continue. -/
def continueCode (n : ℕ) : Bool := startCode n || extenders.any (·.has n)

def isIdStart (c : Char) : Bool := startCode c.toNat

def isIdContinue (c : Char) : Bool := continueCode c.toNat

theorem isIdContinue_of_isIdStart {c : Char} (h : isIdStart c = true) : isIdContinue c = true :=
  Bool.or_eq_true_iff.2 (.inl h)

theorem isIdContinue_of_isDigit {c : Char} (h : c.isDigit = true) : isIdContinue c = true := by
  have hdigits : Ranges.covers decimalRanges 48 57 = true := rfl
  obtain ⟨hlo, hhi⟩ := Bool.and_eq_true_iff.1 h
  refine Bool.or_eq_true_iff.2 (.inr (List.any_eq_true.2 ⟨decimalRanges, by simp [extenders], ?_⟩))
  exact Ranges.has_of_covers hdigits (of_decide_eq_true hlo) (of_decide_eq_true hhi)

/-- All code points from one to another are letters, or all are letter numbers. -/
def startSpan (a b : ℕ) : Bool :=
  letterRanges.covers a b && (b.blt 0x2e2f || Nat.blt 0x2e2f a) || letterNumberRanges.covers a b

theorem startCode_of_span {a b n : ℕ} (h : startSpan a b = true) (ha : a ≤ n) (hb : n ≤ b) :
    startCode n = true := by
  unfold startCode
  rw [Bool.or_eq_true, Bool.or_eq_true]
  rcases Bool.or_eq_true_iff.1 h with h | h
  · obtain ⟨hcovers, hapart⟩ := Bool.and_eq_true_iff.1 h
    simp only [Bool.or_eq_true, Nat.blt_eq] at hapart
    refine .inl (.inl (Bool.and_eq_true_iff.2 ⟨Ranges.has_of_covers hcovers ha hb, ?_⟩))
    rw [bne_iff_ne]
    omega
  · exact .inl (.inr (Ranges.has_of_covers h ha hb))

/-- What goes on with an identifier and does not begin one is a digit, or no letter or numeral. -/
theorem extenders_apart : (extenders.all fun rs => rs.apart alphanumericRanges || rs.all fun r =>
    digitRanges.covers r.1 r.2 || Ranges.apart [r] alphanumericRanges) = true := by decide +kernel

/-- What begins an identifier is no digit. -/
theorem isDigit_of_isIdStart {c : Char} (h : isIdStart c = true) : isDigit c = false := by
  have hletters : letterRanges.apart digitRanges = true := by decide +kernel
  have hnumbers : letterNumberRanges.apart digitRanges = true := by decide +kernel
  have hadded : addedStarts.apart digitRanges = true := by decide +kernel
  rcases Bool.or_eq_true_iff.1 h with h | h
  · rcases Bool.or_eq_true_iff.1 h with h | h
    · exact Ranges.not_has_of_apart hletters (Bool.and_eq_true_iff.1 h).1
    · exact Ranges.not_has_of_apart hnumbers h
  · exact Ranges.not_has_of_apart hadded h

/-- A letter or numeral that goes on with an identifier begins one, or is a digit. -/
theorem isIdStart_or_isDigit {c : Char} (h : isAlphanumeric c = true) (hc : isIdContinue c = true) :
    isIdStart c = true ∨ isDigit c = true := by
  rcases Bool.or_eq_true_iff.1 hc with hc | hc
  · exact .inl hc
  · obtain ⟨rs, hrs, hc⟩ := List.any_eq_true.1 hc
    refine .inr ?_
    rcases Bool.or_eq_true_iff.1 (List.all_eq_true.1 extenders_apart rs hrs) with hapart | hall
    · have := Ranges.not_has_of_apart hapart hc
      rw [isAlphanumeric, this] at h
      cases h
    · obtain ⟨r, hr, hlo, hhi⟩ := Ranges.exists_of_has hc
      rcases Bool.or_eq_true_iff.1 (List.all_eq_true.1 hall r hr) with hdigit | hapart
      · exact Ranges.has_of_covers hdigit hlo hhi
      · have := Ranges.not_has_of_span hapart hlo hhi
        rw [isAlphanumeric, this] at h
        cases h

/-! ## Capitals and small letters -/

/-- What a character is mapped to: itself, or characters of identifiers if it is one, of which the
first begins an identifier. -/
def Keeps (c : Char) (ds : List Char) : Prop :=
  ds = [c] ∨ isIdContinue c = true ∧ (∀ d ∈ ds, isIdContinue d = true) ∧
    ∃ d ∈ ds.head?, isIdStart d = true

/-- All code points from one to another are letters, letter numbers or marks. -/
def continueSpan (a b : ℕ) : Bool := startSpan a b || markRanges.covers a b

theorem continueCode_of_span {a b n : ℕ} (h : continueSpan a b = true) (ha : a ≤ n) (hb : n ≤ b) :
    continueCode n = true := by
  unfold continueCode
  rw [Bool.or_eq_true]
  rcases Bool.or_eq_true_iff.1 h with h | h
  · exact .inl (startCode_of_span h ha hb)
  · exact .inr (List.any_eq_true.2 ⟨markRanges, List.mem_cons_self, Ranges.has_of_covers h ha hb⟩)

/-- No code point from one to another is a letter, a numeral or goes on with an identifier. -/
def otherSpan (a b : ℕ) : Bool :=
  (alphanumericRanges :: letterRanges :: letterNumberRanges :: addedStarts :: extenders).all
    (Ranges.apart [(a, b)] ·)

theorem not_continueCode_of_span {a b n : ℕ} (h : otherSpan a b = true) (ha : a ≤ n) (hb : n ≤ b) :
    alphanumericRanges.has n = false ∧ continueCode n = false := by
  have hall : ∀ rs ∈ alphanumericRanges :: letterRanges :: letterNumberRanges :: addedStarts ::
      extenders, rs.has n = false := fun rs hrs =>
    Ranges.not_has_of_span (List.all_eq_true.1 h rs hrs) ha hb
  simp only [List.forall_mem_cons] at hall
  obtain ⟨halphanumeric, hletter, hnumber, hadded, hextenders⟩ := hall
  refine ⟨halphanumeric, ?_⟩
  rw [continueCode, startCode, hletter, hnumber, hadded, Bool.false_and, Bool.or_false, Bool.or_false,
    Bool.false_or, List.any_eq_false]
  exact fun rs hrs => by simp [hextenders rs hrs]

/-- All code points from one to another go on with identifiers and are moved to some that begin them,
or none of them stands in names or identifiers. -/
def keepsSpan (shift : ℤ) (a b : ℕ) : Bool :=
  continueSpan a b && startSpan (a + shift).toNat (b + shift).toNat &&
    (decide (b + shift < 0xd800) || decide (0xdfff < a + shift) && decide (b + shift < 0x110000)) ||
    otherSpan a b

/-- This is so for a whole run, or for each code point of it on its own. -/
def CaseRun.keeps (run : CaseRun) : Bool :=
  keepsSpan run.shift run.first run.last ||
    (List.range' run.first (run.last + 1 - run.first)).all fun n =>
      (n - run.first) % run.step != 0 || keepsSpan run.shift n n

theorem CaseRun.keepsSpan_of_keeps {run : CaseRun} (h : run.keeps = true) {n : ℕ}
    (hfirst : run.first ≤ n) (hlast : n ≤ run.last) (hstep : (n - run.first) % run.step = 0) :
    ∃ a b, a ≤ n ∧ n ≤ b ∧ keepsSpan run.shift a b = true := by
  rcases Bool.or_eq_true_iff.1 h with h | h
  · exact ⟨run.first, run.last, hfirst, hlast, h⟩
  · have hmem : n ∈ List.range' run.first (run.last + 1 - run.first) :=
      List.mem_range'_1.2 ⟨hfirst, by omega⟩
    have hn := List.all_eq_true.1 h n hmem
    rw [hstep] at hn
    exact ⟨n, n, le_rfl, le_rfl, hn⟩

/-- A code point that goes on with an identifier, and others that do; the first of them begins one. -/
def keepsExpansion (row : ℕ × List ℕ) : Bool :=
  continueSpan row.1 row.1 && row.2.all (fun n => n.blt 0xd800 && continueSpan n n) &&
    row.2.head?.any fun n => startSpan n n

section Mappings

variable {c : Char} {ds : List Char}

theorem Keeps.continue_iff (h : Keeps c ds) :
    (∀ d ∈ ds, isIdContinue d = true) ↔ isIdContinue c = true := by
  rcases h with rfl | ⟨hc, hds, -⟩
  · exact List.forall_mem_singleton
  · exact ⟨fun _ => hc, fun _ => hds⟩

/-- The first character of what is mapped to. -/
theorem Keeps.head (h : Keeps c ds) :
    ∃ d rest, ds = d :: rest ∧ (d = c ∨ isIdContinue c = true ∧ isIdStart d = true) := by
  rcases h with rfl | ⟨hc, -, d, hd, hstart⟩
  · exact ⟨c, [], rfl, .inl rfl⟩
  · obtain ⟨rest, hrest⟩ := List.head?_eq_some_iff.1 hd
    exact ⟨d, rest, hrest, .inr ⟨hc, hstart⟩⟩

theorem mapCase_keeps {runs : List CaseRun} {expansions : List (ℕ × List ℕ)}
    (hr : runs.all CaseRun.keeps = true) (he : expansions.all keepsExpansion = true)
    (hc : isAlphanumeric c = true ∨ isIdContinue c = true) : Keeps c (mapCase runs expansions c) := by
  unfold mapCase
  split
  · rename_i m hm
    obtain ⟨run, hrun, hfirst, hlast, hstep, rfl⟩ := exists_run hm
    obtain ⟨a, b, ha, hb, hspan⟩ :=
      CaseRun.keepsSpan_of_keeps (List.all_eq_true.1 hr run hrun) hfirst hlast hstep
    rcases Bool.or_eq_true_iff.1 hspan with h | h
    · simp only [Bool.and_eq_true, Bool.or_eq_true, decide_eq_true_eq] at h
      obtain ⟨⟨hsource, himage⟩, hvalid⟩ := h
      have hstart : isIdStart (Char.ofNat (c.toNat + run.shift).toNat) = true := by
        have hcode : (c.toNat + run.shift).toNat.isValidChar := by
          unfold Nat.isValidChar
          rcases hvalid with h | h <;> omega
        rw [isIdStart, Char.toNat_ofNat, if_pos hcode]
        exact startCode_of_span himage (by omega) (by omega)
      exact .inr ⟨continueCode_of_span hsource ha hb,
        List.forall_mem_singleton.2 (isIdContinue_of_isIdStart hstart), _, rfl, hstart⟩
    · -- such a character stands in no name
      obtain ⟨hother, hother'⟩ := not_continueCode_of_span h ha hb
      unfold isAlphanumeric isIdContinue at hc
      rw [hother, hother'] at hc
      rcases hc with hc | hc <;> cases hc
  · split
    · rename_i ns hns
      obtain ⟨k, hk, hm⟩ := Table.mem_of_lookup hns
      obtain rfl := eq_of_beq hk
      have hrow := List.all_eq_true.1 he _ hm
      unfold keepsExpansion at hrow
      simp only [Bool.and_eq_true, List.all_eq_true, Nat.blt_eq] at hrow
      obtain ⟨⟨hcode, hall⟩, hhead⟩ := hrow
      have hvalid : ∀ n ∈ ns, (Char.ofNat n).toNat = n := by
        intro n hn
        rw [Char.toNat_ofNat, if_pos (.inl (hall n hn).1)]
      refine .inr ⟨continueCode_of_span hcode le_rfl le_rfl, ?_, ?_⟩
      · refine List.forall_mem_map.2 fun n hn => ?_
        rw [isIdContinue, hvalid n hn]
        exact continueCode_of_span (hall n hn).2 le_rfl le_rfl
      · cases ns with
        | nil => cases hhead
        | cons n ns =>
          refine ⟨Char.ofNat n, rfl, ?_⟩
          rw [isIdStart, hvalid n List.mem_cons_self]
          exact startCode_of_span hhead le_rfl le_rfl
    · exact .inl rfl

theorem capitalChar_keeps (hc : isAlphanumeric c = true ∨ isIdContinue c = true) :
    Keeps c (capitalChar c) := mapCase_keeps (by decide +kernel) (by decide +kernel) hc

theorem smallFrom_keeps (hc : isAlphanumeric c = true ∨ isIdContinue c = true) :
    Keeps c (smallFrom [] [c]) := by
  rw [smallFrom, smallFrom, List.append_nil]
  split
  · rename_i hsigma
    obtain rfl := eq_of_beq hsigma
    exact .inr ⟨by decide, List.forall_mem_singleton.2 (by decide), _, rfl, by decide⟩
  · exact mapCase_keeps (by decide +kernel) (by decide +kernel) hc

end Mappings

end Maquette.Text
