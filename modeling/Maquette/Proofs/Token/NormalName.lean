/-
Normalized names. What is left of a name are its words: the runs of small letters and digits between
separators and hyphens, without the characters that are dropped. A normalized name is these words with
hyphens between them, so two names are normalized alike exactly if they have the same words, and a name
without words is normalized to the empty one.
-/
import Maquette.Proofs.Css.Printed
import Maquette.Token.Basic
import Maquette.Token.Match

namespace Maquette.Token

/-! ## Words -/

/-- A character that parts the words of a name. -/
def isBoundary (c : Char) : Bool := isSeparator c || c == '-'

/-- The words that are left of a name. -/
def nameWords (name : String) : List (List Char) :=
  Text.words isBoundary
    ((Text.smallFrom [] name.toList).filter fun c => isSeparator c || isNameMark c)

theorem mem_nameWords {name : String} {w : List Char} (h : w ∈ nameWords name) :
    w ≠ [] ∧ ∀ c ∈ w, isBoundary c = false ∧ Css.isSegmentChar c = true := by
  obtain ⟨hw, hchars⟩ := Text.mem_words h
  refine ⟨hw, fun c hc => ⟨(hchars c hc).1, ?_⟩⟩
  obtain ⟨hboundary, hmem⟩ := hchars c hc
  have hkept := (List.mem_filter.1 hmem).2
  unfold isBoundary at hboundary
  rw [Bool.or_eq_false_iff] at hboundary
  rw [hboundary.1, Bool.false_or, isNameMark, hboundary.2, Bool.or_false] at hkept
  exact hkept

/-- Separators as hyphens, one for a run of them, part the same words. Behind a separator those that
follow are passed over, which changes what the text begins with. -/
theorem words_fused (cs : List Char) (inRun : Bool) :
    let fused := (Text.fuse isSeparator '-' inRun cs).filter isNameMark
    let kept := cs.filter fun c => isSeparator c || isNameMark c
    Text.words (· == '-') fused = Text.words isBoundary kept ∧
      (inRun = false →
        ((∀ d ∈ fused.head?, (d == '-') = true) ↔ ∀ d ∈ kept.head?, isBoundary d = true)) := by
  have hhyphen : isNameMark '-' = true := by decide
  induction cs generalizing inRun with
  | nil => exact ⟨rfl, fun _ => by simp [Text.fuse]⟩
  | cons c cs ih =>
    simp only [Text.fuse, List.filter_cons]
    by_cases hsep : isSeparator c = true
    · have hboundary : isBoundary c = true := by rw [isBoundary, hsep, Bool.true_or]
      have hrest := (ih true).1
      cases inRun with
      | true =>
        -- only the first separator of a run leaves a hyphen
        simp only [hsep, Bool.true_or, if_true]
        exact ⟨by rw [Text.words_sep hboundary, hrest], fun h => absurd h (by decide)⟩
      | false =>
        simp only [hsep, Bool.true_or, if_true, Bool.false_eq_true, if_false, List.filter_cons,
          hhyphen]
        refine ⟨?_, fun _ => by simp [hboundary]⟩
        rw [Text.words_sep hboundary, Text.words_sep (p := (· == '-')) rfl, hrest]
    · obtain ⟨hwords, hheads⟩ := ih false
      have hcode : isSeparator c = false := by simpa using hsep
      have hboundary : isBoundary c = (c == '-') := by rw [isBoundary, hcode, Bool.false_or]
      simp only [hcode, Bool.false_or, Bool.false_eq_true, if_false, List.filter_cons]
      by_cases hmark : isNameMark c = true
      · -- a hyphen parts words on both sides, and any other character goes on with one
        rw [if_pos hmark, if_pos hmark]
        refine ⟨?_, fun _ => by simp [hboundary]⟩
        cases hc : (c == '-') with
        | true =>
          rw [Text.words_sep (p := (· == '-')) hc, Text.words_sep (hboundary.trans hc), hwords]
        | false => exact Text.words_cons_congr hc (hboundary.trans hc) hwords (hheads rfl)
      · rw [if_neg hmark, if_neg hmark]
        exact ⟨hwords, fun _ => hheads rfl⟩

/-! ## Names -/

/-- A normalized name is the words of the name with hyphens between them. -/
theorem toList_normalized (name : String) :
    (normalized name).toList = ['-'].intercalate (nameWords name) := by
  rw [normalized, String.toList_ofList, Text.trim_squeeze, (words_fused _ false).1]
  rfl

/-- Names are normalized alike exactly if they have the same words. -/
theorem normalized_inj {a b : String} : normalized a = normalized b ↔ nameWords a = nameWords b := by
  have hwords : ∀ name, Text.words isBoundary (normalized name).toList = nameWords name := by
    intro name
    rw [toList_normalized]
    refine Text.words_intercalate (by decide) fun w hw => ?_
    exact ⟨(mem_nameWords hw).1, fun c hc => ((mem_nameWords hw).2 c hc).1⟩
  constructor
  · intro h
    rw [← hwords a, ← hwords b, h]
  · intro h
    rw [← String.toList_inj, toList_normalized, toList_normalized, h]

theorem normalized_eq_empty {name : String} : normalized name = "" ↔ nameWords name = [] := by
  rw [← String.toList_eq_nil_iff, toList_normalized]
  exact Text.intercalate_eq_nil fun w hw => (mem_nameWords hw).1

/-! ## Properties -/

/-- The custom property of a token. -/
def property (t : Token) : String := "--" ++ normalized t.name

theorem toList_property (t : Token) : t.property.toList = '-' :: '-' :: (normalized t.name).toList := by
  rw [property, String.toList_append]
  rfl

theorem property_inj {t u : Token} : t.property = u.property ↔ nameWords t.name = nameWords u.name := by
  rw [← normalized_inj, ← String.toList_inj, toList_property, toList_property, List.cons.injEq,
    List.cons.injEq, ← @String.toList_inj (normalized t.name)]
  simp

theorem property_eq_bare {t : Token} : t.property = "--" ↔ nameWords t.name = [] := by
  rw [← normalized_eq_empty, ← String.toList_inj, toList_property, ← String.toList_eq_nil_iff]
  exact ⟨fun h => (List.cons.inj (List.cons.inj h).2).2, fun h => by rw [h]; rfl⟩

theorem isProperty (t : Token) : Css.IsProperty t.property := by
  constructor
  · rw [Ne, ← String.toList_eq_nil_iff, toList_property]
    exact List.cons_ne_nil _ _
  · rw [toList_property]
    have hhyphen : Css.isPropertyChar '-' = true := by decide
    refine List.forall_mem_cons.2 ⟨hhyphen, List.forall_mem_cons.2 ⟨hhyphen, fun c hc => ?_⟩⟩
    rw [toList_normalized] at hc
    rcases Text.mem_intercalate hc with rfl | ⟨w, hw, hcw⟩
    · exact hhyphen
    · rw [Css.isPropertyChar, ((mem_nameWords hw).2 c hcw).2, Bool.true_or]

end Maquette.Token
