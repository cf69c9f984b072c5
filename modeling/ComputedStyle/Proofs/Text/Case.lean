import Mathlib
import ComputedStyle.Text.Blank

namespace ComputedStyle.Text

theorem eq_of_toLower {c d : Char} (other : d.isAlpha = false) (same : c.toLower = d) : c = d := by
  have upper : c.isUpper = false := by
    have letter := Char.isAlpha_toLower_eq_isAlpha c
    rw [same, other, Char.isAlpha] at letter
    exact (Bool.or_eq_false_iff.1 letter.symm).1
  rwa [Char.toLower_eq_of_not_isUpper (Bool.eq_false_iff.1 upper)] at same

theorem not_mem_lower {s : List Char} {d : Char} (other : d.isAlpha = false) (free : d ∉ s) :
    d ∉ lower s := by
  intro member
  obtain ⟨c, held, same⟩ := List.mem_map.1 member
  rw [eq_of_toLower other same] at held
  exact free held

theorem toLower_of_isBlank {c : Char} (blank : isBlank c) : c.toLower = c := by
  refine Char.toLower_eq_of_not_isUpper fun upper => ?_
  simp only [isBlank, Bool.or_eq_true, Bool.and_eq_true, decide_eq_true_eq, beq_iff_eq] at blank
  simp only [Char.isUpper, ge_iff_le, decide_eq_true_eq, UInt32.le_iff_toNat_le] at upper
  have : c.toNat = c.val.toNat := rfl
  have : 'A'.val.toNat = 65 := rfl
  have : 'Z'.val.toNat = 90 := rfl
  omega

theorem isAlpha_of_isBlank {c : Char} (blank : isBlank c) : c.isAlpha = false := by
  simp only [isBlank, Bool.or_eq_true, Bool.and_eq_true, decide_eq_true_eq, beq_iff_eq] at blank
  simp only [Char.isAlpha, Char.isUpper, Char.isLower, Bool.or_eq_false_iff, Bool.and_eq_false_iff,
    decide_eq_false_iff_not, ge_iff_le, UInt32.le_iff_toNat_le]
  have : c.toNat = c.val.toNat := rfl
  have : 'A'.val.toNat = 65 := rfl
  have : 'Z'.val.toNat = 90 := rfl
  have : 'a'.val.toNat = 97 := rfl
  have : 'z'.val.toNat = 122 := rfl
  omega

theorem toLower_eq_iff {c d : Char} (other : d.isAlpha = false) : c.toLower = d ↔ c = d := by
  refine ⟨eq_of_toLower other, ?_⟩
  rintro rfl
  exact (eq_of_toLower (by rw [Char.isAlpha_toLower_eq_isAlpha, other]) rfl).symm

theorem isBlank_toLower (c : Char) : isBlank c.toLower = isBlank c := by
  cases blank : isBlank c with
  | true => rw [toLower_of_isBlank blank, blank]
  | false =>
      by_contra changed
      have other : isBlank c.toLower := Bool.eq_true_of_not_eq_false changed
      have same : c = c.toLower := eq_of_toLower (isAlpha_of_isBlank other) rfl
      rw [← same, blank] at other
      cases other

theorem lower_trim (s : List Char) : lower (trim s) = trim (lower s) := by
  have blanks : isBlank ∘ Char.toLower = isBlank := funext isBlank_toLower
  simp [lower, trim, trimLeft, trimRight, ← List.map_reverse, List.dropWhile_map, blanks]

end ComputedStyle.Text
