import Mathlib
import ComputedStyle.Length.Units
import ComputedStyle.Proofs.Length

/-!
Signs of lengths.

No operation on numbers makes a negative number of numbers that are not negative, and none of them
drops a sign. So a length is read as a negative one only if its text starts with a minus sign, or if a
length that it is relative to is negative.
-/

namespace ComputedStyle

open Number

namespace Number

namespace Binary

variable {format : Format} {x y : Binary format}

theorem isNegative_round (negative : Bool) (numerator denominator : Nat) :
    (round format negative numerator denominator).isNegative = negative := by
  unfold round
  dsimp only
  split
  · rfl
  · rfl

@[simp] theorem isNegative_ofRatio (negative : Bool) (numerator denominator : Nat) :
    (ofRatio negative numerator denominator : Binary format).isNegative = negative :=
  isNegative_round negative _ denominator

@[simp] theorem isNegative_ofNat (n : Nat) : (ofNat n : Binary format).isNegative = false := by
  rw [ofNat, isNegative_ofRatio]

theorem isNegative_mul (first : x.isNegative = false) (second : y.isNegative = false) :
    (x * y).isNegative = false := by
  change (mul x y).isNegative = false
  cases x with
  | nan => rfl
  | infinite a =>
      cases first
      cases y with
      | nan => rfl
      | infinite b =>
          cases second
          rfl
      | finite b n =>
          cases second
          rw [mul]
          split
          · rfl
          · rfl
  | finite a m =>
      cases first
      cases y with
      | nan => rfl
      | infinite b =>
          cases second
          rw [mul]
          split
          · rfl
          · rfl
      | finite b n =>
          cases second
          exact isNegative_round _ _ _

theorem isNegative_div (first : x.isNegative = false) (second : y.isNegative = false) :
    (x / y).isNegative = false := by
  change (div x y).isNegative = false
  cases x with
  | nan => rfl
  | infinite a =>
      cases first
      cases y with
      | nan => rfl
      | infinite b => rfl
      | finite b n =>
          cases second
          rfl
  | finite a m =>
      cases first
      cases y with
      | nan => rfl
      | infinite b =>
          cases second
          rfl
      | finite b n =>
          cases second
          rw [div]
          split
          · split
            · rfl
            · rfl
          · exact isNegative_round _ _ _

theorem scaled?_nonneg {scale : Nat} {n : Int} (unsigned : x.isNegative = false)
    (found : x.scaled? scale = some n) : 0 ≤ n := by
  cases x with
  | nan => cases found
  | infinite a => cases found
  | finite a m =>
      cases unsigned
      cases found
      exact Int.natCast_nonneg _

end Binary

namespace Decimal

theorem isNegative_toBinary (format : Format) (d : Decimal) :
    (d.toBinary format).isNegative = d.negative := by
  unfold toBinary
  dsimp only
  split
  · rfl
  · split
    · rfl
    · split
      · rfl
      · split
        · exact Binary.isNegative_ofRatio _ _ _
        · exact Binary.isNegative_ofRatio _ _ _

theorem takeSign_of_unsigned {s : List Char} (unsigned : s.head? ≠ some '-') :
    (takeSign s).1 = false := by
  unfold takeSign
  split
  · exact absurd rfl unsigned
  · rfl
  · rfl

theorem negative_of_read {s : List Char} {d : Decimal} (unsigned : s.head? ≠ some '-')
    (found : read? s = some d) : d.negative = false := by
  have sign := takeSign_of_unsigned unsigned
  unfold read? at found
  dsimp only at found
  rw [sign] at found
  split at found <;> dsimp only at found
  all_goals
    split at found
    · cases found
    · split at found
      · cases found
        rfl
      · split at found
        · obtain ⟨power, -, rfl⟩ := Option.map_eq_some_iff.1 found
          rfl
        · cases found

end Decimal

end Number

/-- No length that others are relative to is negative. -/
structure LengthContext.IsNonneg (context : LengthContext) : Prop where
  parent : ∀ size ∈ context.parentFontSize, Length.zero ≤ size
  root : ∀ size ∈ context.rootFontSize, Length.zero ≤ size
  base : ∀ size ∈ context.percentageBase, Length.zero ≤ size

namespace Length

theorem zero_le_ofPoints {value : Single} (unsigned : value.isNegative = false) :
    zero ≤ ofPoints value := by
  unfold ofPoints
  cases scaled : value.scaled? 1000 with
  | none => exact Int.le_refl 0
  | some n =>
      have nonneg : 0 ≤ clampWord64 n := by
        have := Binary.scaled?_nonneg unsigned scaled
        unfold clampWord64
        omega
      exact ofMilli_mono nonneg

theorem isNegative_points {size : Length} (nonneg : zero ≤ size) :
    size.points.isNegative = false := by
  have above : ¬size.bits < 0 := Int.not_lt.2 nonneg
  rw [points, Binary.isNegative_ofRatio]
  exact decide_eq_false above

theorem isNegative_getD {size : Option Length} {other : Single}
    (nonneg : ∀ own ∈ size, zero ≤ own) (unsigned : other.isNegative = false) :
    ((size.map points).getD other).isNegative = false := by
  cases size with
  | none => rwa [Option.map_none, Option.getD_none]
  | some own =>
      rw [Option.map_some, Option.getD_some]
      exact isNegative_points (nonneg own rfl)

end Length

namespace Quantity

variable {context : LengthContext} {q : Quantity}

theorem isNegative_points (nonneg : context.IsNonneg) (unsigned : q.value.isNegative = false) :
    (q.points context).isNegative = false := by
  have twelve : defaultFontPoints.isNegative = false := by
    rw [defaultFontPoints, Binary.isNegative_ofNat]
  have parent : context.parentFontPoints.isNegative = false := by
    rw [LengthContext.parentFontPoints]
    exact Length.isNegative_getD nonneg.parent twelve
  have root : context.rootFontPoints.isNegative = false := by
    rw [LengthContext.rootFontPoints]
    exact Length.isNegative_getD nonneg.root twelve
  have base : context.percentagePoints.isNegative = false := by
    rw [LengthContext.percentagePoints]
    exact Length.isNegative_getD nonneg.base rfl
  unfold points
  split
  · apply Binary.isNegative_mul unsigned
    rw [pointsPerPixel, Binary.isNegative_ofRatio]
  · exact Binary.isNegative_mul unsigned parent
  · exact Binary.isNegative_mul unsigned root
  · apply Binary.isNegative_div (Binary.isNegative_mul base unsigned)
    rw [Binary.isNegative_ofNat]
  · apply Binary.isNegative_mul unsigned
    rw [Binary.isNegative_ofNat]
  · apply Binary.isNegative_mul unsigned
    rw [Binary.isNegative_ofRatio]
  · apply Binary.isNegative_mul unsigned
    rw [Binary.isNegative_ofRatio]
  · apply Binary.isNegative_mul unsigned
    rw [Binary.isNegative_ofNat]
  · exact unsigned

theorem isNegative_read {raw : List Char} (unsigned : (Text.trim raw).head? ≠ some '-')
    (found : read? raw = some q) : q.value.isNegative = false := by
  unfold read? at found
  dsimp only at found
  split at found
  · split at found
    · next d number =>
        cases found
        have front : ((Text.trim raw).take (numeralLength (Text.trim raw))).head? ≠ some '-' := by
          intro minus
          rw [List.head?_take] at minus
          split at minus
          · cases minus
          · exact unsigned minus
        rw [Decimal.isNegative_toBinary]
        exact Decimal.negative_of_read front number
    · cases found
  · cases found

end Quantity

theorem Length.zero_le_read {context : LengthContext} {raw : String} {size : Length}
    (nonneg : context.IsNonneg) (unsigned : (Text.trim raw.toList).head? ≠ some '-')
    (found : Length.read? context raw = some size) : Length.zero ≤ size := by
  obtain ⟨q, read, rfl⟩ := Option.map_eq_some_iff.1 found
  apply Length.zero_le_ofPoints
  apply Quantity.isNegative_points nonneg
  exact Quantity.isNegative_read unsigned read

end ComputedStyle
