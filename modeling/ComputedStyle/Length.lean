import ComputedStyle.Number.Decimal

/-!
Lengths in points.

A length is a multiple of `2 ^ -32` of a point, and every operation goes through thousandths of a
point, so that it gives the same value in whatever order and on whatever thread it runs. The range
is about two thousand million points either way; results beyond it stop at its ends.
-/

namespace ComputedStyle

open Number

/-- The range of 64-bit signed integers. -/
def word64 (n : Int) : Prop := -(2 ^ 63) ≤ n ∧ n < 2 ^ 63

instance (n : Int) : Decidable (word64 n) := inferInstanceAs (Decidable (_ ∧ _))

/-- The 64-bit signed integer nearest to `n`. -/
def clampWord64 (n : Int) : Int :=
  max (-(2 ^ 63)) (min n (2 ^ 63 - 1))

theorem word64_clampWord64 (n : Int) : word64 (clampWord64 n) := by
  unfold word64 clampWord64
  omega

structure Length where
  /-- The length in units of `2 ^ -32` of a point. -/
  bits : Int
  inRange : word64 bits
deriving DecidableEq

namespace Length

theorem ext {x y : Length} (h : x.bits = y.bits) : x = y := by
  cases x
  cases y
  simp_all

def zero : Length := ⟨0, by decide⟩

instance : Inhabited Length := ⟨zero⟩

/-- The quotient nearest to `n / d`, a tie going away from zero. -/
def divNearest (n d : Int) : Int :=
  Int.tdiv (if 0 ≤ n then n + d / 2 else n - d / 2) d

/-- The length of a number of thousandths of a point. -/
def ofMilli (milli : Int) : Length :=
  ⟨clampWord64 (divNearest (milli * 2 ^ 32) 1000), word64_clampWord64 _⟩

/-- The length in thousandths of a point, to the nearest. -/
def milli (x : Length) : Int :=
  divNearest (x.bits * 1000) (2 ^ 32)

/-- The length nearest to a number of points, to a thousandth; zero for what is not finite. -/
def ofPoints (value : Single) : Length :=
  match value.scaled? 1000 with
  | some n => ofMilli (clampWord64 n)
  | none => zero

/-- The number of points, as near as a single can be. -/
def points (x : Length) : Single :=
  .ofRatio (x.bits < 0) x.bits.natAbs (2 ^ 32)

def add (x y : Length) : Length :=
  ofMilli (clampWord64 (x.milli + y.milli))

def sub (x y : Length) : Length :=
  ofMilli (clampWord64 (x.milli - y.milli))

/-- A multiple; zero when the factor is not finite. -/
def scale (x : Length) (factor : Single) : Length :=
  if factor.isFinite then ofPoints (x.points * factor) else zero

instance : Zero Length := ⟨zero⟩
instance : Add Length := ⟨add⟩
instance : Sub Length := ⟨sub⟩
instance : LE Length := ⟨fun x y => x.bits ≤ y.bits⟩
instance : LT Length := ⟨fun x y => x.bits < y.bits⟩
instance (x y : Length) : Decidable (x ≤ y) := inferInstanceAs (Decidable (x.bits ≤ y.bits))
instance (x y : Length) : Decidable (x < y) := inferInstanceAs (Decidable (x.bits < y.bits))

instance : Max Length := ⟨fun x y => if y ≤ x then x else y⟩

def isPositive (x : Length) : Bool :=
  0 < x.milli

/-- Adds from the left. -/
def sum (xs : List Length) : Length :=
  xs.foldl add zero

/-- Whole points without places, all else with three. -/
def text (x : Length) : String :=
  let n := x.milli
  if n % 1000 = 0 then toString (n / 1000) ++ "pt"
  else fixedPoint 3 (n < 0) n.natAbs ++ "pt"

end Length

end ComputedStyle
