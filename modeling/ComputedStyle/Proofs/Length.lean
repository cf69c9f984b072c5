import Mathlib
import ComputedStyle.Length

namespace ComputedStyle

def word128 (n : Int) : Prop := -(2 ^ 127) ≤ n ∧ n < 2 ^ 127

namespace Length

section Nearest

variable {m n q d : Int}

theorem divNearest_of_nonneg (positive : 0 < d) (nonneg : 0 ≤ n) :
    divNearest n d = (n + d / 2) / d := by
  rw [divNearest, if_pos nonneg, Int.tdiv_eq_ediv_of_nonneg (by omega)]

theorem divNearest_of_neg (positive : 0 < d) (negative : n < 0) :
    divNearest n d = -((-n + d / 2) / d) := by
  have moved : n - d / 2 = -(-n + d / 2) := by omega
  rw [divNearest, if_neg (by omega), moved, Int.neg_tdiv, Int.tdiv_eq_ediv_of_nonneg (by omega)]

theorem divNearest_within (positive : 0 < d) (n : Int) :
    -d ≤ 2 * (n - d * divNearest n d) ∧ 2 * (n - d * divNearest n d) ≤ d := by
  have half {k : Int} : -d ≤ 2 * (k - d * ((k + d / 2) / d)) ∧
      2 * (k - d * ((k + d / 2) / d)) ≤ d := by
    have split := Int.mul_ediv_add_emod (k + d / 2) d
    have low := Int.emod_nonneg (k + d / 2) positive.ne'
    have high := Int.emod_lt_of_pos (k + d / 2) positive
    omega
  rcases le_or_gt 0 n with nonneg | negative
  · rw [divNearest_of_nonneg positive nonneg]
    exact half
  · rw [divNearest_of_neg positive negative, mul_neg]
    have mirrored := half (k := -n)
    omega

/-- Different quotients are a whole divisor apart, so a number that is off by less than half of it is
the quotient. -/
theorem divNearest_eq (positive : 0 < d) (above : -d < 2 * (n - d * q))
    (below : 2 * (n - d * q) < d) : divNearest n d = q := by
  obtain ⟨low, high⟩ := divNearest_within positive n
  rcases lt_trichotomy (divNearest n d) q with less | same | greater
  · have apart : d * (divNearest n d + 1) ≤ d * q := mul_le_mul_of_nonneg_left less positive.le
    rw [mul_add, mul_one] at apart
    omega
  · exact same
  · have apart : d * (q + 1) ≤ d * divNearest n d := mul_le_mul_of_nonneg_left greater positive.le
    rw [mul_add, mul_one] at apart
    omega

theorem divNearest_mono (positive : 0 < d) (le : m ≤ n) : divNearest m d ≤ divNearest n d := by
  by_contra above
  have first := (divNearest_within positive m).1
  have second := (divNearest_within positive n).2
  have apart : d * (divNearest n d + 1) ≤ d * divNearest m d :=
    mul_le_mul_of_nonneg_left (not_le.1 above) positive.le
  rw [mul_add, mul_one] at apart
  obtain rfl : m = n := by omega
  exact above le_rfl

end Nearest

/-- The ends of the range, in thousandths. -/
def milliLimit : Int :=
  2147483648000

def clampMilli (n : Int) : Int :=
  max (-milliLimit) (min n milliLimit)

def IsMilli (n : Int) : Prop :=
  -milliLimit ≤ n ∧ n ≤ milliLimit

instance (n : Int) : Decidable (IsMilli n) :=
  inferInstanceAs (Decidable (_ ∧ _))

theorem clampMilli_of_isMilli {n : Int} (inside : IsMilli n) : clampMilli n = n := by
  rw [clampMilli, min_eq_left inside.2, max_eq_right inside.1]

section Thousandths

variable {m n : Int} {x y : Length}

theorem clampWord64_of_word64 (inside : word64 n) : clampWord64 n = n := by
  unfold word64 clampWord64 at *
  omega

theorem ofMilli_of_ge (above : milliLimit ≤ m) : ofMilli m = ⟨2 ^ 63 - 1, by decide⟩ := by
  have near := divNearest_within (by decide : (0 : Int) < 1000) (m * 2 ^ 32)
  refine ext ?_
  unfold ofMilli clampWord64 milliLimit at *
  dsimp only
  omega

theorem ofMilli_of_le (below : m ≤ -milliLimit) : ofMilli m = ⟨-(2 ^ 63), by decide⟩ := by
  have near := divNearest_within (by decide : (0 : Int) < 1000) (m * 2 ^ 32)
  refine ext ?_
  unfold ofMilli clampWord64 milliLimit at *
  dsimp only
  omega

theorem milli_ofMilli (m : Int) : (ofMilli m).milli = clampMilli m := by
  rcases le_or_gt milliLimit m with above | notAbove
  · rw [ofMilli_of_ge above, clampMilli, min_eq_right above]
    rfl
  rcases le_or_gt m (-milliLimit) with below | notBelow
  · rw [ofMilli_of_le below, clampMilli, min_eq_left notAbove.le, max_eq_left below]
    rfl
  have near := divNearest_within (by decide : (0 : Int) < 1000) (m * 2 ^ 32)
  have inside : word64 (divNearest (m * 2 ^ 32) 1000) := by
    unfold word64 milliLimit at *
    omega
  have bits : (ofMilli m).bits = divNearest (m * 2 ^ 32) 1000 := clampWord64_of_word64 inside
  rw [clampMilli_of_isMilli ⟨notBelow.le, notAbove.le⟩, milli, bits]
  exact divNearest_eq (by decide) (by omega) (by omega)

theorem ofMilli_clampMilli (m : Int) : ofMilli (clampMilli m) = ofMilli m := by
  rcases le_or_gt milliLimit m with above | notAbove
  · rw [clampMilli, min_eq_right above, ofMilli_of_ge above]
    rfl
  rcases le_or_gt m (-milliLimit) with below | notBelow
  · rw [clampMilli, min_eq_left notAbove.le, max_eq_left below, ofMilli_of_le below]
    rfl
  · rw [clampMilli_of_isMilli ⟨notBelow.le, notAbove.le⟩]

theorem ofMilli_mono (le : m ≤ n) : ofMilli m ≤ ofMilli n := by
  have quotients : divNearest (m * 2 ^ 32) 1000 ≤ divNearest (n * 2 ^ 32) 1000 :=
    divNearest_mono (by decide) (mul_le_mul_of_nonneg_right le (by decide))
  exact max_le_max_left _ (min_le_min_right _ quotients)

theorem milli_mono (le : x ≤ y) : x.milli ≤ y.milli :=
  divNearest_mono (by decide) (mul_le_mul_of_nonneg_right le (by decide))

theorem isMilli_milli (x : Length) : IsMilli x.milli := by
  have lowest : milli ⟨-(2 ^ 63), by decide⟩ = -milliLimit := rfl
  have greatest : milli ⟨2 ^ 63 - 1, by decide⟩ = milliLimit := rfl
  have below : (⟨-(2 ^ 63), by decide⟩ : Length) ≤ x := x.inRange.1
  have above : x ≤ ⟨2 ^ 63 - 1, by decide⟩ := Int.le_sub_one_of_lt x.inRange.2
  exact ⟨lowest ▸ milli_mono below, greatest ▸ milli_mono above⟩

theorem word64_add_milli (x y : Length) :
    word64 (x.milli + y.milli) ∧ word64 (x.milli - y.milli) := by
  have first := x.isMilli_milli
  have second := y.isMilli_milli
  unfold word64 IsMilli milliLimit at *
  omega

theorem add_eq (x y : Length) : x + y = ofMilli (x.milli + y.milli) :=
  congrArg ofMilli (clampWord64_of_word64 (word64_add_milli x y).1)

theorem sub_eq (x y : Length) : x - y = ofMilli (x.milli - y.milli) :=
  congrArg ofMilli (clampWord64_of_word64 (word64_add_milli x y).2)

theorem milli_add (x y : Length) : (x + y).milli = clampMilli (x.milli + y.milli) := by
  rw [add_eq, milli_ofMilli]

theorem milli_sub (x y : Length) : (x - y).milli = clampMilli (x.milli - y.milli) := by
  rw [sub_eq, milli_ofMilli]

theorem milli_add_of_isMilli (inside : IsMilli (x.milli + y.milli)) :
    (x + y).milli = x.milli + y.milli := by
  rw [milli_add, clampMilli_of_isMilli inside]

theorem milli_sub_of_isMilli (inside : IsMilli (x.milli - y.milli)) :
    (x - y).milli = x.milli - y.milli := by
  rw [milli_sub, clampMilli_of_isMilli inside]

theorem milli_zero : milli zero = 0 :=
  rfl

theorem milli_max (x y : Length) : (max x y).milli = max x.milli y.milli := by
  change (if y ≤ x then x else y).milli = _
  split
  · next le => rw [max_eq_left (milli_mono le)]
  · next notLe =>
      have le : x ≤ y := (not_le.1 notLe : x.bits < y.bits).le
      rw [max_eq_right (milli_mono le)]

theorem milli_sum (xs : List Length) :
    (sum xs).milli = xs.foldl (fun total x => clampMilli (total + x.milli)) 0 := by
  suffices run : ∀ start : Length, (xs.foldl add start).milli =
      xs.foldl (fun total x => clampMilli (total + x.milli)) start.milli from run zero
  induction xs with
  | nil => exact fun _ => rfl
  | cons x rest ih =>
      intro start
      rw [List.foldl_cons, List.foldl_cons, ih, ← milli_add]
      rfl

end Thousandths

/-- What reading and arithmetic give. -/
inductive Made : Length → Prop where
  | ofMilli (m : Int) (inside : word64 m) : Made (ofMilli m)
  | ofPoints (value : Number.Single) : Made (ofPoints value)
  | add (x y : Length) : Made (x + y)
  | sub (x y : Length) : Made (x - y)
  | sum (xs : List Length) : Made (sum xs)

namespace Made

variable {x y : Length}

theorem exists_ofMilli (made : Made x) : ∃ m, x = Length.ofMilli m := by
  cases made with
  | ofMilli m _ => exact ⟨m, rfl⟩
  | ofPoints value =>
      unfold Length.ofPoints
      split
      · exact ⟨_, rfl⟩
      · exact ⟨0, rfl⟩
  | add x y => exact ⟨_, add_eq x y⟩
  | sub x y => exact ⟨_, sub_eq x y⟩
  | sum xs =>
      rcases List.eq_nil_or_concat xs with rfl | ⟨rest, last, rfl⟩
      · exact ⟨0, rfl⟩
      · rw [Length.sum, List.concat_eq_append, List.foldl_append]
        exact ⟨_, add_eq _ last⟩

theorem ofMilli_milli (made : Made x) : Length.ofMilli x.milli = x := by
  obtain ⟨m, rfl⟩ := made.exists_ofMilli
  rw [milli_ofMilli, ofMilli_clampMilli]

theorem le_iff (madeX : Made x) (madeY : Made y) : x ≤ y ↔ x.milli ≤ y.milli := by
  refine ⟨milli_mono, fun le => ?_⟩
  rw [← madeX.ofMilli_milli, ← madeY.ofMilli_milli]
  exact ofMilli_mono le

theorem eq_iff (madeX : Made x) (madeY : Made y) : x = y ↔ x.milli = y.milli := by
  refine ⟨congrArg milli, fun same => ?_⟩
  rw [← madeX.ofMilli_milli, same, madeY.ofMilli_milli]

theorem lt_iff (madeX : Made x) (madeY : Made y) : x < y ↔ x.milli < y.milli := by
  rw [← not_le, ← madeY.le_iff madeX]
  exact Int.not_le.symm

theorem zero : Made zero :=
  .ofMilli 0 (by decide)

theorem zero_add (made : Made x) : Length.zero + x = x := by
  rw [add_eq, milli_zero, Int.zero_add, made.ofMilli_milli]

theorem add_zero (made : Made x) : x + Length.zero = x := by
  rw [add_eq, milli_zero, Int.add_zero, made.ofMilli_milli]

theorem isPositive_iff (made : Made x) : x.isPositive ↔ Length.zero < x := by
  rw [zero.lt_iff made, isPositive, decide_eq_true_eq, milli_zero]

end Made

/-- All that a division to the nearest computes with is a 128-bit integer. -/
structure Wide (n d : Int) : Prop where
  dividend : word128 n
  moved : word128 (if 0 ≤ n then n + d / 2 else n - d / 2)
  quotient : word128 (divNearest n d)

theorem wide {n d : Int} (small : n.natAbs < 2 ^ 126) (positive : 0 < d) (few : d < 2 ^ 126) :
    Wide n d := by
  have moved : (if 0 ≤ n then n + d / 2 else n - d / 2).natAbs < 2 ^ 127 := by
    split <;> omega
  have inside {k : Int} (bound : k.natAbs < 2 ^ 127) : word128 k := by
    unfold word128
    omega
  refine ⟨inside (by omega), inside moved, inside ?_⟩
  exact (Int.natAbs_tdiv_le_natAbs _ _).trans_lt moved

theorem wide_ofMilli {m : Int} (inside : word64 m) : Wide (m * 2 ^ 32) 1000 := by
  unfold word64 at inside
  exact wide (by omega) (by decide) (by decide)

theorem wide_milli (x : Length) : Wide (x.bits * 1000) (2 ^ 32) := by
  obtain ⟨low, high⟩ := x.inRange
  exact wide (by omega) (by decide) (by decide)

theorem word64_milli (x : Length) : word64 x.milli := by
  have range := x.isMilli_milli
  unfold word64 IsMilli milliLimit at *
  omega

/-- A length is a number of thousandths: it gives back the one it is made of, up to the ends of the
range, is ordered by it, and adds and subtracts as it does. No integer that this is computed with leaves
its range, of 64 bits for thousandths and of 128 bits within a division. -/
theorem exact_thousandths :
    (∀ m, word64 m → (ofMilli m).milli = clampMilli m) ∧
    (∀ x, Made x → ofMilli x.milli = x ∧ (x.isPositive ↔ zero < x)) ∧
    (∀ x y, Made x → Made y →
      (x ≤ y ↔ x.milli ≤ y.milli) ∧ (x < y ↔ x.milli < y.milli) ∧ (x = y ↔ x.milli = y.milli) ∧
        (max x y).milli = max x.milli y.milli ∧
        (x + y).milli = clampMilli (x.milli + y.milli) ∧
        (x - y).milli = clampMilli (x.milli - y.milli)) ∧
    (∀ xs, sum xs = xs.foldl (· + ·) zero ∧
      (sum xs).milli = xs.foldl (fun total x => clampMilli (total + x.milli)) 0) ∧
    (∀ m, word64 m → Wide (m * 2 ^ 32) 1000) ∧
    (∀ x : Length, Wide (x.bits * 1000) (2 ^ 32) ∧ word64 x.milli) ∧
    ∀ x y : Length, word64 (x.milli + y.milli) ∧ word64 (x.milli - y.milli) := by
  refine ⟨fun m _ => milli_ofMilli m, fun x made => ⟨made.ofMilli_milli, made.isPositive_iff⟩, ?_,
    fun xs => ⟨rfl, milli_sum xs⟩, fun m => wide_ofMilli,
    fun x => ⟨wide_milli x, word64_milli x⟩, word64_add_milli⟩
  intro x y madeX madeY
  exact ⟨madeX.le_iff madeY, madeX.lt_iff madeY, madeX.eq_iff madeY, milli_max x y,
    milli_add x y, milli_sub x y⟩

/-- A sum that is stopped at the end of the range is still ordered by its thousandths. -/
theorem exact_thousandths_stopped :
    let last := ofMilli 2147483648000
    let beyond := last + ofMilli 1
    (word64 (2 ^ 62) ∧ (ofMilli (2 ^ 62)).milli = 2147483648000) ∧
      (Made last ∧ ofMilli last.milli = last) ∧
      (Made beyond ∧ beyond.milli = 2147483648000 ∧ beyond = last) ∧
      Wide ((2 ^ 62 : Int) * 2 ^ 32) 1000 := by
  intro last beyond
  have inside : word64 (2 ^ 62) := by decide
  have madeLast : Made last := .ofMilli _ (by decide)
  have madeBeyond : Made beyond := .add _ _
  obtain ⟨given, made, compared, -, wide, -⟩ := exact_thousandths
  have stopped : beyond.milli = 2147483648000 :=
    (compared last (ofMilli 1) madeLast (.ofMilli 1 (by decide))).2.2.2.2.1
  have same : beyond = last := (compared beyond last madeBeyond madeLast).2.2.1.2 stopped
  exact ⟨⟨inside, given _ inside⟩, ⟨madeLast, (made last madeLast).1⟩,
    ⟨madeBeyond, stopped, same⟩, wide _ inside⟩

end Length

end ComputedStyle
