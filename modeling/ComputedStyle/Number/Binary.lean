import ComputedStyle.Number.Power

/-!
Binary floating-point numbers, computed exactly and rounded once.

A finite number is a sign and a count of the format's smallest positive number, so sums, products
and quotients are exact fractions of integers; `Binary.round` takes such a fraction to the nearest
number of the format, a tie to the one with an even last digit.
-/

namespace ComputedStyle.Number

/-- A radix-two interchange format. -/
structure Format where
  /-- Significant binary digits. -/
  precision : Nat
  /-- The smallest positive number is `2 ^ -places`. -/
  places : Nat
  /-- Finite numbers are below `2 ^ limit`. -/
  limit : Nat

def Format.single : Format := ⟨24, 149, 128⟩

def Format.double : Format := ⟨53, 1074, 1024⟩

inductive Binary (format : Format) where
  | nan
  | infinite (negative : Bool)
  | finite (negative : Bool) (count : Nat)
deriving DecidableEq, Repr, Inhabited

abbrev Single := Binary .single
abbrev Double := Binary .double

/-- The integer nearest to `numerator / denominator`, a tie going to the even one. -/
def roundHalfEven (numerator denominator : Nat) : Nat :=
  let quotient := numerator / denominator
  let twice := 2 * (numerator % denominator)
  if twice < denominator then quotient
  else if denominator < twice then quotient + 1
  else quotient + quotient % 2

/-- The integer nearest to `numerator / denominator`, a tie going up. -/
def roundHalfUp (numerator denominator : Nat) : Nat :=
  (2 * numerator + denominator) / (2 * denominator)

namespace Binary

variable {format : Format}

def spacing (format : Format) (count : Nat) : Nat :=
  2 ^ (Nat.log2 count + 1 - format.precision)

/-- The number nearest to `numerator / denominator`, both counted in smallest numbers. -/
def round (format : Format) (negative : Bool) (numerator denominator : Nat) : Binary format :=
  let space := spacing format (numerator / denominator)
  let count := roundHalfEven numerator (denominator * space) * space
  if count < 2 ^ (format.limit + format.places) then .finite negative count
  else .infinite negative

/-- The number nearest to a fraction. -/
def ofRatio (negative : Bool) (numerator denominator : Nat) : Binary format :=
  round format negative (numerator * 2 ^ format.places) denominator

def ofNat (n : Nat) : Binary format :=
  ofRatio false n 1

def ofInt (n : Int) : Binary format :=
  ofRatio (n < 0) n.natAbs 1

def zero : Binary format := .finite false 0

/-- The greatest finite number. -/
def greatest : Binary format :=
  .finite false ((2 ^ format.precision - 1) * 2 ^ (format.limit + format.places - format.precision))

def isFinite : Binary format → Bool
  | .finite _ _ => true
  | _ => false

def isNaN : Binary format → Bool
  | .nan => true
  | _ => false

def isNegative : Binary format → Bool
  | .nan => false
  | .infinite negative => negative
  | .finite negative _ => negative

/-- The count of smallest numbers, with its sign; zero for what is not finite. -/
def units : Binary format → Int
  | .finite true count => -count
  | .finite false count => count
  | _ => 0

def neg : Binary format → Binary format
  | .nan => .nan
  | .infinite negative => .infinite !negative
  | .finite negative count => .finite (!negative) count

/-- A sum that is exactly zero is negative only when both terms are. -/
def add : Binary format → Binary format → Binary format
  | .nan, _ => .nan
  | _, .nan => .nan
  | .infinite a, .infinite b => if a == b then .infinite a else .nan
  | .infinite a, .finite _ _ => .infinite a
  | .finite _ _, .infinite b => .infinite b
  | .finite a m, .finite b n =>
      let total := units (.finite a m : Binary format) + units (.finite b n : Binary format)
      if total == 0 then .finite (a && b) 0
      else round format (total < 0) total.natAbs 1

def sub (x y : Binary format) : Binary format :=
  add x (neg y)

def mul : Binary format → Binary format → Binary format
  | .nan, _ => .nan
  | _, .nan => .nan
  | .infinite a, .infinite b => .infinite (a != b)
  | .infinite a, .finite b n => if n == 0 then .nan else .infinite (a != b)
  | .finite a m, .infinite b => if m == 0 then .nan else .infinite (a != b)
  | .finite a m, .finite b n => round format (a != b) (m * n) (2 ^ format.places)

def div : Binary format → Binary format → Binary format
  | .nan, _ => .nan
  | _, .nan => .nan
  | .infinite _, .infinite _ => .nan
  | .infinite a, .finite b _ => .infinite (a != b)
  | .finite a _, .infinite b => .finite (a != b) 0
  | .finite a m, .finite b n =>
      if n == 0 then (if m == 0 then .nan else .infinite (a != b))
      else round format (a != b) (m * 2 ^ format.places) n

/-- What remains of `x` once the multiples of `y` towards zero are taken out; it has the sign of
`x`. -/
def rem : Binary format → Binary format → Binary format
  | .nan, _ => .nan
  | _, .nan => .nan
  | .infinite _, _ => .nan
  | x, .infinite _ => x
  | .finite a m, .finite _ n => if n == 0 then .nan else .finite a (m % n)

instance : Neg (Binary format) := ⟨neg⟩
instance : Add (Binary format) := ⟨add⟩
instance : Sub (Binary format) := ⟨sub⟩
instance : Mul (Binary format) := ⟨mul⟩
instance : Div (Binary format) := ⟨div⟩

/-- Strict order of the values; nothing is below or above a NaN. -/
def lt : Binary format → Binary format → Bool
  | .nan, _ => false
  | _, .nan => false
  | .infinite a, .infinite b => a && !b
  | .infinite a, .finite _ _ => a
  | .finite _ _, .infinite b => !b
  | x, y => units x < units y

/-- The order of two numbers; none if one of them is a NaN. -/
def compare? (x y : Binary format) : Option Ordering :=
  if x.isNaN || y.isNaN then none
  else if lt x y then some .lt
  else if lt y x then some .gt
  else some .eq

/-- `x` brought into the range from `low` to `high`; a NaN stays one. -/
def clamp (x low high : Binary format) : Binary format :=
  if lt x low then low else if lt high x then high else x

/-- The lesser of two, or the one that is a number. -/
def min (x y : Binary format) : Binary format :=
  if x.isNaN then y else if y.isNaN then x else if lt y x then y else x

/-- The greater of two, or the one that is a number. -/
def max (x y : Binary format) : Binary format :=
  if x.isNaN then y else if y.isNaN then x else if lt x y then y else x

instance : Min (Binary format) := ⟨min⟩
instance : Max (Binary format) := ⟨max⟩
instance : Zero (Binary format) := ⟨zero⟩

/-- The value times `scale` as an integer, ties away from zero; none for what is not finite. -/
def scaled? (scale : Nat) : Binary format → Option Int
  | .finite negative count =>
      let magnitude := roundHalfUp (count * scale) (2 ^ format.places)
      some (if negative then -magnitude else magnitude)
  | _ => none

/-- The integer part, towards zero; none for what is not finite. -/
def truncate? : Binary format → Option Int
  | .finite negative count =>
      let magnitude : Int := (count / 2 ^ format.places : Nat)
      some (if negative then -magnitude else magnitude)
  | _ => none

/-- The interchange encoding: sign, exponent and significand fields. The field of a NaN has its
top digit set and no other. -/
def toBits (x : Binary format) : Nat :=
  let fieldBits := format.precision - 1
  let exponentBits := Nat.log2 format.limit + 1
  let signBit (negative : Bool) : Nat :=
    if negative then 2 ^ (fieldBits + exponentBits) else 0
  let top := (2 ^ exponentBits - 1) * 2 ^ fieldBits
  match x with
  | .nan => top + 2 ^ (fieldBits - 1)
  | .infinite negative => signBit negative + top
  | .finite negative count =>
      let magnitude :=
        if count < 2 ^ fieldBits then count
        else
          let shift := Nat.log2 count - fieldBits
          shift * 2 ^ fieldBits + count / 2 ^ shift
      signBit negative + magnitude

/-- The number with the given interchange encoding. -/
def ofBits (bits : Nat) : Binary format :=
  let fieldBits := format.precision - 1
  let exponentBits := Nat.log2 format.limit + 1
  let negative := bits / 2 ^ (fieldBits + exponentBits) % 2 == 1
  let exponent := bits / 2 ^ fieldBits % 2 ^ exponentBits
  let field := bits % 2 ^ fieldBits
  if exponent == 2 ^ exponentBits - 1 then
    if field == 0 then .infinite negative else .nan
  else if exponent == 0 then .finite negative field
  else .finite negative ((2 ^ fieldBits + field) * 2 ^ (exponent - 1))

/-- The same value in another format, rounded to it. -/
def convert {source : Format} (target : Format) : Binary source → Binary target
  | .nan => .nan
  | .infinite negative => .infinite negative
  | .finite negative count => ofRatio negative count (2 ^ source.places)

end Binary

end ComputedStyle.Number
