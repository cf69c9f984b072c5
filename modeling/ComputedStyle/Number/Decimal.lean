import ComputedStyle.Number.Binary

namespace ComputedStyle.Number

def digitValue (c : Char) : Nat :=
  c.toNat - '0'.toNat

/-- The number a run of decimal digits stands for. -/
def ofDigits (digits : List Char) : Nat :=
  digits.foldl (fun n c => 10 * n + digitValue c) 0

/-- The decimal digits of a number, without leading zeros. -/
def digitsOf (n : Nat) : List Char :=
  Nat.toDigits 10 n

/-- A non-empty run of digits and nothing else. -/
def readNat? (s : List Char) : Option Nat :=
  if !s.isEmpty && s.all Char.isDigit then some (ofDigits s) else none

/-- Takes an optional sign off a text; the flag tells whether it was a minus. -/
def takeSign : List Char → Bool × List Char
  | '-' :: rest => (true, rest)
  | '+' :: rest => (false, rest)
  | s => (false, s)

/-- An optional sign and a non-empty run of digits. -/
def readInt? (s : List Char) : Option Int :=
  let (negative, digits) := takeSign s
  (readNat? digits).map fun n => if negative then -(n : Int) else n

/-- The number `±digits · 10 ^ exponent`. -/
structure Decimal where
  negative : Bool
  digits : Nat
  exponent : Int
deriving DecidableEq, Repr

namespace Decimal

/-- The nearest number of a format. An exponent far outside the format's range is settled without
computing its power of ten. -/
def toBinary (format : Format) (d : Decimal) : Binary format :=
  let scale : Int := (digitsOf d.digits).length + d.exponent
  if d.digits == 0 then .finite d.negative 0
  else if scale > format.limit then .infinite d.negative
  else if scale < -format.places then .finite d.negative 0
  else if 0 ≤ d.exponent then .ofRatio d.negative (d.digits * 10 ^ d.exponent.toNat) 1
  else .ofRatio d.negative d.digits (10 ^ (-d.exponent).toNat)

/-- The decimal of the digits before and after a point. -/
def ofParts (negative : Bool) (whole fraction : List Char) (exponent : Int) : Decimal :=
  ⟨negative, ofDigits (whole ++ fraction), exponent - fraction.length⟩

/-- Digits with at most one point among them, at least one digit, and an optional exponent. -/
def read? (s : List Char) : Option Decimal :=
  let (negative, body) := takeSign s
  let whole := body.takeWhile Char.isDigit
  let tail := body.dropWhile Char.isDigit
  let (fraction, tail) :=
    match tail with
    | '.' :: more => (more.takeWhile Char.isDigit, more.dropWhile Char.isDigit)
    | _ => ([], tail)
  if whole.isEmpty && fraction.isEmpty then none
  else
    match tail with
    | [] => some (ofParts negative whole fraction 0)
    | mark :: power =>
        if mark == 'e' || mark == 'E' then
          (readInt? power).map (ofParts negative whole fraction)
        else none

end Decimal

/-- A decimal, or one of the words `inf`, `infinity` and `nan` in any case. -/
def Binary.read? (format : Format) (s : List Char) : Option (Binary format) :=
  match Decimal.read? s with
  | some d => some (d.toBinary format)
  | none =>
      let (negative, body) := takeSign s
      match String.ofList (body.map Char.toLower) with
      | "inf" => some (.infinite negative)
      | "infinity" => some (.infinite negative)
      | "nan" => some .nan
      | _ => none

def paddedDigits (width n : Nat) : String :=
  let digits := digitsOf n
  String.ofList (List.replicate (width - digits.length) '0' ++ digits)

/-- `±count / 10 ^ places` written with exactly `places` places. -/
def fixedPoint (places : Nat) (negative : Bool) (count : Nat) : String :=
  let unit := 10 ^ places
  (if negative then "-" else "") ++ String.ofList (digitsOf (count / unit)) ++ "." ++
    paddedDigits places (count % unit)

/-- The text with `places` places, a tie going to the even digit. The sign of a zero is kept. -/
def Binary.fixed {format : Format} (places : Nat) : Binary format → String
  | .nan => "NaN"
  | .infinite negative => if negative then "-inf" else "inf"
  | .finite negative count =>
      fixedPoint places negative (roundHalfEven (count * 10 ^ places) (2 ^ format.places))

end ComputedStyle.Number
