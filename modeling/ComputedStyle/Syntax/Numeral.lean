import ComputedStyle.Number.Decimal

/-!
Numbers in CSS text.

The digits are added up one by one in double precision, and the power of ten is multiplied in last;
the result alone is rounded to single precision. A power beyond the range of double precision is
infinite or zero by itself, so zero times ten to such a power is no number.
-/

namespace ComputedStyle.Syntax

open Number

structure Numeral where
  negative : Bool
  whole : List Char
  fraction : List Char
  exponent : Int

namespace Numeral

def readExponent : List Char → Int × Nat
  | mark :: rest =>
      if mark == 'e' || mark == 'E' then
        let signLength :=
          match rest with
          | '+' :: _ => 1
          | '-' :: _ => 1
          | _ => 0
        let digits := (rest.drop signLength).takeWhile Char.isDigit
        if digits.isEmpty then (0, 0)
        else
          let value : Int := ofDigits digits
          (if rest.head? == some '-' then -value else value, 1 + signLength + digits.length)
      else (0, 0)
  | [] => (0, 0)

/-- Reads a number without its unit, and counts the characters read. -/
def read (s : List Char) : Numeral × Nat :=
  let (negative, body) := takeSign s
  let signLength := s.length - body.length
  let whole := body.takeWhile Char.isDigit
  let fraction :=
    match body.drop whole.length with
    | '.' :: rest => rest.takeWhile Char.isDigit
    | _ => []
  let length := signLength + whole.length + (if fraction.isEmpty then 0 else fraction.length + 1)
  let (exponent, exponentLength) := readExponent (s.drop length)
  (⟨negative, whole, fraction, exponent⟩, length + exponentLength)

def digit (c : Char) : Double :=
  .ofNat (digitValue c)

def wholeValue (digits : List Char) : Double :=
  digits.foldl (fun value c => value * .ofNat 10 + digit c) .zero

/-- The value of the digits after a point, the first of which counts `unit`. -/
def fractionValue (value unit : Double) : List Char → Double
  | [] => value
  | c :: rest => fractionValue (value + digit c * unit) (unit * .ofRatio false 1 10) rest

/-- A power of ten in double precision. -/
def power (exponent : Int) : Double :=
  (⟨false, 1, exponent⟩ : Decimal).toBinary .double

def value (n : Numeral) : Double :=
  let magnitude := wholeValue n.whole + fractionValue .zero (.ofRatio false 1 10) n.fraction
  let signed := if n.negative then -magnitude else magnitude
  if n.exponent = 0 then signed else signed * power n.exponent

end Numeral

end ComputedStyle.Syntax
