import ComputedStyle.Length
import ComputedStyle.Text.Blank

namespace ComputedStyle

open Number

structure LengthContext where
  parentFontSize : Option Length := none
  rootFontSize : Option Length := none
  percentageBase : Option Length := none
deriving DecidableEq, Inhabited

def defaultFontPoints : Single := .ofNat 12

def defaultFontSize : Length := .ofPoints defaultFontPoints

namespace LengthContext

def parentFontPoints (context : LengthContext) : Single :=
  (context.parentFontSize.map Length.points).getD defaultFontPoints

def rootFontPoints (context : LengthContext) : Single :=
  (context.rootFontSize.map Length.points).getD defaultFontPoints

def percentagePoints (context : LengthContext) : Single :=
  (context.percentageBase.map Length.points).getD .zero

end LengthContext

/-- A number and the lower-case name of its unit, which may be empty. -/
structure Quantity where
  value : Single
  unit : String
deriving DecidableEq

namespace Quantity

/-- Digits and points, after a sign that only the first place may hold. -/
def numeralLength : List Char → Nat
  | [] => 0
  | c :: rest =>
      if c == '+' || c == '-' || c.isDigit || c == '.' then
        1 + (rest.takeWhile fun d => d.isDigit || d == '.').length
      else 0

/-- A plain number followed by nothing but letters and percent signs. -/
def read? (raw : List Char) : Option Quantity :=
  let s := Text.trim raw
  let numeral := s.take (numeralLength s)
  let unit := s.drop (numeralLength s)
  if unit.all fun c => c.isAlpha || c == '%' then
    match Decimal.read? numeral with
    | some d => some ⟨d.toBinary .single, String.ofList (Text.lower unit)⟩
    | none => none
  else none

def pointsPerPixel : Single := .ofRatio false 3 4

/-- The number of points. A number without a unit counts points, and so does one with an unknown
unit. -/
def points (context : LengthContext) (q : Quantity) : Single :=
  match q.unit with
  | "px" => q.value * pointsPerPixel
  | "em" => q.value * context.parentFontPoints
  | "rem" => q.value * context.rootFontPoints
  | "%" => context.percentagePoints * q.value / .ofNat 100
  | "in" => q.value * .ofNat 72
  | "cm" => q.value * .ofRatio false 2835 100
  | "mm" => q.value * .ofRatio false 2835 1000
  | "pc" => q.value * .ofNat 12
  | _ => q.value

end Quantity

/-- The length a text stands for; keywords stand for none. -/
def Length.read? (context : LengthContext) (raw : String) : Option Length :=
  (Quantity.read? raw.toList).map fun q => .ofPoints (q.points context)

/-- What the three border width keywords mean. -/
inductive BorderWidths where
  /-- One, three and five pixels. -/
  | css
  /-- One, one and five pixels, so that table borders stay thin. -/
  | compact
deriving DecidableEq, Repr, Inhabited

def BorderWidths.pixels? (widths : BorderWidths) (keyword : String) : Option Nat :=
  match keyword.toLower with
  | "thin" => some 1
  | "medium" => some (match widths with | .css => 3 | .compact => 1)
  | "thick" => some 5
  | _ => none

def Length.ofPixels (pixels : Nat) : Length :=
  .ofPoints (.ofNat pixels * Quantity.pointsPerPixel)

def Length.readBorderWidth? (context : LengthContext) (widths : BorderWidths) (raw : String) :
    Option Length :=
  match widths.pixels? (Text.trimmed raw) with
  | some pixels => some (.ofPixels pixels)
  | none => Length.read? context raw

/-- The absolute font size keywords, in pixels. -/
def fontSizePixels? : String → Option Nat
  | "xx-small" => some 9
  | "x-small" => some 10
  | "small" => some 13
  | "medium" => some 16
  | "large" => some 18
  | "x-large" => some 24
  | "xx-large" => some 32
  | "xxx-large" => some 40
  | _ => none

/-- A font size: a keyword, or a length in which a percentage is one of the parent's font size. -/
def Length.readFontSize? (context : LengthContext) (raw : String) : Option Length :=
  let keyword := (Text.trimmed raw).toLower
  let step : Single := .ofRatio false 12 10
  if keyword = "smaller" then some (.ofPoints (context.parentFontPoints / step))
  else if keyword = "larger" then some (.ofPoints (context.parentFontPoints * step))
  else
    match fontSizePixels? keyword with
    | some pixels => some (.ofPixels pixels)
    | none =>
        if (Text.trim raw.toList).getLast? = some '%' then
          let base := Length.ofPoints context.parentFontPoints
          Length.read? { context with percentageBase := some base } raw
        else Length.read? context raw

end ComputedStyle
