import ComputedStyle.Number.Decimal
import ComputedStyle.Syntax.Lexeme

namespace ComputedStyle.Color

open Number Syntax

/-- What a calculation gives. -/
inductive Kind where
  | number
  | percentage
  | angle
  | length
  | time
deriving DecidableEq, Repr

inductive QuantityUnit where
  | percent
  | degree
  | radian
  | gradian
  | turn
  | length (name : String)
  | second
  | millisecond
deriving DecidableEq, Repr

def pi : Single := .ofRatio false 31415926535897932 10000000000000000

namespace QuantityUnit

def kind : QuantityUnit → Kind
  | percent => .percentage
  | degree => .angle
  | radian => .angle
  | gradian => .angle
  | turn => .angle
  | length _ => .length
  | second => .time
  | millisecond => .time

/-- Pixels in one unit of an absolute length. -/
def pixels? : String → Option Single
  | "px" => some (.ofNat 1)
  | "in" => some (.ofNat 96)
  | "cm" => some (.ofNat 96 / .ofRatio false 254 100)
  | "mm" => some (.ofNat 96 / .ofRatio false 254 10)
  | "q" => some (.ofNat 96 / .ofRatio false 1016 10)
  | "pt" => some (.ofNat 96 / .ofNat 72)
  | "pc" => some (.ofNat 16)
  | _ => none

/-- The units of length that depend on the font or on the view. -/
def relativeLengths : List String :=
  ["em", "rem", "ex", "rex", "ch", "rch", "cap", "rcap", "ic", "ric", "lh", "rlh",
    "vw", "lvw", "svw", "dvw", "cqw", "vh", "lvh", "svh", "dvh", "cqh",
    "vi", "svi", "lvi", "dvi", "cqi", "vb", "svb", "lvb", "dvb", "cqb",
    "vmin", "svmin", "lvmin", "dvmin", "cqmin", "vmax", "svmax", "lvmax", "dvmax", "cqmax"]

def ofName? (name : List Char) : Option QuantityUnit :=
  match String.ofList (name.map Char.toLower) with
  | "deg" => some degree
  | "rad" => some radian
  | "grad" => some gradian
  | "turn" => some turn
  | "s" => some second
  | "ms" => some millisecond
  | name =>
      if (pixels? name).isSome || relativeLengths.contains name then some (length name) else none

/-- The unit that the others of a kind are turned into. -/
def base : QuantityUnit → QuantityUnit
  | percent => percent
  | degree => degree
  | radian => degree
  | gradian => degree
  | turn => degree
  | length _ => length "px"
  | second => millisecond
  | millisecond => millisecond

def toBase? (unit : QuantityUnit) (value : Single) : Option Single :=
  match unit with
  | percent => some value
  | degree => some value
  | radian => some (value * (.ofNat 180 / pi))
  | gradian => some (value * .ofNat 180 / .ofNat 200)
  | turn => some (value * .ofNat 360)
  | length name => (pixels? name).map (value * ·)
  | second => some (value * .ofNat 1000)
  | millisecond => some value

end QuantityUnit

/-- A percentage has the fraction for its value. -/
structure Quantity where
  value : Single
  unit : QuantityUnit

namespace Quantity

/-- The quantity that one token stands for. -/
def ofToken? : Token → Option Quantity
  | .percentage v => some ⟨v, .percent⟩
  | .dimension v unit => (QuantityUnit.ofName? unit).map (⟨v, ·⟩)
  | _ => none

def map (f : Single → Single) (q : Quantity) : Quantity :=
  { q with value := f q.value }

/-- The values of two quantities in a unit of both. -/
def align? (a b : Quantity) : Option (Single × Single × QuantityUnit) :=
  if a.unit = b.unit then some (a.value, b.value, a.unit)
  else if a.unit.kind = b.unit.kind then do
    some (← a.unit.toBase? a.value, ← b.unit.toBase? b.value, a.unit.base)
  else none

/-- A function of the values of two quantities. -/
def zip? (f : Single → Single → Single) (a b : Quantity) : Option Quantity :=
  (align? a b).map fun (x, y, unit) => ⟨f x y, unit⟩

def compare? (a b : Quantity) : Option Ordering :=
  (align? a b).bind fun (x, y, _) => x.compare? y

/-- The degrees in an angle. -/
def degrees? (q : Quantity) : Option Single :=
  if q.unit.kind = .angle then q.unit.toBase? q.value else none

/-- The radians in an angle. -/
def radians? (q : Quantity) : Option Single :=
  let perDegree : Single := pi / .ofNat 180
  match q.unit with
  | .radian => some q.value
  | .gradian => some (q.value * .ofNat 180 / .ofNat 200 * perDegree)
  | .turn => some (q.value * .ofNat 360 * perDegree)
  | .degree => some (q.value * perDegree)
  | _ => none

end Quantity

end ComputedStyle.Color
