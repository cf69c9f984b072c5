import ComputedStyle.Color.Quantity
import ComputedStyle.Number.Machine

/-!
Calculations: sums and products in brackets, and the functions that may stand in them.

A calculation is asked for one kind of quantity and may use numbers beside it. What cannot be brought
to one value, such as the sum of a number and a percentage, is still a calculation, but its amount
stays open.
-/

namespace ComputedStyle.Color

open Number Syntax

/-- What a channel measures, on which it depends where its name may stand. -/
inductive ChannelKind where
  | number
  | angle
  | opacity
deriving DecidableEq, Repr

/-- A number that goes by name. -/
structure Channel where
  name : String
  kind : ChannelKind
  value : Single

abbrev Channels := List Channel

def lowerWord (name : List Char) : String :=
  String.ofList (name.map Char.toLower)

def isWord (word : String) (name : List Char) : Bool :=
  lowerWord name == word

def Channels.get? (channels : Channels) (name : List Char) : Option Single :=
  (channels.find? (·.name = lowerWord name)).map Channel.value

/-- The channels that may stand for a number or a percentage. -/
def Channels.forCoordinate (channels : Channels) : Channels :=
  channels.filter (·.kind ≠ .angle)

/-- The channels that may stand for an angle. -/
def Channels.forHue (channels : Channels) : Channels :=
  channels.filter (·.kind ≠ .opacity)

/-- What a calculation comes to. -/
inductive Amount where
  | number (value : Single)
  | quantity (value : Quantity)
  /-- A sum of terms that cannot be added up. -/
  | openSum
  /-- A function whose arguments cannot be compared or combined. -/
  | openFunction

namespace Amount

def scale (factor : Single) : Amount → Amount
  | number v => number (v * factor)
  | quantity q => quantity (q.map (· * factor))
  | openSum => openSum
  | openFunction => openFunction

/-- An open sum takes up anything but another quantity or open sum. -/
def add? : Amount → Amount → Option Amount
  | number a, number b => some (number (a + b))
  | quantity a, quantity b => some ((a.zip? (· + ·) b).elim openSum quantity)
  | openSum, quantity _ => none
  | quantity _, openSum => none
  | openSum, openSum => none
  | _, _ => some openSum

/-- One of the factors has to be a number. -/
def mul? : Amount → Amount → Option Amount
  | a, number b => some (a.scale b)
  | number a, b => some (b.scale a)
  | _, _ => none

/-- The divisor has to be a number other than zero. -/
def div? : Amount → Amount → Option Amount
  | a, number b =>
      if b = .finite false 0 ∨ b = .finite true 0 then none else some (a.scale (.ofNat 1 / b))
  | _, _ => none

/-- A function of the value; open for a percentage, which may stand for a value of either sign. -/
def map (f : Single → Single) : Amount → Amount
  | number v => number (f v)
  | quantity q => if q.unit.kind = .percentage then openFunction else quantity (q.map f)
  | _ => openFunction

/-- A function of two values of one kind. -/
def zip (f : Single → Single → Single) : Amount → Amount → Amount
  | number a, number b => number (f a b)
  | quantity a, quantity b => (a.zip? f b).elim openFunction quantity
  | _, _ => openFunction

def compare? : Amount → Amount → Option Ordering
  | number a, number b => a.compare? b
  | quantity a, quantity b => a.compare? b
  | _, _ => none

/-- Puts an amount among others that cannot be compared with each other: in the place of the one it
compares with, if it stands to that one as wanted, or at the end if it compares with none. -/
def settle (wanted : Ordering) (a : Amount) : List Amount → List Amount
  | [] => [a]
  | b :: rest =>
      match a.compare? b with
      | some order => if order = wanted then a :: rest else b :: rest
      | none => b :: settle wanted a rest

def extreme (wanted : Ordering) (amounts : List Amount) : Amount :=
  match amounts.foldl (fun settled a => settle wanted a settled) [] with
  | [a] => a
  | _ => openFunction

/-- An amount held between two others; the lower one wins over the upper one. -/
def hold (low value high : Amount) : Amount :=
  let (value, highOpen) :=
    match value.compare? high with
    | some .gt => (high, false)
    | some _ => (value, false)
    | none => (value, true)
  let (value, lowOpen) :=
    match value.compare? low with
    | some .lt => (low, false)
    | some _ => (value, false)
    | none => (value, true)
  if highOpen || lowOpen then openFunction else value

/-- The length of a vector with two coordinates, rounded once. -/
def hypotenuse (x y : Single) : Single :=
  let a := (toMachine x).toFloat
  let b := (toMachine y).toFloat
  ofMachine (a * a + b * b).sqrt.toFloat32

/-- The length of a vector. -/
def norm : List Amount → Amount
  | [] => openFunction
  | [a] => a
  | [a, b] => a.zip hypotenuse b
  | a :: rest =>
      (rest.foldl (fun sum b => sum.zip (fun x y => x + y * y) b) (a.map fun x => x * x)).map
        (onMachine Float32.sqrt)

/-- One, zero or minus one; a number for every kind of quantity. -/
def sign (a : Amount) : Amount :=
  let signOf (v : Single) : Single :=
    if v.isNaN || v = .finite v.isNegative 0 then v else .ofInt (if v.isNegative then -1 else 1)
  match a.map signOf with
  | quantity q => number q.value
  | a => a

end Amount

/-- A component of a calculation. For a function or a round bracket, `amount` is its value where a
kind of quantity is asked for. -/
structure Operand where
  token : Token
  amount : Kind → Channels → Option Amount

/-- Operands, each with a note whether a blank stands before it. -/
abbrev Operands := List (Bool × Operand)

/-- The operands among some components, blanks taken out and noted. -/
def Operands.ofBlanks : Bool → List Operand → Operands
  | _, [] => []
  | blank, o :: rest =>
      if o.token = .blank then ofBlanks true rest else (blank, o) :: ofBlanks false rest

/-- The numbers that have a name in every calculation. -/
def constant? (name : List Char) : Option Single :=
  match lowerWord name with
  | "e" => some (.ofRatio false 2718281828459045 1000000000000000)
  | "pi" => some pi
  | "infinity" => some (.infinite false)
  | "-infinity" => some (.infinite true)
  | "nan" => some .nan
  | _ => none

/-- What an operand comes to where a kind of quantity is asked for. Channels go by name in brackets,
but not in a function. -/
def Operand.amount? (kind : Kind) (channels : Channels) (o : Operand) : Option Amount :=
  match o.token with
  | .number v => some (.number v)
  | .name name => ((constant? name).or (channels.get? name)).map .number
  | .function _ => o.amount kind []
  | .opening .round => o.amount kind channels
  | token => do
      let q ← Quantity.ofToken? token
      if q.unit.kind = kind then some (.quantity q) else none

namespace Operands

variable (kind : Kind) (channels : Channels)

/-- Reads on in a sum: `total` is the sum of what stands before the last plus or minus, `product`
the product after it. A sign counts as one only after a blank, and nothing but a sign may follow a
blank. -/
def sumFrom? (total : Option Amount) (product : Amount) : Operands → Option (Amount × Operands)
  | (blank, op) :: (gap, o) :: rest =>
      match op.token with
      | .symbol '*' => do sumFrom? total (← product.mul? (← o.amount? kind channels)) rest
      | .symbol '/' => do sumFrom? total (← product.div? (← o.amount? kind channels)) rest
      | .symbol '+' =>
          if blank then do
            sumFrom? (some (← close total product)) (← o.amount? kind channels) rest
          else finish total product ((blank, op) :: (gap, o) :: rest)
      | .symbol '-' =>
          if blank then do
            let subtrahend ← o.amount? kind channels
            sumFrom? (some (← close total product)) (subtrahend.scale (.ofInt (-1))) rest
          else finish total product ((blank, op) :: (gap, o) :: rest)
      | _ => finish total product ((blank, op) :: (gap, o) :: rest)
  | rest => finish total product rest
where
  close (total : Option Amount) (product : Amount) : Option Amount :=
    total.elim (some product) (·.add? product)
  finish (total : Option Amount) (product : Amount) (rest : Operands) :
      Option (Amount × Operands) :=
    match rest with
    | (true, _) :: _ => none
    | _ => (close total product).map (·, rest)

/-- Reads a sum; gives what follows it too. -/
def sum? : Operands → Option (Amount × Operands)
  | (_, o) :: rest => do sumFrom? kind channels none (← o.amount? kind channels) rest
  | [] => none

/-- A sum and nothing after it. -/
def whole? (os : Operands) : Option Amount := do
  match ← sum? kind channels os with
  | (a, []) => some a
  | _ => none

def afterComma? : Operands → Option Operands
  | (_, o) :: rest => if o.token = .comma then some rest else none
  | [] => none

/-- Two sums with a comma between them. -/
def pair? (os : Operands) : Option (Amount × Amount) := do
  let (a, rest) ← sum? kind channels os
  let b ← whole? kind channels (← afterComma? rest)
  some (a, b)

/-- The parts between commas. -/
def split : Operands → List Operands
  | [] => [[]]
  | (blank, o) :: rest =>
      if o.token = .comma then [] :: split rest
      else
        match split rest with
        | part :: parts => ((blank, o) :: part) :: parts
        | [] => [[(blank, o)]]

/-- Sums with commas between them. -/
def list? (os : Operands) : Option (List Amount) :=
  (split os).mapM (whole? kind channels)

/-- A sum of numbers. -/
def number? (os : Operands) : Option (Single × Operands) := do
  match ← sum? .number channels os with
  | (.number v, rest) => some (v, rest)
  | _ => none

/-- A sum of numbers and nothing after it. -/
def wholeNumber? (os : Operands) : Option Single := do
  match ← number? channels os with
  | (v, []) => some v
  | _ => none

/-- The way to a multiple. -/
inductive Rounding where
  | nearest
  | up
  | down
  | toZero

namespace Rounding

def ofName? (name : List Char) : Option Rounding :=
  match lowerWord name with
  | "nearest" => some nearest
  | "up" => some up
  | "down" => some down
  | "to-zero" => some toZero
  | _ => none

def integer (v : Float32) : Rounding → Float32
  | nearest => v.round
  | up => v.ceil
  | down => v.floor
  | toZero => if v < 0 then v.ceil else v.floor

/-- A multiple of `step` near a number. -/
def apply (rounding : Rounding) (value step : Single) : Single :=
  onMachine (rounding.integer ·) (value / step) * step

end Rounding

/-- The remainder with the sign of the divisor. -/
def modulo (a b : Single) : Single :=
  ((a.rem b) + b).rem b

/-- A rounding, and the operands after the comma that follows it. -/
def rounding? (os : Operands) : Option (Rounding × Operands) :=
  match os with
  | (_, o) :: rest =>
      match o.token with
      | .name name =>
          match Rounding.ofName? name with
          | some rounding => (afterComma? rest).map (rounding, ·)
          | none => some (.nearest, os)
      | _ => some (.nearest, os)
  | [] => none

/-- A function of an angle or of a number of radians. -/
def wave? (f : Float32 → Float32) (os : Operands) : Option Amount := do
  match ← whole? .angle channels os with
  | .number v => some (.number (onMachine f v))
  | .quantity q => q.radians?.map fun v => .number (onMachine f v)
  | _ => none

/-- A number of radians as an angle, where one is asked for. -/
def angle? (radians : Single) : Option Amount :=
  if kind = .angle then some (.quantity ⟨radians, .radian⟩) else none

/-- The angle that a function gives for a number. -/
def inverseWave? (f : Float32 → Float32) (os : Operands) : Option Amount := do
  match ← whole? .angle channels os with
  | .number v =>
      let radians := onMachine f v
      if radians.isNaN then some (.number radians) else angle? kind radians
  | _ => none

/-- The direction of a vector, in radians; the coordinates are of one kind. -/
def direction? (os : Operands) : Option (Single × Operands) := do
  let (a, rest) ← sum? kind channels os
  let (b, rest) ← sum? kind channels (← afterComma? rest)
  match a.zip (fun y x => ofMachine ((toMachine y).atan2 (toMachine x))) b with
  | .number v => some (v, rest)
  | .quantity q => some (q.value, rest)
  | _ => none

/-- The direction of a vector with coordinates of any kind. -/
def anyDirection? (os : Operands) : Option (Single × Operands) :=
  (direction? .length [] os).or ((direction? .percentage [] os).or ((direction? .angle [] os).or
    ((direction? .time [] os).or (direction? .number channels os))))

/-- The value of a function, by its name. -/
def function? (name : String) (os : Operands) : Option Amount :=
  match name with
  | "calc" => whole? kind channels os
  | "min" => (list? kind channels os).map (Amount.extreme .lt)
  | "max" => (list? kind channels os).map (Amount.extreme .gt)
  | "clamp" => do
      let (low, rest) ← sum? kind channels os
      let (value, high) ← pair? kind channels (← afterComma? rest)
      some (low.hold value high)
  | "round" => do
      let (rounding, os) ← rounding? os
      let (a, b) ← pair? kind channels os
      some (a.zip rounding.apply b)
  | "rem" => (pair? kind channels os).map fun (a, b) => a.zip Binary.rem b
  | "mod" => (pair? kind channels os).map fun (a, b) => a.zip modulo b
  | "sin" => wave? channels Float32.sin os
  | "cos" => wave? channels Float32.cos os
  | "tan" => wave? channels Float32.tan os
  | "asin" => inverseWave? kind channels Float32.asin os
  | "acos" => inverseWave? kind channels Float32.acos os
  | "atan" => inverseWave? kind channels Float32.atan os
  | "atan2" => do
      match ← anyDirection? channels os with
      | (radians, []) => angle? kind radians
      | _ => none
  | "pow" => do
      let (a, rest) ← number? channels os
      let b ← wholeNumber? channels (← afterComma? rest)
      some (.number (ofMachine ((toMachine a).pow (toMachine b))))
  | "log" => do
      match ← number? channels os with
      | (v, []) => some (.number (onMachine Float32.log v))
      | (v, rest) =>
          let base ← wholeNumber? channels (← afterComma? rest)
          some (.number (onMachine Float32.log v / onMachine Float32.log base))
  | "sqrt" => (wholeNumber? channels os).map fun v => .number (onMachine Float32.sqrt v)
  | "exp" => (wholeNumber? channels os).map fun v => .number (onMachine Float32.exp v)
  | "hypot" => (list? kind channels os).map Amount.norm
  | "abs" => (whole? kind channels os).map (Amount.map (onMachine Float32.abs))
  | "sign" => (whole? kind channels os).map Amount.sign
  | _ => none

end Operands

def Operand.ofBlock (opener : Token) (contents : List Operand) : Operand where
  token := opener
  amount kind channels :=
    let os := Operands.ofBlanks false contents
    match opener with
    | .function name => Operands.function? kind channels (lowerWord name) os
    | .opening .round => Operands.whole? kind channels os
    | _ => none

end ComputedStyle.Color
