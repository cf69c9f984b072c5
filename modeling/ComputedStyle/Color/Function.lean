import ComputedStyle.Color.Argument

namespace ComputedStyle.Color

open Number Syntax

/-- A coordinate as it is written. -/
inductive Coordinate where
  | number (value : Single)
  | fraction (value : Single)

namespace Coordinate

/-- The value, a whole percentage standing for `basis`. -/
def value (basis : Single) : Coordinate → Single
  | number v => v
  | fraction v => v * basis

def isFraction : Coordinate → Bool
  | number _ => false
  | fraction _ => true

end Coordinate

abbrev Reader := StateT Arguments (Except ColorError)

namespace Reader

def some! (value : Option α) : Reader α :=
  readable value

def peekToken? : Reader (Option Token) := do
  return (← get).head?.map fun c => c.token

def next : Reader Argument := do
  match ← get with
  | c :: rest => do
      set rest
      return c
  | [] => throw .unreadable

/-- The color that the next argument stands for. -/
def color : Reader Written := do
  (← next).color

/-- Takes the next argument if it is of this kind. -/
def takeIf (p : Argument → Bool) : Reader Bool := do
  match ← get with
  | c :: rest => if p c then do set rest; return true else return false
  | [] => return false

def takeWord (word : String) : Reader Bool :=
  takeIf (·.isNamed word)

def takeComma : Reader Bool :=
  takeIf (·.token == .comma)

def expect (found : Bool) : Reader Unit :=
  if found then return () else throw .unreadable

/-- That nothing is left to read. -/
def finish : Reader Unit := do
  expect (← get).isEmpty

/-- What stands for a coordinate that is left out. -/
def missing (c : Argument) : Reader Single :=
  if c.isNamed "none" then return .nan else throw .unreadable

/-- A number, or a NaN for a missing one. -/
def number (channels : Channels) : Reader Single := do
  let c ← next
  match c.number? channels with
  | some v => return v
  | none => missing c

def percentage : Reader Single := do
  let c ← next
  match ← c.percentage? with
  | some v => return v
  | none => missing c

/-- A number or a percentage. -/
def coordinate (channels : Channels) : Reader Coordinate := do
  let c ← next
  match c.number? channels.forCoordinate with
  | some v => return .number v
  | none =>
      match ← c.percentage? with
      | some v => return .fraction v
      | none => return .number (← missing c)

/-- An angle in degrees; a plain number counts degrees. -/
def hue (channels : Channels) : Reader Single := do
  let c ← next
  match (c.number? channels.forHue).or c.degrees? with
  | some v => return v
  | none => missing c

def opacity (channels : Channels) : Reader Single := do
  return ((← coordinate channels).value (.ofNat 1)).clamp .zero (.ofNat 1)

/-- An opacity at the end, after a slash, or the one that is assumed. -/
def lastOpacity (channels : Channels) (assumed : Single) : Reader Single := do
  let value ←
    if ← takeIf (·.token == .symbol '/') then opacity channels else pure assumed
  finish
  return value

/-- An opacity at the end, after a comma, or full opacity. -/
def lastCommaOpacity : Reader Single := do
  let value ← if ← takeComma then opacity [] else pure (.ofNat 1)
  finish
  return value

end Reader

open Reader

/-- The color at coordinates that are not rounded. -/
def ofSpace (space : Space) (x y z opacity : Single) : Paint :=
  .place space ⟨toMachine x, toMachine y, toMachine z⟩ (toMachine opacity)

/-- The color of channels from zero to one; a missing channel keeps it from being rounded. -/
def ofChannels (red green blue opacity : Single) : Paint :=
  if red.isNaN || green.isNaN || blue.isNaN || opacity.isNaN then
    ofSpace .srgb red green blue opacity
  else .bytes ⟨byteOf red, byteOf green, byteOf blue, byteOf opacity⟩

def byteLimit : Single := .ofNat 255

/-- A number rounded to an integer that a byte can hold. -/
def roundToByte (v : Single) : Single :=
  match v.scaled? 1 with
  | some n => (Binary.ofInt n : Single).clamp .zero byteLimit
  | none => v.clamp .zero byteLimit

def byteValue (v : Single) : Nat :=
  (v.scaled? 1).elim 0 Int.toNat

/-- The rest of the notation with commas, in which all channels are numbers or all are percentages
and none is missing. -/
def commaRgb (first : Coordinate) : Reader Paint := do
  let channel : Reader Single := do
    return roundToByte (← if first.isFraction then return (← percentage) * byteLimit else number [])
  let red := roundToByte (first.value byteLimit)
  let green ← channel
  expect (← takeComma)
  let blue ← channel
  expect !(green.isNaN || blue.isNaN)
  let opacity ← lastCommaOpacity
  if opacity.isNaN then return ofSpace .srgb red green blue opacity
  else return .bytes ⟨byteValue red, byteValue green, byteValue blue, byteOf opacity⟩

/-- A channel from zero to one in the notation with blanks. -/
def unitChannel : Coordinate → Single
  | .number v => if v.isNaN then v else roundToByte v / byteLimit
  | .fraction v => v.clamp .zero (.ofNat 1)

/-- Three channels; `plain` tells that they are not derived from another color, so that commas may
stand between them. -/
def rgb (plain : Bool) (channels : Channels) : Reader Paint := do
  let first ← coordinate channels
  let commas ←
    if plain && !(first.value (.ofNat 1)).isNaN then takeComma else pure false
  if commas then commaRgb first
  else
    let second ← coordinate channels
    let third ← coordinate channels
    let opacity ← lastOpacity channels (.ofNat 1)
    return ofChannels (unitChannel first) (unitChannel second) (unitChannel third) opacity

def hundred : Single := .ofNat 100

/-- The color at three coordinates; channels of the byte notations are rounded to bytes unless a
coordinate is missing. -/
def ofHued (space : Space) (hue second third opacity : Single) : Paint :=
  if hue.isNaN || second.isNaN || third.isNaN || opacity.isNaN then
    ofSpace space hue second third opacity
  else
    let channels := (space.toSrgb ⟨toMachine hue, toMachine second, toMachine third⟩).toColor
    ofChannels channels.red channels.green channels.blue opacity

/-- Hue and two percentages; `commas` tells whether commas may stand between them. -/
def hued (space : Space) (commas : Bool) (channels : Channels) : Reader Paint := do
  let percent : Reader Single := do
    return ((← coordinate channels).value hundred).clamp .zero hundred
  let hue ← hue channels
  let commas ← if commas && !hue.isNaN then takeComma else pure false
  let second ← percent
  if commas then expect (← takeComma)
  let third ← percent
  expect !(commas && (second.isNaN || third.isNaN))
  let opacity ← if commas then lastCommaOpacity else lastOpacity channels (.ofNat 1)
  return ofHued space hue second third opacity

/-- A number brought into the range of the finite numbers from zero on. -/
def atLeastZero (v : Single) : Single :=
  v.clamp .zero .greatest

/-- Lightness and two axes; a whole percentage stands for the given bases. -/
def axes (space : Space) (lightBasis axisBasis : Single) (channels : Channels) : Reader Paint := do
  let light ← coordinate channels
  let a ← coordinate channels
  let b ← coordinate channels
  let opacity ← lastOpacity channels (.ofNat 1)
  return ofSpace space (atLeastZero (light.value lightBasis)) (a.value axisBasis)
    (b.value axisBasis) opacity

/-- Lightness, chroma and hue. -/
def polar (space : Space) (lightBasis chromaBasis : Single) (channels : Channels) :
    Reader Paint := do
  let light ← coordinate channels
  let chroma ← coordinate channels
  let hue ← hue channels
  let opacity ← lastOpacity channels (.ofNat 1)
  return ofSpace space (atLeastZero (light.value lightBasis))
    (atLeastZero (chroma.value chromaBasis)) hue opacity

/-- Three coordinates for which a whole percentage stands for one. -/
def place (space : Space) (channels : Channels) : Reader Paint := do
  let one : Single := .ofNat 1
  let x ← coordinate channels
  let y ← coordinate channels
  let z ← coordinate channels
  let opacity ← lastOpacity channels one
  return ofSpace space (x.value one) (y.value one) (z.value one) opacity

def coordinateNames (space : Space) : String × String × String :=
  match space with
  | .xyzD50 | .xyzD65 => ("x", "y", "z")
  | .lab | .oklab => ("l", "a", "b")
  | .lch | .oklch => ("l", "c", "h")
  | .hsl => ("h", "s", "l")
  | .hwb => ("h", "w", "b")
  | _ => ("r", "g", "b")

/-- The named coordinates of a color, multiplied by `unit`, and its opacity. -/
def channelsOf (space : Space) (unit : Single) (i : Ingredient) : Channels :=
  let (x, y, z) := coordinateNames space
  let channel (name : String) (value : Float32) : Channel :=
    ⟨name, if name = "h" then .angle else .number, ofMachine value * unit⟩
  [channel x i.coordinates.x, channel y i.coordinates.y, channel z i.coordinates.z,
    ⟨"alpha", .opacity, ofMachine i.opacity⟩]

/-- The color that what follows is derived from, if one is named. -/
def origin : Reader (Option Written) := do
  if ← takeWord "from" then return some (← color) else return none

def eachScheme (written : Written) (read : Paint → Reader Paint) : Reader Written := do
  let start ← get
  written.mapM fun paint => do
    set start
    read paint

/-- Coordinates that may be derived from those of another color in the same space. -/
def derived (space : Space) (unit : Single) (coordinates : Bool → Channels → Reader Paint) :
    Reader Written := do
  match ← origin with
  | none => return .plain (← coordinates true [])
  | some written =>
      eachScheme written fun paint => do
        coordinates false (channelsOf space unit (← some! (paint.resolved? space)))

def spaceNamed? (name : List Char) : Option Space :=
  match lowerWord name with
  | "srgb" => some .srgb
  | "srgb-linear" => some .linearSrgb
  | "display-p3" => some .displayP3
  | "a98-rgb" => some .a98
  | "prophoto-rgb" => some .prophoto
  | "rec2020" => some .rec2020
  | "xyz-d50" => some .xyzD50
  | "xyz" => some .xyzD65
  | "xyz-d65" => some .xyzD65
  | _ => none

/-- The word that the next argument is. -/
def word : Reader (List Char) := do
  some! (← next).token.name?

/-- The name of a space and three coordinates. -/
def inSpace : Reader Written := do
  let origin ← origin
  let space ← some! (spaceNamed? (← word))
  match origin with
  | none => return .plain (← place space [])
  | some written =>
      eachScheme written fun paint => do
        let (source, i) ← some! paint.place?
        let there : Ingredient :=
          ⟨(source.convert space i.coordinates).resolveMissing, orElse i.opacity 0⟩
        place space (channelsOf space (.ofNat 1) there)

/-- A color with its opacity changed. Its channels are not rounded. -/
def changedOpacity : Reader Written := do
  let written ← some! (← origin)
  eachScheme written fun paint => do
    let (space, i) ← some! paint.place?
    let opacity ← lastOpacity (channelsOf space (.ofNat 1) i) (ofMachine i.opacity)
    return .place space i.coordinates (toMachine opacity)

/-- A color for a light and one for a dark scheme. -/
def schemes : Reader Written := do
  let light ← color
  expect (← takeComma)
  let dark ← color
  finish
  return .ofSchemes light.light dark.dark

def mixingSpace? (name : List Char) : Option Space :=
  match lowerWord name with
  | "srgb" => some .srgb
  | "srgb-linear" => some .linearSrgb
  | "lab" => some .lab
  | "oklab" => some .oklab
  | "xyz" => some .xyzD65
  | "xyz-d50" => some .xyzD50
  | "xyz-d65" => some .xyzD65
  | "hsl" => some .hsl
  | "hwb" => some .hwb
  | "lch" => some .lch
  | "oklch" => some .oklch
  | _ => none

def huePathNamed? (name : List Char) : Option HuePath :=
  match lowerWord name with
  | "shorter" => some .shorter
  | "longer" => some .longer
  | "increasing" => some .increasing
  | "decreasing" => some .decreasing
  | "specified" => some .specified
  | _ => none

def hasHue : Space → Bool
  | .hsl | .hwb | .lch | .oklch => true
  | _ => false

/-- A way between hues, which only a space with a hue admits. -/
def huePath (space : Space) : Reader HuePath := do
  let name? := (← peekToken?).bind Token.name?
  match if hasHue space then name?.bind huePathNamed? else none with
  | some path => do
      let _ ← next
      expect (← takeWord "hue")
      return path
  | none => return .shorter

/-- The share of a color in a mixture. -/
def share? : Reader (Option Single) := do
  match ← peekToken? with
  | some (.percentage v) => do
      let _ ← next
      return some v
  | _ => return none

/-- A color with its share before or after it. -/
def sharedColor : Reader (Written × Option Single) := do
  let before ← share?
  let color ← color
  match before with
  | some share => return (color, some share)
  | none => return (color, ← share?)

/-- Both shares; what one of them leaves open the other one takes. -/
def sharesOf : Option Single → Option Single → Single × Single
  | none, none => (.ofRatio false 1 2, .ofRatio false 1 2)
  | some s, none => (s, .ofNat 1 - s)
  | none, some t => (.ofNat 1 - t, t)
  | some s, some t => (s, t)

/-- A space and two colors with their shares. -/
def mixture : Reader Written := do
  expect (← takeWord "in")
  let space ← some! (mixingSpace? (← word))
  let path ← huePath space
  expect (← takeComma)
  let (first, share) ← sharedColor
  expect (← takeComma)
  let (second, other) ← sharedColor
  let (s, t) := sharesOf share other
  expect (s + t ≠ .finite (s + t).isNegative 0)
  finish
  some! (first.mix? space path (toMachine s) second (toMachine t))

/-- The reader of a function's arguments. -/
def functionNamed? (name : String) : Option (Reader Written) :=
  let one : Single := .ofNat 1
  match name with
  | "rgb" | "rgba" => some (derived .srgb byteLimit rgb)
  | "hsl" | "hsla" => some (derived .hsl one (hued .hsl))
  | "hwb" => some (derived .hwb one fun _ => hued .hwb false)
  | "lab" => some (derived .lab one fun _ => axes .lab hundred (.ofNat 125))
  | "lch" => some (derived .lch one fun _ => polar .lch hundred (.ofNat 150))
  | "oklab" => some (derived .oklab one fun _ => axes .oklab one (.ofRatio false 4 10))
  | "oklch" => some (derived .oklch one fun _ => polar .oklch one (.ofRatio false 4 10))
  | "color" => some inSpace
  | "color-mix" => some mixture
  | "light-dark" => some schemes
  | "alpha" => some changedOpacity
  | _ => none

/-- The color that a function stands for. -/
def ofFunction (name : List Char) (contents : Arguments) : Except ColorError Written := do
  let reader ← readable (functionNamed? (lowerWord name))
  reader.run' (contents.filter fun c => c.token != .blank)

end ComputedStyle.Color
