import ComputedStyle.Color.Conversion

/-!
Colors as they are written, and mixtures of two of them.

A coordinate that is missing, or has no influence on the color, takes the value of the other color.
-/

namespace ComputedStyle

open Number

namespace Color

/-- A color before it is shown. The coordinates and the opacity may be missing; a missing one is a
NaN. -/
inductive Paint where
  | bytes (color : ByteColor)
  | place (space : Space) (coordinates : Triple) (opacity : Float32)
  /-- A color of the system or of the text around. -/
  | contextual

/-- Coordinates in some space, and an opacity. -/
structure Ingredient where
  coordinates : Triple
  opacity : Float32

/-- The way between two hues. -/
inductive HuePath where
  | shorter
  | longer
  | increasing
  | decreasing
  | specified
deriving DecidableEq, Repr

namespace HuePath

/-- A hue from 0 up to 360 degrees. -/
def turn (hue : Float32) : Float32 :=
  hue - 360 * (hue / 360).floor

/-- Both hues, a turn added to one of them where the path asks for it. -/
def adjust (path : HuePath) (a b : Float32) : Float32 × Float32 :=
  let s := turn a
  let t := turn b
  let delta := t - s
  match path with
  | shorter =>
      if delta > 180 then (s + 360, t) else if delta < -180 then (s, t + 360) else (s, t)
  | longer =>
      if 0 < delta && delta < 180 then (s + 360, t)
      else if -180 < delta && delta < 0 then (s, t + 360)
      else (s, t)
  | increasing => if t < s then (s, t + 360) else (s, t)
  | decreasing => if s < t then (s + 360, t) else (s, t)
  | specified => (a, b)

end HuePath

namespace Space

/-- Coordinates below this size count as zero. -/
def negligible : Float32 := 1.1920929e-7

/-- Drops the coordinates that do not show: the hue of a gray, all but the lightness of black. -/
def dropPowerless (space : Space) (t : Triple) : Triple :=
  let zero (v : Float32) : Bool := v.abs < negligible
  let missing : Float32 := 0 / 0
  match space with
  | lab | oklab => if zero t.x then ⟨t.x, missing, missing⟩ else t
  | lch | oklch =>
      if zero t.x then ⟨t.x, missing, missing⟩
      else if zero t.y then ⟨t.x, t.y, missing⟩
      else t
  | hsl =>
      if zero t.z || zero (t.z - 100) then ⟨missing, missing, t.z⟩
      else if zero t.y then ⟨missing, t.y, t.z⟩
      else t
  | hwb => if zero (t.y + t.z - 100) then ⟨missing, t.y, t.z⟩ else t
  | srgb | linearSrgb | displayP3 | a98 | prophoto | rec2020 | xyzD50 | xyzD65 => t

/-- Applies a function to the coordinates that are not a hue. -/
def mapStraight (space : Space) (f : Float32 → Float32) (t : Triple) : Triple :=
  match space with
  | hsl | hwb => ⟨t.x, f t.y, f t.z⟩
  | lch | oklch => ⟨f t.x, f t.y, t.z⟩
  | _ => t.map f

def adjustHues (space : Space) (path : HuePath) (a b : Triple) : Triple × Triple :=
  match space with
  | hsl | hwb =>
      let (s, t) := path.adjust a.x b.x
      ({ a with x := s }, { b with x := t })
  | lch | oklch =>
      let (s, t) := path.adjust a.z b.z
      ({ a with z := s }, { b with z := t })
  | _ => (a, b)

end Space

def orElse (a b : Float32) : Float32 :=
  if a.isNaN then b else a

namespace Ingredient

/-- Takes what is missing from another one. -/
def fill (a b : Ingredient) : Ingredient :=
  ⟨⟨orElse a.coordinates.x b.coordinates.x, orElse a.coordinates.y b.coordinates.y,
    orElse a.coordinates.z b.coordinates.z⟩, orElse a.opacity b.opacity⟩

/-- The coordinates other than a hue weighted by the opacity. -/
def premultiply (space : Space) (a : Ingredient) : Ingredient :=
  if a.opacity.isNaN then a
  else { a with coordinates := space.mapStraight (· * a.opacity) a.coordinates }

/-- Takes the weighting by the opacity back, and scales the opacity. -/
def unpremultiply (space : Space) (scale : Float32) (a : Ingredient) : Ingredient :=
  if a.opacity.isNaN || a.opacity == 0 then a
  else ⟨space.mapStraight (· / a.opacity) a.coordinates, a.opacity * scale⟩

/-- The sum of both in the given shares. -/
def blend (a b : Ingredient) (s t : Float32) : Ingredient :=
  ⟨⟨a.coordinates.x * s + b.coordinates.x * t, a.coordinates.y * s + b.coordinates.y * t,
    a.coordinates.z * s + b.coordinates.z * t⟩, a.opacity * s + b.opacity * t⟩

end Ingredient

namespace Paint

/-- A color in a space, and an opacity. -/
def place? : Paint → Option (Space × Ingredient)
  | bytes c =>
      let unit (n : Nat) : Float32 := Float32.ofNat n / 255
      some (.srgb, ⟨⟨unit c.red, unit c.green, unit c.blue⟩, unit c.opacity⟩)
  | place space coordinates opacity => some (space, ⟨coordinates, opacity⟩)
  | contextual => none

/-- Whether two colors are written in the same way and nothing is missing. -/
def same : Paint → Paint → Bool
  | bytes a, bytes b => a = b
  | place space a alpha, place other b beta =>
      space = other && a.x == b.x && a.y == b.y && a.z == b.z && alpha == beta
  | contextual, contextual => true
  | _, _ => false

/-- The color on white; the opacity of a color that is not in bytes is left out. -/
def shown? : Paint → Option Color
  | bytes c => some c.overWhite
  | place space coordinates _ => some (space.toSrgb coordinates).toColor
  | contextual => none

/-- The color in a space, nothing missing. -/
def resolved? (target : Space) (paint : Paint) : Option Ingredient :=
  paint.place?.map fun (space, i) =>
    ⟨(space.bring target i.coordinates).resolveMissing, orElse i.opacity 0⟩

/-- The color ready to be mixed in a space. One that is already there keeps what is missing. -/
def entering? (target : Space) (paint : Paint) : Option Ingredient :=
  paint.place?.map fun (space, i) =>
    if space = target then i
    else ⟨target.dropPowerless (space.bring target i.coordinates), orElse i.opacity 0⟩

/-- A color at a place, in bytes if the space is one of the notations for bytes. -/
def ofIngredient (space : Space) (i : Ingredient) : Paint :=
  match space with
  | .srgb | .hsl | .hwb =>
      let channels := (Space.srgb.intoGamut
        (space.toSrgb i.coordinates.resolveMissing)).toColor
      bytes ⟨byteOf channels.red, byteOf channels.green, byteOf channels.blue,
        byteOf (ofMachine (orElse i.opacity 0))⟩
  | _ => place space i.coordinates i.opacity

end Paint

/-- Mixes in the given shares; shares that add up to less than one make the mixture see-through. -/
def Ingredient.mix (target : Space) (path : HuePath) (a : Ingredient) (s : Float32)
    (b : Ingredient) (t : Float32) : Ingredient :=
  let first := a.fill b
  let second := b.fill first
  let (p, q) := target.adjustHues path first.coordinates second.coordinates
  let first := { first with coordinates := p }.premultiply target
  let second := { second with coordinates := q }.premultiply target
  let total := s + t
  (first.blend second (s / total) (t / total)).unpremultiply target (if total > 1 then 1 else total)

/-- A mixture of two colors, neither of which may depend on the context. -/
def Paint.mix? (target : Space) (path : HuePath) (a : Paint) (s : Float32) (b : Paint)
    (t : Float32) : Option Paint := do
  let first ← a.entering? target
  let second ← b.entering? target
  some (.ofIngredient target (first.mix target path s second t))

/-- A color as it is written: one, or one for a light and one for a dark scheme. -/
inductive Written where
  | plain (paint : Paint)
  | scheme (light dark : Paint)

namespace Written

def light : Written → Paint
  | plain paint => paint
  | scheme light _ => light

def dark : Written → Paint
  | plain paint => paint
  | scheme _ dark => dark

/-- One color for each scheme; two that are the same are one. -/
def ofSchemes (light dark : Paint) : Written :=
  if light.same dark then plain light else scheme light dark

/-- The color on white; one that depends on the scheme or the context has none. -/
def shown? : Written → Option Color
  | plain paint => paint.shown?
  | scheme _ _ => none

/-- Does the same for each scheme. -/
def mapM [Monad m] (f : Paint → m Paint) : Written → m Written
  | plain paint => do return plain (← f paint)
  | scheme light dark => do return scheme (← f light) (← f dark)

/-- A mixture, for each scheme if one of the colors depends on it. -/
def mix? (target : Space) (path : HuePath) (a : Written) (s : Float32) (b : Written)
    (t : Float32) : Option Written :=
  match a, b with
  | plain p, plain q => (p.mix? target path s q t).map plain
  | _, _ => do
      some (scheme (← a.light.mix? target path s b.light t) (← a.dark.mix? target path s b.dark t))

end Written

end Color

end ComputedStyle
