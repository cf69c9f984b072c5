import ComputedStyle.Color
import ComputedStyle.Number.Machine

namespace ComputedStyle.Color

open Number

/-- Three coordinates of a color. -/
structure Triple where
  x : Float32
  y : Float32
  z : Float32

namespace Triple

def map (f : Float32 → Float32) (t : Triple) : Triple :=
  ⟨f t.x, f t.y, f t.z⟩

/-- A coordinate that the author left out counts as zero. -/
def resolveMissing (t : Triple) : Triple :=
  t.map fun v => if v.isNaN then 0 else v

def dot (a b : Triple) : Float32 :=
  a.x * b.x + a.y * b.y + a.z * b.z

def toColor (t : Triple) : Color :=
  ⟨ofMachine t.x, ofMachine t.y, ofMachine t.z⟩

end Triple

/-- A linear map, by rows. -/
structure Matrix where
  first : Triple
  second : Triple
  third : Triple

def Matrix.apply (m : Matrix) (t : Triple) : Triple :=
  ⟨m.first.dot t, m.second.dot t, m.third.dot t⟩

/-- Applies a curve to the magnitude and keeps the sign. -/
def oddly (curve : Float32 → Float32) (x : Float32) : Float32 :=
  if x < 0 then -(curve (-x)) else curve x

namespace Curve

def srgbEncode (x : Float32) : Float32 :=
  oddly (fun v => if v > 0.0031308 then 1.055 * v.pow (1 / 2.4) - 0.055 else 12.92 * v) x

def srgbDecode (x : Float32) : Float32 :=
  oddly (fun v => if v < 0.04045 then v / 12.92 else ((v + 0.055) / 1.055).pow 2.4) x

def a98Decode (x : Float32) : Float32 :=
  oddly (fun v => v.pow (563 / 256)) x

def prophotoDecode (x : Float32) : Float32 :=
  oddly (fun v => if v <= 16 / 512 then v / 16 else v.pow 1.8) x

def rec2020Decode (x : Float32) : Float32 :=
  let alpha : Float32 := 1.09929682680944
  let beta : Float32 := 0.018053968510807
  oddly (fun v => if v < beta * 4.5 then v / 4.5 else ((v + alpha - 1) / alpha).pow (1 / 0.45)) x

end Curve

namespace Matrix

def d50ToD65 : Matrix :=
  ⟨⟨0.9554734527042182, -0.023098536874261423, 0.0632593086610217⟩,
   ⟨-0.028369706963208136, 1.0099954580058226, 0.021041398966943008⟩,
   ⟨0.012314001688319899, -0.020507696433477912, 1.3303659366080753⟩⟩

def linearSrgbToXyz : Matrix :=
  ⟨⟨0.41239079926595934, 0.357584339383878, 0.1804807884018343⟩,
   ⟨0.21263900587151027, 0.715168678767756, 0.07219231536073371⟩,
   ⟨0.01933081871559182, 0.11919477979462598, 0.9505321522496607⟩⟩

def xyzToLinearSrgb : Matrix :=
  ⟨⟨3.2409699419045226, -1.537383177570094, -0.4986107602930034⟩,
   ⟨-0.9692436362808796, 1.8759675015077202, 0.04155505740717559⟩,
   ⟨0.05563007969699366, -0.20397695888897652, 1.0569715142428786⟩⟩

def displayP3ToXyz : Matrix :=
  ⟨⟨0.4865709486482162, 0.26566769316909306, 0.1982172852343625⟩,
   ⟨0.2289745640697488, 0.6917385218365064, 0.079286914093745⟩,
   ⟨0, 0.04511338185890264, 1.043944368900976⟩⟩

def a98ToXyz : Matrix :=
  ⟨⟨0.5766690429101305, 0.1855582379065463, 0.1882286462349947⟩,
   ⟨0.29734497525053605, 0.6273635662554661, 0.07529145849399788⟩,
   ⟨0.02703136138641234, 0.07068885253582723, 0.9913375368376388⟩⟩

def prophotoToXyzD50 : Matrix :=
  ⟨⟨0.7977604896723027, 0.13518583717574031, 0.0313493495815248⟩,
   ⟨0.2880711282292934, 0.7118432178101014, 0.00008565396060525902⟩,
   ⟨0, 0, 0.8251046025104602⟩⟩

def rec2020ToXyz : Matrix :=
  ⟨⟨0.6369580483012914, 0.14461690358620832, 0.1688809751641721⟩,
   ⟨0.2627002120112671, 0.6779980715188708, 0.05930171646986196⟩,
   ⟨0, 0.028072693049087428, 1.060985057710791⟩⟩

def oklabToCones : Matrix :=
  ⟨⟨0.99999999845051981432, 0.39633779217376785678, 0.21580375806075880339⟩,
   ⟨1.0000000088817607767, -0.1055613423236563494, -0.063854174771705903402⟩,
   ⟨1.0000000546724109177, -0.089484182094965759684, -1.2914855378640917399⟩⟩

def conesToXyz : Matrix :=
  ⟨⟨1.2268798733741557, -0.5578149965554813, 0.28139105017721583⟩,
   ⟨-0.04057576262431372, 1.1122868293970594, -0.07171106666151701⟩,
   ⟨-0.07637294974672142, -0.4214933239627914, 1.5869240244272418⟩⟩

end Matrix

/-- The color spaces a color can be written in, apart from the byte notations. -/
inductive Space where
  | srgb
  | linearSrgb
  | displayP3
  | a98
  | prophoto
  | rec2020
  | xyzD50
  | xyzD65
  | lab
  | lch
  | oklab
  | oklch
  | hsl
  | hwb
deriving DecidableEq, Repr

namespace Space

def cube (x : Float32) : Float32 := x * x * x

/-- The white of a light at 5000 kelvin, its luminance one. -/
def whiteD50 : Triple :=
  ⟨0.3457 / 0.3585, 1, (1 - 0.3457 - 0.3585) / 0.3585⟩

/-- Lightness from 0 to 100 and two opponent axes. -/
def labToXyzD50 (t : Triple) : Triple :=
  let kappa : Float32 := 24389 / 27
  let epsilon : Float32 := 216 / 24389
  let f1 := (t.x + 16) / 116
  let f0 := t.y / 500 + f1
  let f2 := f1 - t.z / 200
  let part (f : Float32) := if cube f > epsilon then cube f else (116 * f - 16) / kappa
  let y := if t.x > kappa * epsilon then cube f1 else t.x / kappa
  ⟨part f0 * whiteD50.x, y * whiteD50.y, part f2 * whiteD50.z⟩

def oklabToXyz (t : Triple) : Triple :=
  Matrix.conesToXyz.apply ((Matrix.oklabToCones.apply t).map cube)

/-- Lightness, chroma and hue as lightness and two opponent axes. -/
def unpolar (t : Triple) : Triple :=
  let angle := t.z * 3.14159265358979323846 / 180
  ⟨t.x, t.y * angle.cos, t.y * angle.sin⟩

/-- One channel of a hue; `h` is in thirds of a turn. -/
def hueChannel (m1 m2 h : Float32) : Float32 :=
  let h := if h < 0 then h + 3 else h
  let h := if h > 3 then h - 3 else h
  if h * 2 < 1 then m1 + (m2 - m1) * h * 2
  else if h * 2 < 3 then m2
  else if h < 2 then m1 + (m2 - m1) * (2 - h) * 2
  else m1

/-- Hue in degrees, saturation and lightness from 0 to 100. -/
def hslToSrgb (t : Triple) : Triple :=
  let hue := (t.x - 360 * (t.x / 360).floor) / 360
  let saturation := t.y / 100
  let lightness := t.z / 100
  let m2 :=
    if lightness <= 0.5 then lightness * (saturation + 1)
    else lightness + saturation - lightness * saturation
  let m1 := lightness * 2 - m2
  let h := hue * 3
  ⟨hueChannel m1 m2 (h + 1), hueChannel m1 m2 h, hueChannel m1 m2 (h - 1)⟩

/-- Hue in degrees, whiteness and blackness from 0 to 100. -/
def hwbToSrgb (t : Triple) : Triple :=
  let white := t.y / 100
  let black := t.z / 100
  if white + black >= 1 then
    let gray := white / (white + black)
    ⟨gray, gray, gray⟩
  else
    (hslToSrgb ⟨t.x, 100, 50⟩).map fun v => v * (1 - white - black) + white

def linearSrgbToXyz (t : Triple) : Triple :=
  Matrix.linearSrgbToXyz.apply t

def srgbToXyz (t : Triple) : Triple :=
  linearSrgbToXyz (t.map Curve.srgbDecode)

/-- The color as an observer sees it by daylight. -/
def toXyz (space : Space) (t : Triple) : Triple :=
  match space with
  | srgb => srgbToXyz t
  | linearSrgb => linearSrgbToXyz t
  | displayP3 => Matrix.displayP3ToXyz.apply (t.map Curve.srgbDecode)
  | a98 => Matrix.a98ToXyz.apply (t.map Curve.a98Decode)
  | prophoto =>
      Matrix.d50ToD65.apply (Matrix.prophotoToXyzD50.apply (t.map Curve.prophotoDecode))
  | rec2020 => Matrix.rec2020ToXyz.apply (t.map Curve.rec2020Decode)
  | xyzD50 => Matrix.d50ToD65.apply t
  | xyzD65 => t
  | lab => Matrix.d50ToD65.apply (labToXyzD50 t)
  | lch => Matrix.d50ToD65.apply (labToXyzD50 (unpolar t))
  | oklab => oklabToXyz t
  | oklch => oklabToXyz (unpolar t)
  | hsl => srgbToXyz (hslToSrgb t)
  | hwb => srgbToXyz (hwbToSrgb t)

/-- The sRGB channels of a color. Those of a color already in sRGB are left alone, missing ones
included. -/
def toSrgb (space : Space) (t : Triple) : Triple :=
  match space with
  | srgb => t
  | linearSrgb => t.resolveMissing.map Curve.srgbEncode
  | hsl => hslToSrgb t.resolveMissing
  | hwb => hwbToSrgb t.resolveMissing
  | _ => (Matrix.xyzToLinearSrgb.apply (space.toXyz t.resolveMissing)).map Curve.srgbEncode

end Space

end ComputedStyle.Color
