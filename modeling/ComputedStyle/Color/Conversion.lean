import ComputedStyle.Color.Space

/-!
The way into each color space, and the part of a space that can be shown.

A color outside the part that can be shown loses chroma, its lightness and hue kept, until it or a
clipped color that the eye cannot tell from it lies inside.
-/

namespace ComputedStyle.Color

namespace Curve

def a98Encode (x : Float32) : Float32 :=
  oddly (fun v => v.pow (256 / 563)) x

def prophotoEncode (x : Float32) : Float32 :=
  oddly (fun v => if v >= 1 / 512 then v.pow (1 / 1.8) else 16 * v) x

def rec2020Encode (x : Float32) : Float32 :=
  let alpha : Float32 := 1.09929682680944
  let beta : Float32 := 0.018053968510807
  oddly (fun v => if v > beta then alpha * v.pow 0.45 - (alpha - 1) else 4.5 * v) x

end Curve

namespace Matrix

def d65ToD50 : Matrix :=
  ⟨⟨1.0479298208405488, 0.022946793341019088, -0.05019222954313557⟩,
   ⟨0.029627815688159344, 0.990434484573249, -0.01707382502938514⟩,
   ⟨-0.009243058152591178, 0.015055144896577895, 0.7518742899580008⟩⟩

def xyzToDisplayP3 : Matrix :=
  ⟨⟨2.493496911941425, -0.9313836179191238, -0.40271078445071684⟩,
   ⟨-0.8294889695615747, 1.7626640603183463, 0.02362468584194358⟩,
   ⟨0.03584583024378436, -0.07617238926804178, 0.9568845240076872⟩⟩

def xyzToA98 : Matrix :=
  ⟨⟨2.041587903810747, -0.5650069742788597, -0.34473135077832967⟩,
   ⟨-0.9692436362808796, 1.8759675015077202, 0.041555057407175605⟩,
   ⟨0.013444280632031147, -0.11836239223101838, 1.0151749943912054⟩⟩

def xyzD50ToProphoto : Matrix :=
  ⟨⟨1.3457989731028281, -0.2555801000799754, -0.051106285067534⟩,
   ⟨-0.5446224939028347, 1.5082327413132781, 0.020536032391479723⟩,
   ⟨0, 0, 1.2119675456389454⟩⟩

def xyzToRec2020 : Matrix :=
  ⟨⟨1.7166511879712674, -0.35567078377639233, -0.2533662813736598⟩,
   ⟨-0.6666843518324893, 1.6164812366349397, 0.015768545813911145⟩,
   ⟨0.01763985744531087, -0.042770613257808544, 0.9421031212354739⟩⟩

def xyzToCones : Matrix :=
  ⟨⟨0.8190224432164319, 0.3619062562801221, -0.12887378261216414⟩,
   ⟨0.0329836671980271, 0.9292868468965546, 0.03614466816999844⟩,
   ⟨0.048177199566046255, 0.26423952494422764, 0.6335478258136937⟩⟩

def conesToOklab : Matrix :=
  ⟨⟨0.2104542553, 0.7936177850, -0.0040720468⟩,
   ⟨1.9779984951, -2.4285922050, 0.4505937099⟩,
   ⟨0.0259040371, 0.7827717662, -0.8086757660⟩⟩

end Matrix

namespace Space

def labOfXyzD50 (t : Triple) : Triple :=
  let kappa : Float32 := 24389 / 27
  let epsilon : Float32 := 216 / 24389
  let part (v : Float32) := if v > epsilon then v.cbrt else (kappa * v + 16) / 116
  let f0 := part (t.x / whiteD50.x)
  let f1 := part (t.y / whiteD50.y)
  let f2 := part (t.z / whiteD50.z)
  ⟨116 * f1 - 16, 500 * (f0 - f1), 200 * (f1 - f2)⟩

def oklabOfXyz (t : Triple) : Triple :=
  Matrix.conesToOklab.apply ((Matrix.xyzToCones.apply t).map Float32.cbrt)

/-- Lightness and two opponent axes as lightness, chroma and hue. -/
def polar (t : Triple) : Triple :=
  let hue := (t.z.atan2 t.y) * 180 / 3.14159265358979323846
  let hue := if hue < 0 then hue + 360 else hue
  ⟨t.x, (t.y * t.y + t.z * t.z).sqrt, if hue >= 360 then hue - 360 else hue⟩

/-- The hue of a gray is missing. -/
def hslOfSrgb (t : Triple) : Triple :=
  let high := max t.x (max t.y t.z)
  let low := min t.x (min t.y t.z)
  let lightness := (low + high) / 2
  let spread := high - low
  if spread == 0 then ⟨0 / 0, 0, lightness * 100⟩
  else
    let saturation :=
      if lightness == 0 || lightness == 1 then 0
      else (high - lightness) / min lightness (1 - lightness)
    let sixths :=
      if high == t.x then (t.y - t.z) / spread + (if t.y < t.z then 6 else 0)
      else if high == t.y then (t.z - t.x) / spread + 2
      else (t.x - t.y) / spread + 4
    ⟨sixths * 60, saturation * 100, lightness * 100⟩

def hwbOfSrgb (t : Triple) : Triple :=
  let white := min t.x (min t.y t.z)
  let black := 1 - max t.x (max t.y t.z)
  ⟨(hslOfSrgb t).x, white * 100, black * 100⟩

def linearSrgbOfXyz (t : Triple) : Triple :=
  Matrix.xyzToLinearSrgb.apply t

def srgbOfXyz (t : Triple) : Triple :=
  (linearSrgbOfXyz t).map Curve.srgbEncode

def ofXyz (space : Space) (t : Triple) : Triple :=
  match space with
  | srgb => srgbOfXyz t
  | linearSrgb => linearSrgbOfXyz t
  | displayP3 => (Matrix.xyzToDisplayP3.apply t).map Curve.srgbEncode
  | a98 => (Matrix.xyzToA98.apply t).map Curve.a98Encode
  | prophoto =>
      (Matrix.xyzD50ToProphoto.apply (Matrix.d65ToD50.apply t)).map Curve.prophotoEncode
  | rec2020 => (Matrix.xyzToRec2020.apply t).map Curve.rec2020Encode
  | xyzD50 => Matrix.d65ToD50.apply t
  | xyzD65 => t
  | lab => labOfXyzD50 (Matrix.d65ToD50.apply t)
  | lch => polar (labOfXyzD50 (Matrix.d65ToD50.apply t))
  | oklab => oklabOfXyz t
  | oklch => polar (oklabOfXyz t)
  | hsl => hslOfSrgb (srgbOfXyz t)
  | hwb => hwbOfSrgb (srgbOfXyz t)

/-- The coordinates in another space. Between spaces with the same axes the way is direct. -/
def convert (source target : Space) (t : Triple) : Triple :=
  if source = target then t
  else
    let t := t.resolveMissing
    match source, target with
    | linearSrgb, srgb => source.toSrgb t
    | hsl, srgb => source.toSrgb t
    | hwb, srgb => source.toSrgb t
    | srgb, linearSrgb => t.map Curve.srgbDecode
    | hsl, linearSrgb => (source.toSrgb t).map Curve.srgbDecode
    | hwb, linearSrgb => (source.toSrgb t).map Curve.srgbDecode
    | srgb, hsl => hslOfSrgb t
    | linearSrgb, hsl => hslOfSrgb (source.toSrgb t)
    | hwb, hsl => hslOfSrgb (source.toSrgb t)
    | srgb, hwb => hwbOfSrgb t
    | linearSrgb, hwb => hwbOfSrgb (source.toSrgb t)
    | hsl, hwb => hwbOfSrgb (source.toSrgb t)
    | lab, lch => polar t
    | oklab, oklch => polar t
    | lch, lab => unpolar t
    | oklch, oklab => unpolar t
    | xyzD50, lab => labOfXyzD50 t
    | xyzD50, lch => polar (labOfXyzD50 t)
    | lab, xyzD50 => labToXyzD50 t
    | lch, xyzD50 => labToXyzD50 (unpolar t)
    | _, _ => target.ofXyz (source.toXyz t)

/-- The range of the coordinates that a device can show: none for the spaces without bounds. -/
def canShow (space : Space) (t : Triple) : Bool :=
  let within (limit v : Float32) : Bool := v >= 0 && v <= limit
  match space with
  | srgb | linearSrgb | displayP3 | a98 | prophoto | rec2020 =>
      within 1 t.x && within 1 t.y && within 1 t.z
  | hsl | hwb => within 100 t.y && within 100 t.z
  | xyzD50 | xyzD65 | lab | lch | oklab | oklch => true

/-- Each coordinate brought into its range. -/
def clip (space : Space) (t : Triple) : Triple :=
  let into (limit v : Float32) : Float32 := if v < 0 then 0 else if v > limit then limit else v
  match space with
  | srgb | linearSrgb | displayP3 | a98 | prophoto | rec2020 => t.map (into 1)
  | hsl | hwb => ⟨t.x, into 100 t.y, into 100 t.z⟩
  | xyzD50 | xyzD65 | lab | lch | oklab | oklch => t

/-- The distance of two colors as the eye judges it. -/
def distance (a b : Triple) : Float32 :=
  let square (v : Float32) := v * v
  (square (a.x - b.x) + square (a.y - b.y) + square (a.z - b.z)).sqrt

def gamutPrecision : Float32 := 0.00001

/-- Halves the range of chromas that holds the largest one that can be shown. -/
def searchChroma (space : Space) (light hue : Float32) :
    Nat → (low high current : Float32) → Triple
  | 0, _, _, current => oklch.convert space ⟨light, current, hue⟩
  | steps + 1, low, high, current =>
      if high - low > gamutPrecision then
        let chroma := (low + high) / 2
        let wanted : Triple := ⟨light, chroma, hue⟩
        let place := oklch.convert space wanted
        if space.canShow place then searchChroma space light hue steps chroma high chroma
        else
          let clipped := space.clip place
          if distance (space.convert oklab clipped) (unpolar wanted) < 0.02 then clipped
          else searchChroma space light hue steps low chroma chroma
      else oklch.convert space ⟨light, current, hue⟩

/-- The place itself if it can be shown, or the nearest that can by giving up chroma. -/
def intoGamut (space : Space) (t : Triple) : Triple :=
  if space.canShow t then t
  else
    let c := space.convert oklch t
    if (c.x - 1).abs < gamutPrecision || c.x > 1 then oklch.convert space ⟨1, 0, 0⟩
    else if c.x < gamutPrecision then oklch.convert space ⟨0, 0, 0⟩
    else searchChroma space c.x c.z 64 0 c.y c.y

/-- The coordinates in another space, where it can show the color. -/
def bring (source target : Space) (t : Triple) : Triple :=
  match target with
  | hsl | hwb => srgb.convert target (srgb.intoGamut (source.toSrgb t.resolveMissing))
  | _ => target.intoGamut (source.convert target t)

end Space

end ComputedStyle.Color
