import ComputedStyle.Number.Decimal

namespace ComputedStyle

open Number

structure Color where
  red : Single
  green : Single
  blue : Single
deriving DecidableEq, Repr

namespace Color

def black : Color := ⟨.ofNat 0, .ofNat 0, .ofNat 0⟩

def white : Color := ⟨.ofNat 1, .ofNat 1, .ofNat 1⟩

def toList (color : Color) : List Single :=
  [color.red, color.green, color.blue]

def hexDigit (n : Nat) : Char :=
  if n < 10 then Char.ofNat ('0'.toNat + n) else Char.ofNat ('a'.toNat + (n - 10))

/-- A channel as a byte, brought into range and rounded. -/
def byteOf (channel : Single) : Nat :=
  let scaled : Single := channel.clamp .zero (.ofNat 1) * .ofNat 255
  (scaled.scaled? 1).elim 0 Int.toNat

def hexByte (n : Nat) : List Char :=
  [hexDigit (n / 16), hexDigit (n % 16)]

/-- The notation of six hexadecimal digits. -/
def hex (color : Color) : String :=
  String.ofList ('#' :: color.toList.flatMap fun channel => hexByte (byteOf channel))

end Color

/-- A color in bytes, with its opacity. -/
structure ByteColor where
  red : Nat
  green : Nat
  blue : Nat
  opacity : Nat
deriving DecidableEq, Repr

namespace ByteColor

/-- The color seen when this one is laid over white. -/
def overWhite (color : ByteColor) : Color :=
  let unit (n : Nat) : Single := .ofNat n / .ofNat 255
  let opacity := unit color.opacity
  let channel (n : Nat) : Single := unit n * opacity + (.ofNat 1 - opacity)
  ⟨channel color.red, channel color.green, channel color.blue⟩

end ByteColor

end ComputedStyle
