import ComputedStyle.Number.Binary

namespace ComputedStyle.Number

/-- The machine number with the same value. -/
def toMachine (x : Single) : Float32 :=
  Float32.ofBits (UInt32.ofNat x.toBits)

def ofMachine (x : Float32) : Single :=
  .ofBits x.toBits.toNat

/-- A function of machine numbers, applied to an exact number. -/
def onMachine (f : Float32 → Float32) (x : Single) : Single :=
  ofMachine (f (toMachine x))

end ComputedStyle.Number
