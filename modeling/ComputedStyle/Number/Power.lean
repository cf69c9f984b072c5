namespace ComputedStyle

/-- A power by a natural number is that of the core library, also where another library brings one
of its own. -/
@[default_instance 20000]
instance (priority := 2000) corePower [NatPow α] : Pow α Nat := instPowNat

end ComputedStyle
