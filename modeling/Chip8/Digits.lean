/-!
Three decimal digits of a number.
-/

namespace Chip8

/-- Three decimal digits, the highest first. -/
structure Digits where
  hundreds : UInt8
  tens : UInt8
  ones : UInt8
  deriving DecidableEq, Repr

namespace Digits

/-- The nearest number from 0 to 999. -/
def clamp (value : Int) : Nat := min value.toNat 999

/-- The digits of a number; one outside 0 to 999 is taken as the nearest end. -/
def ofInt (value : Int) : Digits where
  hundreds := UInt8.ofNat (clamp value / 100)
  tens := UInt8.ofNat (clamp value / 10 % 10)
  ones := UInt8.ofNat (clamp value % 10)

def toList (d : Digits) : List UInt8 := [d.hundreds, d.tens, d.ones]

end Digits
end Chip8
