import Chip8.Noted

/-!
A speaker that can sound one tone.
-/

namespace Chip8.Terminal

structure Speaker where
  /-- In hertz, and never zero, which would mean silence. -/
  pitch : UInt16
  beeping : Bool := false
  deriving DecidableEq, Repr

namespace Speaker

/-- The pitch when none is chosen: the C seven octaves up. -/
def defaultPitch : UInt16 := 2093

/-- A speaker of a pitch; the lowest is one hertz. -/
def ofPitch (pitch : UInt16) : Speaker := { pitch := max pitch 1 }

def beep (s : Speaker) : Noted Speaker := do
  Noted.note (.toneOn s.pitch)
  return { s with beeping := true }

def stop (s : Speaker) : Speaker := { s with beeping := false }

end Speaker
end Chip8.Terminal
