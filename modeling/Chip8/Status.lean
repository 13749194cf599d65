import Chip8.Opcode

/-!
What a machine is doing: switched off, running, waiting for a key, or halted. Only a reset gets a
halted machine going again.
-/

namespace Chip8

inductive HaltReason
  /-- The next instruction would lie past the end of memory. -/
  | outOfBounds (pc : UInt16)
  /-- A call with every stack entry in use. -/
  | stackOverflow (pc : UInt16)
  /-- A return without a call. -/
  | stackUnderflow (pc : UInt16)
  /-- The program asked for it. -/
  | requested
  deriving DecidableEq, Repr

namespace HaltReason

def message : HaltReason → String
  | outOfBounds pc => "PC out of bounds (0x" ++ Text.lowerHex 4 pc.toNat ++ ")"
  | stackOverflow pc => "stack overflow at 0x" ++ Text.lowerHex 4 pc.toNat
  | stackUnderflow pc => "stack underflow at 0x" ++ Text.lowerHex 4 pc.toNat
  | requested => "halt requested by program"

/-- The reason as one word and its field. -/
def report : HaltReason → String
  | outOfBounds pc => "ProgramCounterOutOfBounds(" ++ toString pc.toNat ++ ")"
  | stackOverflow pc => "StackOverflow(" ++ toString pc.toNat ++ ")"
  | stackUnderflow pc => "StackUnderflow(" ++ toString pc.toNat ++ ")"
  | requested => "Requested"

end HaltReason

inductive Status
  | off
  | running
  /-- The next key that goes down is put into the register. -/
  | waiting (register : Register)
  | halted (reason : HaltReason)
  deriving DecidableEq, Repr

namespace Status

def isActive : Status → Bool
  | running | waiting _ => true
  | off | halted _ => false

def report : Status → String
  | off => "Off"
  | running => "Running"
  | waiting r => "WaitingForKey \x7b register: " ++ toString r.val ++ " \x7d"
  | halted reason => "Halted(" ++ reason.report ++ ")"

end Status
end Chip8
