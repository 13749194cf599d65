/-!
What the guest program can ask of its own machine.
-/

namespace Chip8

inductive Control
  | logging (on : Bool)
  | clockMultiplier (count : UInt32)
  | halt
  /-- Starts over, and tells the nodes that the machine does. -/
  | reset
  | powerDown
  deriving DecidableEq, Repr

def Control.report : Control → String
  | logging on => "Logging(" ++ (if on then "true" else "false") ++ ")"
  | clockMultiplier count => "ClockMultiplier(" ++ toString count.toNat ++ ")"
  | halt => "Halt"
  | reset => "Reset"
  | powerDown => "PowerDown"

end Chip8
