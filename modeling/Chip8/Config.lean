import Chip8.Font
import Chip8.Text.Hex

/-!
The settings of a machine, and which of them fit together: the program starts inside memory, the font
lies below the program, the text window lies inside memory and off the font, and a frame runs at least
one instruction.
-/

namespace Chip8

def ramSize : Nat := 4096

/-- A window of memory through which text passes between the guest program and the nodes. -/
structure TextWindow where
  address : UInt16
  size : UInt16
  deriving DecidableEq, Repr

namespace TextWindow

/-- The first address past the window. -/
def stop (w : TextWindow) : Nat := w.address.toNat + w.size.toNat

def text (w : TextWindow) : String :=
  "0x" ++ Text.lowerHex 4 w.address.toNat ++ "+" ++ toString w.size.toNat

end TextWindow

/-- What can be chosen about a machine. A reset leaves it as it is. -/
structure Config where
  bootAddress : UInt16 := 0x200
  fontAddress : UInt16 := 0x50
  window : TextWindow := ⟨0x1a0, 0x60⟩
  /-- Instructions in one frame. -/
  clockMultiplier : UInt32 := 1
  /-- Extension words are calls of machine code, which do nothing. -/
  compatibility : Bool := true
  /-- The registers are logged before every instruction. -/
  logging : Bool := false
  /-- The program to run; it goes before a file. -/
  program : Option (List UInt8) := none
  romPath : Option String := none
  /-- Fixes the random numbers that the guest program sees. -/
  seed : Option UInt64 := none
  /-- The name under which the nodes reach the machine. -/
  inboxName : String := "CHIP8"
  deriving DecidableEq, Repr

inductive ConfigError
  | bootAddress (address : UInt16)
  | fontAddress (address : UInt16)
  | window (window : TextWindow)
  | windowOverlapsFont (window : TextWindow)
  | clockMultiplier
  deriving DecidableEq, Repr

namespace ConfigError

def message : ConfigError → String
  | bootAddress a => "boot address 0x" ++ Text.lowerHex 4 a.toNat ++ " is outside memory"
  | fontAddress a =>
    "font table at 0x" ++ Text.lowerHex 4 a.toNat ++ " does not fit below the boot address"
  | window w => "data port " ++ w.text ++ " is outside memory"
  | windowOverlapsFont w => "data port " ++ w.text ++ " overlaps the font table"
  | clockMultiplier => "clock multiplier must be at least 1"

/-- The error as one word and its fields, which is how a failed start is reported. -/
def report : ConfigError → String
  | bootAddress a => "BootAddress(" ++ toString a.toNat ++ ")"
  | fontAddress a => "FontAddress(" ++ toString a.toNat ++ ")"
  | window w => "DataPort" ++ windowFields w
  | windowOverlapsFont w => "DataPortOverlapsFont" ++ windowFields w
  | clockMultiplier => "ClockMultiplier"
where
  windowFields (w : TextWindow) : String :=
    " \x7b address: " ++ toString w.address.toNat ++ ", size: " ++ toString w.size.toNat ++ " \x7d"

end ConfigError

namespace Config

def fontStop (c : Config) : Nat := c.fontAddress.toNat + Font.size

/-- Checks that the settings fit together, and names the first that does not. -/
def validate (c : Config) : Except ConfigError Unit :=
  if ramSize ≤ c.bootAddress.toNat then .error (.bootAddress c.bootAddress)
  else if c.bootAddress.toNat < c.fontStop then .error (.fontAddress c.fontAddress)
  else if ramSize < c.window.stop ∨ c.window.size = 0 then .error (.window c.window)
  else if c.window.address.toNat < c.fontStop ∧ c.fontAddress.toNat < c.window.stop then
    .error (.windowOverlapsFont c.window)
  else if c.clockMultiplier = 0 then .error .clockMultiplier
  else .ok ()

/-- Settings that fit together. -/
structure Valid (c : Config) : Prop where
  boot : c.bootAddress.toNat < ramSize
  font : c.fontStop ≤ c.bootAddress.toNat
  window : c.window.stop ≤ ramSize
  room : c.window.size ≠ 0
  apart : c.fontStop ≤ c.window.address.toNat ∨ c.window.stop ≤ c.fontAddress.toNat
  clock : c.clockMultiplier ≠ 0

theorem validate_eq_ok_iff {c : Config} : c.validate = .ok () ↔ c.Valid := by
  unfold validate
  constructor
  · intro h
    by_cases boot : ramSize ≤ c.bootAddress.toNat
    · simp [boot] at h
    by_cases font : c.bootAddress.toNat < c.fontStop
    · simp [boot, font] at h
    by_cases window : ramSize < c.window.stop ∨ c.window.size = 0
    · simp [boot, font, window] at h
    by_cases apart : c.window.address.toNat < c.fontStop ∧ c.fontAddress.toNat < c.window.stop
    · simp [boot, font, window, apart] at h
    by_cases clock : c.clockMultiplier = 0
    · simp [boot, font, window, apart, clock] at h
    exact ⟨by omega, by omega, by omega, fun room => window (Or.inr room), by omega, clock⟩
  · rintro ⟨boot, font, window, room, apart, clock⟩
    have inside : ¬(ramSize < c.window.stop ∨ c.window.size = 0) := by
      rintro (h | h)
      · omega
      · exact room h
    rw [if_neg (by omega), if_neg (by omega), if_neg inside, if_neg (by omega), if_neg clock]

end Config
end Chip8
