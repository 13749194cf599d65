import Chip8.Extension
import Chip8.Random

/-!
The machine: sixteen registers, of which VF is also the flag, the index register I, the program
counter, two timers, a stack of sixteen return addresses, the memory and the screen.
-/

namespace Chip8

/-- Which of the sixteen keys are down. -/
abbrev Keys := Vector Bool 16

def Keys.none : Keys := Vector.replicate _ false

/-- The lowest key that is down. -/
def Keys.first? (keys : Keys) : Option (Fin 16) := (List.finRange 16).find? fun k => keys.get k

structure Machine where
  config : Config
  ram : Ram
  screen : Screen
  v : Registers
  i : UInt16
  pc : UInt16
  dt : UInt8
  st : UInt8
  /-- The number of return addresses on the stack. -/
  sp : UInt8
  stack : Vector UInt16 16
  keys : Keys
  status : Status
  /-- The instructions carried out since the last reset. Counts of `2 ^ 64` and more are out of scope. -/
  instructions : Nat
  /-- A tone was started and not yet stopped. -/
  toneOn : Bool
  random : Random
  /-- The node from which the machine takes its mail. -/
  inbox : Option NodeId
  deriving DecidableEq, Repr

namespace Machine

/-- A machine that is switched off, if its settings fit together. The random numbers come from the
configured seed, or from `entropy` when none is configured. -/
def build (config : Config) (entropy : UInt64) : Except Fault Machine :=
  match config.validate with
  | .error cause => .error (.config cause)
  | .ok () =>
    match Ram.blank? config.fontAddress with
    | none => .error .crash
    | some ram =>
      .ok {
        config, ram
        screen := .blank
        v := Vector.replicate _ 0
        i := 0
        pc := config.bootAddress
        dt := 0
        st := 0
        sp := 0
        stack := Vector.replicate _ 0
        keys := .none
        status := .off
        instructions := 0
        toneOn := false
        random := .ofSeed (config.seed.getD entropy)
        inbox := none }

def isActive (m : Machine) : Bool := m.status.isActive

/-- The register that instructions leave their flag in. -/
def flagRegister : Register := 15

def setRegister (m : Machine) (x : Register) (value : UInt8) : Machine :=
  { m with v := m.v.setIfInBounds x value }

/-- Puts a value into a register, and then the flag into VF. -/
def setWithFlag (m : Machine) (x : Register) (value flag : UInt8) : Machine :=
  (m.setRegister x value).setRegister flagRegister flag

/-- Stops for a reason that only a reset overcomes. -/
def halt (m : Machine) (reason : HaltReason) : Noted Machine := do
  Noted.note (.halted reason)
  return { m with status := .halted reason }

/-- Whether an instruction at the program counter would not lie inside memory. -/
def isPastEnd (m : Machine) : Bool := ramSize ≤ m.pc.toNat + 1

def snapshot (m : Machine) (word : Opcode) : Snapshot where
  instructions := m.instructions
  pc := m.pc
  word := word
  i := m.i
  sp := m.sp
  dt := m.dt
  st := m.st
  v := m.v

/-! ### Starting over -/

/-- The machine switched off with everything cleared that a reset clears: all but its settings, its
tone, its random numbers and its inbox. -/
def cleared? (m : Machine) : Option Machine :=
  m.ram.clear?.map fun ram =>
    { m with
      ram
      screen := .blank
      v := Vector.replicate _ 0
      i := 0
      pc := m.config.bootAddress
      dt := 0
      st := 0
      sp := 0
      stack := Vector.replicate _ 0
      keys := .none
      status := .off
      instructions := 0 }

/-- The machine with a program copied in, and how much of the program fitted. -/
def load? (m : Machine) (program : List UInt8) : Option (Noted (Nat × Machine)) :=
  (m.ram.load? program m.config.bootAddress).map fun loaded => do
    let (count, ram) ← loaded
    return (count, { m with ram })

/-! ### Text in memory -/

/-- Writes a text into the text window; tells how many characters were written. -/
def receive (m : Machine) (text : String) : Noted (Nat × Machine) := do
  let window := m.config.window
  let (count, ram) ← m.ram.writeAscii window.address.toNat text window.size.toNat
  Noted.note (.dataReceived count)
  return (count, { m with ram })

/-- Writes a text anywhere, up to the end of memory; tells how many characters were written. -/
def writeAscii (m : Machine) (addr : UInt16) (text : String) : Noted (Nat × Machine) := do
  let (count, ram) ← m.ram.writeAscii addr.toNat text (ramSize - addr.toNat)
  return (count, { m with ram })

end Machine
end Chip8
