import Chip8.World.Reset

/-!
One step of the machine: one instruction, or one look at the keys while it waits for one. A machine
that is switched off or halted does nothing.
-/

namespace Chip8.Act

variable {δ : Type}

/-- Puts the lowest key that is down into the register that waits for it. -/
def awaitKey (m : Machine) (register : Register) : Act δ Unit :=
  match m.keys.first? with
  | none => pure ()
  | some key => do
    setMachine { m.setRegister register (UInt8.ofNat key.val) with status := .running }
    note (.keyArrived key register)

variable [Devices δ]

/-- Does what an instruction wants done outside the machine. -/
def fulfil : Request → Act δ Unit
  | .none => pure ()
  | .present => present
  | .dispatch envelope => call (.dispatch envelope)
  | .reset => do
    reset
    call .broadcastReset

/-- Logs the registers if that is wanted. -/
def dumpRegisters (m : Machine) (word : Opcode) : Act δ Unit :=
  whenever m.config.logging (note (.registersDumped (m.snapshot word)))

def carryOut (word : Opcode) : Act δ Unit := do
  let m ← machine
  let m := { m with instructions := m.instructions + 1 }
  setMachine m
  dumpRegisters m word
  let instruction := Instruction.decode word m.config.compatibility
  note (.executed instruction)
  let done ← noted (← require (m.execute instruction))
  setMachine done.machine
  fulfil done.request
  let m ← noted ((← machine).follow done.flow)
  setMachine (← noted m.checkEnd)

def step : Act δ Unit := do
  let m ← machine
  match m.status with
  | .off | .halted _ => pure ()
  | .waiting register => awaitKey m register
  | .running =>
    match m.ram.word? m.pc with
    | some word => carryOut ⟨word⟩
    | none => do
      setMachine (← noted (m.halt (.outOfBounds m.pc)))

end Chip8.Act
