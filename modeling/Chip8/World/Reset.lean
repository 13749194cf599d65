import Chip8.Demo
import Chip8.World.Basic

/-!
Starting over: everything is cleared, the program is copied in again, and the machine runs. If a device
fails on the way, the machine stays switched off. The nodes are left alone.
-/

namespace Chip8.Act

variable {δ : Type} [Devices δ]

/-- The program that is configured: the one given, else the one in the file, else the demo. -/
def chooseProgram (config : Config) : Act δ (List UInt8) :=
  match config.program, config.romPath with
  | some program, _ => pure program
  | none, some path => loadFile path
  | none, none => pure demoProgram

/-- Switches the machine on, from the start. -/
def reset : Act δ Unit := do
  let m ← require (← machine).cleared?
  setMachine m
  let program ← chooseProgram m.config
  let (count, m) ← noted (← require (m.load? program))
  setMachine m
  present
  setMachine { m with status := .running }
  note (.restarted count m.config.bootAddress)

end Chip8.Act
