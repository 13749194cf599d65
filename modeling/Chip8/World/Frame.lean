import Chip8.World.Step

/-!
Frames, of which sixty make a second. In a frame the machine takes one message out of its mail, reads
the keys, carries out some instructions and counts its timers down. A frame that is spent waiting for a
key leaves the timers alone.
-/

namespace Chip8.Act

variable {δ : Type}

/-- Copies a payload into the text window; tells how many characters that were. -/
def receive (text : String) : Act δ Nat := do
  let (count, m) ← noted ((← machine).receive text)
  setMachine m
  return count

/-- Writes a text into memory; tells how many characters that were. -/
def writeAscii (addr : UInt16) (text : String) : Act δ Nat := do
  let (count, m) ← noted ((← machine).writeAscii addr text)
  setMachine m
  return count

/-- Gives the machine an inbox of its own, under its configured name. -/
def connectInbox : Act δ (Except RouteError Unit) := do
  let m ← machine
  match ← onNetwork (·.addInbox m.config.inboxName) with
  | .error cause => return .error cause
  | .ok id => do
    setMachine { m with inbox := some id }
    return .ok ()

/-- Copies the oldest payload of the mail into the text window. The inbox may not be at work then. -/
def deliverMail : Act δ Unit := do
  match (← machine).inbox with
  | none => pure ()
  | some id =>
    match ← require (← onNetwork (·.takeMail? id)) with
    | none => pure ()
    | some payload => do
      note (.mailTaken payload)
      let _ ← receive payload
      let left ← onNetwork fun s => (s.network.mailCount id, s)
      whenever (0 < left) (note (.mailQueued left))

variable [Devices δ]

/-- Stops a tone that was started. -/
def silence : Act δ Unit := do
  let m ← machine
  whenever m.toneOn do
    stopTone
    setMachine { m with toneOn := false }

/-- Starts a tone when the sound timer is about to run out. -/
def soundTone : Act δ Unit := do
  let m ← machine
  whenever (m.st = 1) do
    beep
    setMachine { m with toneOn := true }

/-- A timer a tick later; it stops at zero. -/
def countDown (timer : UInt8) : UInt8 := if timer = 0 then 0 else timer - 1

/-- Counts both timers down once. A tone lasts until the next time. -/
def tickTimers : Act δ Unit := do
  whenever (← machine).isActive do
    silence
    let m ← machine
    setMachine { m with dt := countDown m.dt }
    soundTone
    let m ← machine
    setMachine { m with st := countDown m.st }

/-- Takes up to `count` steps. It ends early when the machine stops, and when a step has begun and ended
waiting for a key; only then the answer is `false`, and the frame does not count the timers down. -/
def takeSteps : (count : Nat) → Act δ Bool
  | 0 => pure true
  | count + 1 => do
    let before := (← machine).status
    step
    match before, (← machine).status with
    | .waiting _, .waiting _ => return false
    | _, .waiting _ | _, .running => takeSteps count
    | _, .off | _, .halted _ => return true

def runTick : Act δ Unit := do
  deliverMail
  whenever (← machine).isActive do
    let keys ← readKeys
    let m ← machine
    setMachine { m with keys }
    whenever (← takeSteps m.config.clockMultiplier.toNat) tickTimers

/-- Runs up to `budget` frames after `ticks` others, and counts them all. It ends early when the machine
stops or the user wants to. -/
def runFrames : (budget ticks : Nat) → Act δ Nat
  | 0, ticks => pure ticks
  | budget + 1, ticks => do
    if (← machine).isActive && !(← quitRequested) then
      runTick
      runFrames budget (ticks + 1)
    else
      return ticks

/-- The most frames of a run that has no budget. A frame counter of eight bytes counts no further. -/
def frameLimit : Nat := UInt64.size

/-- Notes after how many frames a run has ended. -/
def endFrames (ticks : Nat) : Act δ Unit := do
  let m ← machine
  note (.stopped ticks m.status)

/-- Runs frames until the machine stops, the user wants to, or the budget is used up; tells how many
they were. -/
def mainLoop (budget : Option Nat) : Act δ Nat := do
  let ticks ← runFrames (budget.getD frameLimit) 0
  endFrames ticks
  return ticks

end Chip8.Act
