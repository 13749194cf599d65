import Chip8.Path
import Chip8.World.Basic

/-!
Devices in memory: keys that are pressed by hand, a display that keeps the last frame, a sound that is
only counted, and files in a list. Any one of them can be broken, and then it fails before it does
anything.
-/

namespace Chip8

inductive Part
  | display | input | beep | stop
  deriving DecidableEq, Repr

structure Bench where
  frames : Nat := 0
  /-- The last of them. -/
  shown : Option Screen := none
  keys : Keys := .none
  /-- How often the keys were read. -/
  polls : Nat := 0
  quit : Bool := false
  beeps : Nat := 0
  stops : Nat := 0
  broken : Option Part := none
  /-- The latest first; an earlier file of the same path is hidden by it. -/
  files : List (Path × List UInt8) := []

namespace Bench

def addFile (b : Bench) (path : String) (contents : List UInt8) : Bench :=
  { b with files := (.ofText path, contents) :: b.files }

/-- Sets whether a key is down; only the lower nibble of its number counts. -/
def setKey (b : Bench) (key : Nat) (down : Bool) : Bench :=
  { b with keys := b.keys.set (key % 16) down (mod_sixteen_lt key) }

def failure (part : Part) : String :=
  match part with
  | .display => "display broken"
  | .input => "input broken"
  | .beep => "beep broken"
  | .stop => "stop broken"

/-- What a part does, unless it is broken. -/
def attempt {ε α : Type} (b : Bench) (part : Part) (fail : String → ε)
    (works : Noted (α × Bench)) : Noted (Except ε α × Bench) :=
  if b.broken = some part then pure (.error (fail (failure part)), b)
  else do
    let (a, b) ← works
    return (.ok a, b)

def ioFailure (text : String) : IoError := .device .other text

instance : Devices Bench where
  present screen b := b.attempt .display ioFailure
    (pure ((), { b with frames := b.frames + 1, shown := some screen }))
  keys b := b.attempt .input ioFailure (pure (b.keys, { b with polls := b.polls + 1 }))
  beep b := b.attempt .beep id do
    Noted.note .beeped
    return ((), { b with beeps := b.beeps + 1 })
  stop b := b.attempt .stop id (pure ((), { b with stops := b.stops + 1 }))
  load path b :=
    match b.files.lookup (.ofText path) with
    | some program => pure (.ok program, b)
    | none => pure (.error (.device .notFound path), b)
  quitRequested b := b.quit

end Bench
end Chip8
