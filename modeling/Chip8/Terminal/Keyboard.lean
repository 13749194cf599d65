import Chip8.Machine.Basic
import Chip8.Terminal.Key

/-!
The keyboard of a terminal as the keys of a machine. A terminal tells when a key goes down and not when
it comes up, so a key counts as down for six readings of the keyboard from the press on.
-/

namespace Chip8.Terminal

/-- How many readings a press lasts. -/
def holdReadings : Nat := 6

/-- The machine's key for a character; the keys lie on the left of the keyboard, four in a row. -/
def machineKey? (c : Char) : Option (Fin 16) :=
  match c with
  | '1' => some 0x1
  | '2' => some 0x2
  | '3' => some 0x3
  | '4' => some 0xc
  | 'q' => some 0x4
  | 'w' => some 0x5
  | 'e' => some 0x6
  | 'r' => some 0xd
  | 'a' => some 0x7
  | 's' => some 0x8
  | 'd' => some 0x9
  | 'f' => some 0xe
  | 'z' => some 0xa
  | 'x' => some 0x0
  | 'c' => some 0xb
  | 'v' => some 0xf
  | _ => none

structure Keyboard where
  /-- For how many more readings each key counts as down. -/
  held : Vector Nat 16 := Vector.replicate _ 0
  /-- The user wants to stop. -/
  quit : Bool := false
  deriving DecidableEq, Repr

namespace Keyboard

/-- Whether a key press means that the user wants to stop: escape, or C with CONTROL. -/
def isQuit (p : KeyPress) : Bool :=
  p.code == .escape || (p.code == .char 'c' && p.control)

/-- Takes one event in. -/
def hear (k : Keyboard) : TypedEvent → Noted Keyboard
  | .key press =>
    if isQuit press then pure { k with quit := true }
    else
      match press.code with
      | .char c =>
        match machineKey? c.toLower with
        | some key => pure { k with held := k.held.setIfInBounds key holdReadings }
        | none => do
          Noted.note (.keyUnmapped c)
          return k
      | code => do
        Noted.note (.keyIgnored code.name)
        return k
  | .mouse click => do
    Noted.note (.terminalEventIgnored click.name)
    return k
  | .other name => do
    Noted.note (.terminalEventIgnored name)
    return k

def hearAll (k : Keyboard) : List TypedEvent → Noted Keyboard
  | [] => pure k
  | event :: rest => do
    let k ← k.hear event
    k.hearAll rest

/-- Reads the keyboard: takes in what was typed since the last reading, and tells which keys are down. -/
def poll (k : Keyboard) (typed : List TypedEvent) : Noted (Keys × Keyboard) := do
  let k ← k.hearAll typed
  return (k.held.map fun n => decide (0 < n), { k with held := k.held.map (· - 1) })

end Keyboard
end Chip8.Terminal
