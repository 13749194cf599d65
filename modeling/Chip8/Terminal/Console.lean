import Chip8.Terminal.Frame
import Chip8.Terminal.Keyboard
import Chip8.Terminal.Speaker
import Chip8.World.Basic

/-!
A terminal with its keyboard and a speaker, and the files beside it, as the devices of a machine.
-/

namespace Chip8.Terminal

structure Console where
  /-- What the terminal shows; it is clear before the first frame. -/
  shown : Option Frame := none
  keyboard : Keyboard := {}
  /-- What was typed and not read yet. -/
  typed : List Char := []
  /-- There is none when the sound is off. -/
  speaker : Option Speaker := none
  files : String → Except IoError (List UInt8)

namespace Console

/-- Starts a tone. With the sound off the beep is only logged. -/
def beep (c : Console) : Noted Console :=
  match c.speaker with
  | none => do
    Noted.note .beeped
    return c
  | some s => do
    let s ← s.beep
    return { c with speaker := some s }

instance : Devices Console where
  present screen c := pure (.ok (), { c with shown := some (.ofScreen screen) })
  keys c := do
    let (keys, keyboard) ← c.keyboard.poll (TypedEvent.read c.typed)
    return (.ok keys, { c with keyboard, typed := [] })
  beep c := do
    let c ← c.beep
    return (.ok (), c)
  stop c := pure (.ok (), { c with speaker := c.speaker.map Speaker.stop })
  load path c := pure (c.files path, c)
  quitRequested c := c.keyboard.quit

end Console
end Chip8.Terminal
