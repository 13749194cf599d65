import Chip8.Machine.Execute
import Chip8.Network.Nesting

/-!
A machine among its devices and the nodes. Devices answer from a state of their own, which can be of
any type; an answer may be a failure, and then the operation that called the device ends at once. All
that changed before the failure stays changed.
-/

namespace Chip8

/-- What the devices of a machine can do: show the screen, tell which keys are down, sound a tone, load
a file, and tell that the user wants to stop. A call may fail and may note events. -/
class Devices (δ : Type) where
  present : Screen → δ → Noted (Except IoError Unit × δ)
  keys : δ → Noted (Except IoError Keys × δ)
  beep : δ → Noted (Except String Unit × δ)
  stop : δ → Noted (Except String Unit × δ)
  load : String → δ → Noted (Except IoError (List UInt8) × δ)
  quitRequested : δ → Bool

structure World (δ : Type) where
  machine : Machine
  devices : δ
  network : Network := .empty
  /-- What was noted, the latest event first. -/
  trace : List Event := []

/-- Something done in a world: it has a result or fails, and either way leaves a world. -/
def Act (δ α : Type) : Type := World δ → Except Fault α × World δ

namespace Act

variable {δ α β : Type}

/-- Does one thing and then another, unless the first fails. -/
def andThen (x : Act δ α) (f : α → Act δ β) : Act δ β := fun w =>
  match x w with
  | (.ok a, w) => f a w
  | (.error fault, w) => (.error fault, w)

instance : Monad (Act δ) where
  pure a := fun w => (.ok a, w)
  bind := andThen

@[simp] theorem pure_apply (a : α) (w : World δ) : (pure a : Act δ α) w = (.ok a, w) := rfl

theorem bind_apply (x : Act δ α) (f : α → Act δ β) (w : World δ) :
    (x >>= f) w =
      match x w with
      | (.ok a, w) => f a w
      | (.error fault, w) => (.error fault, w) := rfl

theorem bind_of_ok {x : Act δ α} {w after : World δ} {a : α} (h : x w = (.ok a, after))
    (f : α → Act δ β) : (x >>= f) w = f a after := by
  rw [bind_apply, h]

theorem bind_of_error {x : Act δ α} {w after : World δ} {fault : Fault}
    (h : x w = (.error fault, after)) (f : α → Act δ β) :
    (x >>= f) w = (.error fault, after) := by
  rw [bind_apply, h]

instance : LawfulMonad (Act δ) := by
  refine LawfulMonad.mk' (Act δ) (fun x => ?_) (fun _ _ => rfl) (fun x f g => ?_)
  · funext w
    change (x >>= fun a => pure a) w = x w
    rw [bind_apply]
    split <;> simp_all
  · funext w
    rcases h : x w with ⟨_ | a, after⟩
    · rw [bind_of_error (bind_of_error h f), bind_of_error h]
    · rw [bind_apply, bind_of_ok h, bind_of_ok h, bind_apply]

def machine : Act δ Machine := fun w => (.ok w.machine, w)

def setMachine (m : Machine) : Act δ Unit := fun w => (.ok (), { w with machine := m })

def note (e : Event) : Act δ Unit := fun w => (.ok (), { w with trace := e :: w.trace })

def whenever (condition : Bool) (x : Act δ Unit) : Act δ Unit := if condition then x else pure ()

/-- The value of something that notes events on the way. -/
def noted (x : Noted α) : Act δ α := fun w =>
  (.ok x.value, { w with trace := x.notes.reverse ++ w.trace })

/-- The value of something that must not leave its range. -/
def require : Option α → Act δ α
  | some a => pure a
  | none => fun w => (.error .crash, w)

def onNetwork (f : Session → α × Session) : Act δ α := fun w =>
  let (a, s) := f ⟨w.network, w.trace⟩
  (.ok a, { w with network := s.network, trace := s.trace })

/-- Makes a call of the network. What comes of it is not the machine's business. -/
def call (c : Call) : Act δ Unit := do
  let _ ← onNetwork (·.perform c)

/-- Calls a device; `wrap` makes a fault of a failure. A device notes nothing in the name of another
part. -/
def callDevice {ε : Type} (call : DeviceCall) (wrap : ε → Fault)
    (f : δ → Noted (Except ε α × δ)) : Act δ α := fun w =>
  let answer := f w.devices
  let notes := answer.notes.filter Event.ofDevice
  let w := { w with devices := answer.value.2, trace := notes.reverse ++ w.trace }
  match answer.value.1 with
  | .ok a => (.ok a, { w with trace := .called call none :: w.trace })
  | .error e => (.error (wrap e), { w with trace := .called call (some (wrap e)) :: w.trace })

variable [Devices δ]

def quitRequested : Act δ Bool := fun w => (.ok (Devices.quitRequested w.devices), w)

def present : Act δ Unit := do
  let m ← machine
  callDevice (.present m.screen) .io (Devices.present m.screen)

def readKeys : Act δ Keys := callDevice .keys .io Devices.keys

def beep : Act δ Unit := callDevice .beep .sound Devices.beep

def stopTone : Act δ Unit := callDevice .stop .sound Devices.stop

def loadFile (path : String) : Act δ (List UInt8) :=
  callDevice (.load path) .io (Devices.load path)

end Act
end Chip8
