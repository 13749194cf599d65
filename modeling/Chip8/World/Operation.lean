import Chip8.Network.Change
import Chip8.World.Frame

/-!
What can be done with a world from outside: the operations of the machine, and changes of the network
around it.
-/

namespace Chip8

inductive Operation
  | reset
  | step
  | tickTimers
  | runTick
  | mainLoop (budget : Option Nat)
  | receive (text : String)
  | writeAscii (addr : UInt16) (text : String)
  | connectInbox
  | network (change : Change)

/-- The result of an operation that does not fail. -/
inductive Result
  | done
  /-- Frames that were run, or characters that were written. -/
  | count (n : Nat)
  | connected (answer : Except RouteError Unit)
  | network (reply : Reply)

def Act.operate {δ : Type} [Devices δ] : Operation → Act δ Result
  | .reset => do
    reset
    return .done
  | .step => do
    step
    return .done
  | .tickTimers => do
    tickTimers
    return .done
  | .runTick => do
    runTick
    return .done
  | .mainLoop budget => return .count (← mainLoop budget)
  | .receive text => return .count (← receive text)
  | .writeAscii addr text => return .count (← writeAscii addr text)
  | .connectInbox => return .connected (← connectInbox)
  | .network change => return .network (← onNetwork (·.change change))

/-- A world after operations that are carried out one after another, also when one of them fails. -/
def World.after {δ : Type} [Devices δ] (w : World δ) (operations : List Operation) : World δ :=
  operations.foldl (fun w o => (Act.operate o w).2) w

end Chip8
