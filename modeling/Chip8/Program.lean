import Chip8.CommandLine
import Chip8.Terminal.Console
import Chip8.World.Frame

/-!
The whole program: the settings are checked, the nodes of the command line are made, the machine gets
its inbox and is switched on, and then frames are run until the machine stops, the user wants to, or
the ticks are used up.
-/

namespace Chip8.Program

open CommandLine (Arguments Refusal)
open Terminal (Console Frame Speaker)

inductive Failure
  | config (cause : ConfigError)
  | route (cause : RouteError)
  | fault (cause : Fault)
  deriving DecidableEq, Repr

def Failure.text (f : Failure) : String :=
  "Error: " ++ match f with
    | config cause => cause.report
    | route cause => cause.report
    | fault cause => cause.report

def logLevel (a : Arguments) : Level := if a.trace then .info else .warn

/-- Makes a logging node for each name, and binds the name to it. -/
def registerNodes : List String → Session → Except RouteError Unit × Session
  | [], s => (.ok (), s)
  | name :: rest, s =>
    let (id, network) := s.network.add (.log { name, persistent := false })
    match { s with network }.register name id with
    | (.ok (), s) => registerNodes rest s
    | (.error cause, s) => (.error cause, s)

/-- The devices of a run, before anything is shown. -/
def console (a : Arguments) (files : String → Except IoError (List UInt8)) (typed : String) :
    Console where
  typed := typed.toList
  speaker := if a.mute then none else some (.ofPitch Speaker.defaultPitch)
  files := files

/-- The machine among its devices, switched off. -/
def build (a : Arguments) (devices : Console) (entropy : UInt64) : Except Failure (World Console) :=
  match Machine.build a.config entropy with
  | .ok machine => .ok { machine, devices }
  | .error (.config cause) => .error (.config cause)
  | .error cause => .error (.fault cause)

/-- A fault as the failure of a run. -/
def failing {α : Type} (x : Act Console α) (w : World Console) : Except Failure α × World Console :=
  match x w with
  | (.ok a, w) => (.ok a, w)
  | (.error cause, w) => (.error (.fault cause), w)

/-- Registers the nodes, connects the inbox and switches the machine on. -/
def start (nodes : List String) (w : World Console) : Except Failure Unit × World Console :=
  match Act.onNetwork (registerNodes nodes) w with
  | (.ok (.ok ()), w) =>
    match failing Act.connectInbox w with
    | (.ok (.ok ()), w) => failing Act.reset w
    | (.ok (.error cause), w) => (.error (.route cause), w)
    | (.error failure, w) => (.error failure, w)
  | (.ok (.error cause), w) => (.error (.route cause), w)
  | (.error cause, w) => (.error (.fault cause), w)

/-- The last event of a run that did not fail. -/
def conclusion (ticks : Nat) : Status → Event
  | .halted reason => .haltedAfter ticks reason
  | status => .finishedAfter ticks status

/-- Notes how a run ended. -/
def conclude (ticks : Nat) : Act Console Unit := do
  let m ← Act.machine
  Act.note (conclusion ticks m.status)

/-- Runs frames, and then notes how the run ended. -/
def play (budget : Option Nat) (w : World Console) : Except Failure Unit × World Console :=
  failing (Act.mainLoop budget >>= conclude) w

/-- What a run leaves behind. -/
structure Report where
  exitCode : Nat
  /-- The lines of the log, and the failure if there is one. -/
  lines : List String := []
  shown : Option Frame := none

/-- The lines of the log that a level shows, each with its source. -/
def lines (level : Level) (events : List Event) : List String :=
  (logLines level events).map Line.sourcedText

/-- What a run that got as far as a world leaves behind. -/
def report (level : Level) (result : Except Failure Unit) (w : World Console) : Report where
  exitCode := match result with
    | .ok () => 0
    | .error _ => 1
  lines := lines level w.trace.reverse ++ match result with
    | .ok () => []
    | .error failure => [failure.text]
  shown := w.devices.shown

/-- Runs the program with everything typed at the start. -/
def run (argv : List String) (files : String → Except IoError (List UInt8)) (typed : String)
    (entropy : UInt64) : Report :=
  match CommandLine.parse argv with
  | .error .displayHelp => { exitCode := 0 }
  | .error _ => { exitCode := 2 }
  | .ok a =>
    match build a (console a files typed) entropy with
    | .error failure => { exitCode := 1, lines := [failure.text] }
    | .ok w =>
      match start a.nodes w with
      | (.error failure, w) => report (logLevel a) (.error failure) w
      | (.ok (), w) =>
        let (result, w) := play (a.ticks.map UInt64.toNat) w
        report (logLevel a) result w

end Chip8.Program
