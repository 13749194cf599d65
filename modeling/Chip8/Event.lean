import Chip8.Control
import Chip8.Fault
import Chip8.Instruction
import Chip8.Log
import Chip8.Network.Message
import Chip8.Screen
import Chip8.Status

/-!
Everything that can be noted while the system works. An event that belongs in the log renders to one
line of it; the others only record the order in which things happened: the instructions that were
carried out, the calls of the devices, the handlers that ran and the messages that were sent.
-/

namespace Chip8

/-- The registers just before an instruction. -/
structure Snapshot where
  instructions : Nat
  pc : UInt16
  word : Opcode
  i : UInt16
  sp : UInt8
  dt : UInt8
  st : UInt8
  v : Vector UInt8 16
  deriving DecidableEq, Repr

def Snapshot.text (s : Snapshot) : String :=
  "T:" ++ toString s.instructions ++ " PC:" ++ Text.upperHex 4 s.pc.toNat ++ " OP:" ++ s.word.text ++
    " I:" ++ Text.upperHex 4 s.i.toNat ++ " SP:" ++ Text.upperHex 2 s.sp.toNat ++ " DT:" ++
    Text.upperHex 2 s.dt.toNat ++ " ST:" ++ Text.upperHex 2 s.st.toNat ++ " V:" ++
    " ".intercalate (s.v.toList.map fun r => Text.upperHex 2 r.toNat)

inductive DeviceCall
  | present (screen : Screen)
  | keys
  | beep
  | stop
  | load (path : String)
  deriving DecidableEq, Repr

inductive Event
  -- memory
  | programTruncated (size loaded : Nat) (boot : UInt16)
  | storeRefused (value : UInt8) (addr : Nat)
  | asciiRead (text : String) (addr : Nat)
  -- screen
  | pixelSkipped (x y : Nat)
  -- extension requests
  | separatorsDropped (text : String)
  -- the network
  /-- A call, and the nodes whose handlers were running when it was made, the innermost first. -/
  | asked (running : List NodeId) (call : Call)
  | registered (name : String) (node : NodeId)
  | nameTaken (name : String)
  | unregistered (name : String) (node : NodeId)
  | droppedBusy (name : String) (node : NodeId)
  | destroyed (name : String) (node : NodeId)
  | commandMalformed (cause : CodecError)
  | dataMalformed (cause : CodecError)
  | undelivered (envelope : Envelope) (cause : RouteError)
  /-- A message to a name, the node that the name was bound to, and the answer. -/
  | dispatched (envelope : Envelope) (bound : Option NodeId) (answer : Except RouteError Unit)
  | skippedByReset (name : String)
  | resetBroadcast (count : Nat)
  /-- The innermost of the running nodes began to handle a message. -/
  | entered (running : List NodeId) (message : Message)
  | left (node : NodeId)
  -- the nodes themselves
  | commandLogged (node line : String)
  | dataLogged (node payload : String)
  | nodeDestroyed (node : String)
  -- the machine
  | restarted (loaded : Nat) (boot : UInt16)
  | registersDumped (snapshot : Snapshot)
  | executed (instruction : Instruction)
  /-- A sum of addresses went past the last one and on at zero. -/
  | addressWrapped (addr count : UInt16)
  | systemCall (addr : UInt16)
  | unknownOpcode (word pc : UInt16)
  | routing (envelope : Envelope)
  | unassignedExtension (code : UInt8) (pc : UInt16)
  | controlled (control : Control)
  | halted (reason : HaltReason)
  | poweredDown
  | keyArrived (key : Fin 16) (register : Register)
  | mailTaken (payload : String)
  | dataReceived (count : Nat)
  | mailQueued (count : Nat)
  | stopped (ticks : Nat) (status : Status)
  -- devices
  | called (call : DeviceCall) (failure : Option Fault)
  | beeped
  | toneOn (pitch : UInt16)
  | keyUnmapped (key : Char)
  | keyIgnored (key : String)
  | terminalEventIgnored (event : String)
  -- the whole program
  | haltedAfter (ticks : Nat) (reason : HaltReason)
  | finishedAfter (ticks : Nat) (status : Status)

namespace Event

/-- The part of the system that notes the event. -/
def source : Event → Source
  | programTruncated .. | storeRefused .. | asciiRead .. => .memory
  | pixelSkipped .. => .display
  | separatorsDropped _ => .extension
  | asked .. | registered .. | nameTaken _ | unregistered .. | droppedBusy .. | destroyed ..
  | commandMalformed _ | dataMalformed _ | undelivered .. | dispatched .. | skippedByReset _
  | resetBroadcast _ | entered .. | left _ => .network
  | commandLogged .. | dataLogged .. | nodeDestroyed _ => .node
  | restarted .. | registersDumped _ | executed _ | addressWrapped .. | systemCall _
  | unknownOpcode .. | routing _ | unassignedExtension .. | controlled _ | halted _ | poweredDown
  | keyArrived .. | mailTaken _ | dataReceived _ | mailQueued _ | stopped .. | called .. => .machine
  | beeped | toneOn _ => .sound
  | keyUnmapped _ | keyIgnored _ | terminalEventIgnored _ => .input
  | haltedAfter .. | finishedAfter .. => .program

/-- Whether the event is one that devices note. -/
def ofDevice (e : Event) : Bool := e.source == .sound || e.source == .input

def address (a : Nat) : String := "0x" ++ Text.lowerHex 4 a

/-- The line that the log shows for the event, if it shows one. -/
def line? : Event → Option Line
  | programTruncated size loaded boot => some ⟨.warn, .memory,
      "program is " ++ toString size ++ " bytes but only " ++ toString loaded ++ " fit above " ++
        address boot.toNat ++ "; truncated", none⟩
  | storeRefused value addr => some ⟨.warn, .memory,
      "refusing write of 0x" ++ Text.lowerHex 2 value.toNat ++ " to font table at " ++ address addr,
      none⟩
  | asciiRead text addr => some ⟨.trace, .memory,
      "read ascii " ++ Text.quoted text ++ " from " ++ address addr, none⟩
  | pixelSkipped x y => some ⟨.trace, .display,
      "pixel (" ++ toString x ++ ", " ++ toString y ++ ") is off-screen; skipped", none⟩
  | separatorsDropped text => some ⟨.warn, .extension,
      "separator characters dropped from " ++ Text.quoted text, none⟩
  | asked _ _ => none
  | registered name _ => some ⟨.debug, .network, "registered node " ++ Text.quoted name, none⟩
  | nameTaken name => some ⟨.warn, .network,
      "refusing to register a second node named " ++ Text.quoted name, none⟩
  | unregistered name _ => some ⟨.debug, .network, "unregistered node " ++ Text.quoted name, none⟩
  | droppedBusy name _ => some ⟨.warn, .network,
      "node " ++ Text.quoted name ++ " is busy; dropped without on_destroy", none⟩
  | destroyed name _ => some ⟨.debug, .network, "destroyed node " ++ Text.quoted name, none⟩
  | commandMalformed cause => some ⟨.warn, .network,
      "dropping malformed command: " ++ cause.message, none⟩
  | dataMalformed cause => some ⟨.warn, .network,
      "dropping malformed data message: " ++ cause.message, none⟩
  | undelivered envelope cause => some ⟨.warn, .network,
      "unable to forward " ++ Text.quoted envelope.text ++ ": " ++ cause.message, none⟩
  | dispatched _ _ _ => none
  | skippedByReset name => some ⟨.warn, .network,
      "node " ++ Text.quoted name ++ " is busy; skipped by reset", none⟩
  | resetBroadcast count => some ⟨.debug, .network,
      "reset destroyed " ++ toString count ++ " node(s)", none⟩
  | entered _ _ => none
  | left _ => none
  | commandLogged node line => some ⟨.info, .node, line, some node⟩
  | dataLogged node payload => some ⟨.info, .node, "received data: " ++ payload, some node⟩
  | nodeDestroyed node => some ⟨.debug, .node, "destroyed", some node⟩
  | restarted loaded boot => some ⟨.info, .machine,
      "reset: " ++ toString loaded ++ " byte program at " ++ address boot.toNat, none⟩
  | registersDumped snapshot => some ⟨.info, .machine, snapshot.text, none⟩
  | executed _ => none
  | addressWrapped _ _ => none
  | systemCall addr => some ⟨.debug, .machine,
      "ignoring machine code call to 0x" ++ Text.lowerHex 3 addr.toNat, none⟩
  | unknownOpcode word pc => some ⟨.warn, .machine,
      "unknown opcode " ++ Text.upperHex 4 word.toNat ++ " at " ++ address pc.toNat, none⟩
  | routing envelope => some ⟨.debug, .machine, "routing " ++ envelope.text, none⟩
  | unassignedExtension code pc => some ⟨.warn, .machine,
      "unassigned extension 0E" ++ Text.upperHex 2 code.toNat ++ " at " ++ address pc.toNat, none⟩
  | controlled control => some ⟨.debug, .machine, "machine control " ++ control.report, none⟩
  | halted reason => some ⟨.error, .machine, "HALT: " ++ reason.message, none⟩
  | poweredDown => some ⟨.info, .machine, "power down", none⟩
  | keyArrived key register => some ⟨.debug, .machine,
      "key 0x" ++ Text.lowerHex 1 key.val ++ " -> V" ++ Text.upperHex 1 register.val, none⟩
  | mailTaken _ => none
  | dataReceived count => some ⟨.debug, .machine,
      "received " ++ toString count ++ " byte(s) into data port", none⟩
  | mailQueued count => some ⟨.debug, .machine,
      toString count ++ " message(s) still queued for the data port", none⟩
  | stopped ticks status => some ⟨.info, .machine,
      "stopped after " ++ toString ticks ++ " tick(s) in state " ++ status.report, none⟩
  | called _ _ => none
  | beeped => some ⟨.info, .sound, "BEEP", none⟩
  | toneOn pitch => some ⟨.debug, .sound, "tone on at " ++ toString pitch.toNat ++ "Hz", none⟩
  | keyUnmapped key => some ⟨.warn, .input,
      "can't map " ++ Text.quotedChar key ++ " to a COSMAC key", none⟩
  | keyIgnored key => some ⟨.trace, .input, "ignoring key event " ++ key, none⟩
  | terminalEventIgnored event => some ⟨.trace, .input, "ignoring terminal event " ++ event, none⟩
  | haltedAfter ticks reason => some ⟨.warn, .program,
      "halted after " ++ toString ticks ++ " tick(s): " ++ reason.message, none⟩
  | finishedAfter ticks status => some ⟨.info, .program,
      "finished after " ++ toString ticks ++ " tick(s) in state " ++ status.report, none⟩

end Event

/-- The lines that a log of a level shows for a list of events. -/
def logLines (level : Level) (events : List Event) : List Line :=
  (events.filterMap Event.line?).filter fun l => level.shows l.level

end Chip8
