import Chip8.Noted

/-!
The nodes that a message can be addressed to, and what each does with one. A node answers from its own
state alone. What a handler wants done by the network it asks for call by call while it is running, and
it goes on by the answers.
-/

namespace Chip8

inductive Outcome
  | done (result : Except RouteError Unit)
  | flag (value : Bool)
  | count (value : Nat)

/-- Accepts every verb and logs it; stands in for an object of a scene when there is no scene. -/
structure LogNode where
  name : String
  /-- Stays when the machine starts over. -/
  persistent : Bool
  /-- Commands as they stand on the wire behind the target, the oldest first. -/
  history : List String := []
  received : List String := []
  destroyed : Bool := false
  deriving DecidableEq, Repr

/-- What is left to do for a handler: it ends with a reply, or it makes a call of the network and goes on
by the answer. -/
inductive Handling (ρ : Type)
  | ends (reply : ρ)
  | asks (c : Call) (next : Outcome → Handling ρ)

namespace Handling
variable {ρ σ : Type}

def map (f : ρ → σ) : Handling ρ → Handling σ
  | ends reply => ends (f reply)
  | asks c next => asks c fun o => (next o).map f

/-- Makes calls one after another, whatever is answered. -/
def ofCalls : List Call → ρ → Handling ρ
  | [], reply => ends reply
  | c :: rest, reply => asks c fun _ => ofCalls rest reply

end Handling

/-- What a node is told: messages, and the answers to the calls of its handlers. -/
inductive Heard
  | message (message : Message)
  | answer (o : Outcome)

/-- A node with handlers of its own. They go by what the node has kept in mind of all that it was told. -/
structure Agent where
  execute : List Heard → (verb : String) → (args : List String) → Handling (Except NodeError Unit)
  receive : List Heard → (payload : String) → Handling Unit
  /-- The last call. -/
  onDestroy : List Heard → Handling Unit
  /-- Whether the node keeps in mind what it is told next; what it does not keep leaves it as it was. -/
  keeps : List Heard → Heard → Bool := fun _ _ => true
  /-- Stays when the machine starts over. -/
  persistent : Bool
  /-- What the node has kept in mind, the oldest first. -/
  memory : List Heard := []

namespace Agent

def hear (n : Agent) (h : Heard) : Agent :=
  if n.keeps n.memory h then { n with memory := n.memory ++ [h] } else n

/-- Only a command can be rejected. -/
def handling (n : Agent) : Message → Handling (Except NodeError Unit)
  | .execute verb args => n.execute n.memory verb args
  | .receive payload => (n.receive n.memory payload).map .ok
  | .destroy => (n.onDestroy n.memory).map .ok

end Agent

inductive Node
  | log (node : LogNode)
  /-- A queue of data, the oldest first; the machine empties it. -/
  | inbox (queue : List String)
  /-- Keeps what it was told. -/
  | recorder (executed received : List String)
  | agent (node : Agent)

namespace Node

/-- What a message comes to: the node as it is while the handler runs, what it notes, and what the handler
does, with the reply to the sender at its end. -/
structure Response where
  node : Node
  notes : List Event := []
  handling : Handling (Except NodeError Unit) := .ends (.ok ())

/-- A verb that is known and has the right number of arguments is logged. -/
def respondLog (n : LogNode) : Message → Response
  | .execute verb args =>
    match Verb.check verb args with
    | .error cause => { node := .log n, handling := .ends (.error cause) }
    | .ok v =>
      let line := Envelope.fieldsText v.name args
      { node := .log { n with history := n.history ++ [line] }
        notes := [.commandLogged n.name line] }
  | .receive payload =>
    { node := .log { n with received := n.received ++ [payload] }
      notes := [.dataLogged n.name payload] }
  | .destroy => { node := .log { n with destroyed := true }, notes := [.nodeDestroyed n.name] }

/-- An inbox takes data only. -/
def respondInbox (queue : List String) : Message → Response
  | .execute verb _ => { node := .inbox queue, handling := .ends (.error (.unrecognizedCommand verb)) }
  | .receive payload => { node := .inbox (queue ++ [payload]) }
  | .destroy => { node := .inbox queue }

def respondRecorder (executed received : List String) : Message → Response
  | .execute verb args =>
    { node := .recorder (executed ++ [verb ++ "/" ++ toString args.length]) received }
  | .receive payload => { node := .recorder executed (received ++ [payload]) }
  | .destroy => { node := .recorder executed received }

def respondAgent (n : Agent) (message : Message) : Response where
  node := .agent (n.hear (.message message))
  handling := n.handling message

def respond : Node → Message → Response
  | log n => respondLog n
  | inbox queue => respondInbox queue
  | recorder executed received => respondRecorder executed received
  | agent n => respondAgent n

/-- Whether the node wants to go when the machine starts over. -/
def goesOnReset : Node → Bool
  | log n => !n.persistent
  | inbox _ => false
  | recorder _ _ => true
  | agent n => !n.persistent

/-- Tells a node the answer to a call that its handler made. -/
def hear (o : Outcome) : Node → Node
  | agent n => .agent (n.hear (.answer o))
  | node => node

end Node

/-! ### Agents from templates -/

/-- A call with a text in which `$` stands for the subject of the message. -/
structure Template where
  call : String → Call
  text : String

namespace Template

/-- The verb of a command, the payload of data; the last call has no subject. -/
def subject : Message → String
  | .execute verb _ => verb
  | .receive payload => payload
  | .destroy => ""

/-- A text with the subject put in for every `$`. -/
def instantiate (text subject : String) : String :=
  String.ofList (text.toList.flatMap fun c => if c = '$' then subject.toList else [c])

/-- The calls that a list of templates makes for a message. -/
def calls (templates : List Template) (message : Message) : List Call :=
  templates.map fun t => t.call (instantiate t.text (subject message))

/-- The agent that has a list of templates for each occasion, and rejects all commands or none. -/
def agent (onExecute onReceive onDestroy : List Template) (rejects persistent : Bool) : Agent where
  execute := fun _ verb args =>
    .ofCalls (calls onExecute (.execute verb args)) (if rejects then .error (.unrecognizedCommand verb) else .ok ())
  receive := fun _ payload => .ofCalls (calls onReceive (.receive payload)) ()
  onDestroy := fun _ => .ofCalls (calls onDestroy .destroy) ()
  persistent

end Template
end Chip8
