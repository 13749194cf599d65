import Chip8.Network.Basic

/-!
What each call of the network does. Handlers make calls themselves, so a call can run handlers inside
handlers; `enter` runs one, given how deep they may nest. A node whose handler is running takes no
message, and if it is destroyed it is dropped without a last call.
-/

namespace Chip8

/-- What a message to a name comes to: the two lifecycle verbs act on the name itself, and all else is
told to the node. -/
inductive Delivery
  | unregister
  | destroy
  | tell (message : Message)
  deriving DecidableEq, Repr

def Envelope.delivery : Envelope → Delivery
  | .command c =>
    match Verb.ofName? c.verb with
    | some .unregister => .unregister
    | some .destroy => .destroy
    | _ => .tell (.execute c.verb c.args)
  | .data d => .tell (.receive d.payload)

/-- Whether an envelope acts on a name itself. -/
def Envelope.IsLifecycle : Envelope → Prop
  | .command c => c.verb = Verb.unregister.name ∨ c.verb = Verb.destroy.name
  | .data _ => False

theorem Envelope.not_isLifecycle_of_tell {envelope : Envelope} {message : Message}
    (told : envelope.delivery = .tell message) : ¬envelope.IsLifecycle := by
  cases envelope with
  | data d => exact id
  | command c =>
    simp only [delivery, IsLifecycle, ← Verb.ofName?_eq_some_iff] at told ⊢
    split at told
    · cases told
    · cases told
    · next unregister destroy =>
      rintro (named | named)
      · exact unregister named
      · exact destroy named

theorem Envelope.isLifecycle_of_untold {envelope : Envelope}
    (untold : ∀ message, envelope.delivery ≠ .tell message) : envelope.IsLifecycle := by
  cases envelope with
  | data d => exact absurd rfl (untold (.receive d.payload))
  | command c =>
    simp only [delivery, IsLifecycle, ← Verb.ofName?_eq_some_iff] at untold ⊢
    split at untold
    · next unregister => exact Or.inl unregister
    · next destroy => exact Or.inr destroy
    · exact absurd rfl (untold _)

/-- Whether a reset broadcast destroys a node of this number that has no handler running. -/
def Network.goesOnReset (net : Network) (id : NodeId) : Bool :=
  match net.nodes[id]? with
  | some node => node.goesOnReset
  | none => false

namespace Session

/-- The names that a reset broadcast destroys. -/
def goingNames (s : Session) : List String :=
  (s.sweep.filter fun b => !s.network.isBusy b.2 && s.network.goesOnReset b.2).map (·.1)

/-- The names that a reset broadcast skips because a handler of their node is running. -/
def busyNames (s : Session) : List String :=
  (s.sweep.filter fun b => s.network.isBusy b.2).map (·.1)

/-- How the handler of a node is run: the answer to the sender, and the session afterwards. It is
`none` when handlers nest deeper than was provided for. -/
abbrev Enter := NodeId → Message → Session → Option (Except NodeError Unit × Session)

/-- Forgets a name and makes the last call of its node. -/
def destroyWith (enter : Enter) (name : String) (s : Session) :
    Option (Except RouteError Unit × Session) :=
  match s.network.find? name with
  | none => some (.error (.targetNotFound name), s)
  | some id =>
    if s.network.isBusy id then
      some (.ok (), ((s.unbind name id).note (.droppedBusy name id)).note (.destroyed name id))
    else
      (enter id .destroy (s.unbind name id)).map fun (_, s) => (.ok (), s.note (.destroyed name id))

def deliverWith (enter : Enter) (envelope : Envelope) (s : Session) :
    Option (Except RouteError Unit × Session) :=
  match s.network.find? envelope.target with
  | none => some (.error (.targetNotFound envelope.target), s)
  | some id =>
    match envelope.delivery with
    | .unregister => some (.ok (), s.unbind envelope.target id)
    | .destroy => destroyWith enter envelope.target s
    | .tell message =>
      if s.network.isBusy id then some (.error (.nodeBusy envelope.target), s)
      else
        (enter id message s).map fun (reply, s) => (reply.mapError (.node envelope.target), s)

/-- What is noted when an envelope for a bound or unbound name is dealt with, the latest event first. -/
def dispatchNotes (envelope : Envelope) (bound : Option NodeId) (answer : Except RouteError Unit) :
    List Event :=
  match answer with
  | .ok () => [.dispatched envelope bound answer]
  | .error cause => [.undelivered envelope cause, .dispatched envelope bound answer]

/-- Brings an envelope to its target; a failure is reported and the envelope dropped. -/
def dispatchWith (enter : Enter) (envelope : Envelope) (s : Session) :
    Option (Except RouteError Unit × Session) :=
  (deliverWith enter envelope s).map fun (answer, after) =>
    let notes := dispatchNotes envelope (s.network.find? envelope.target) answer
    (answer, { after with trace := notes ++ after.trace })

/-- Destroys names one after another, whatever comes of each. -/
def destroyAllWith (enter : Enter) : List String → Session → Option Session
  | [], s => some s
  | name :: rest, s => do
    let (_, s) ← destroyWith enter name s
    destroyAllWith enter rest s

/-- Destroys the names whose nodes want to go when the machine starts over. Which names these are is
settled first; a name that a last call has removed by then is passed over. -/
def broadcastResetWith (enter : Enter) (s : Session) : Option (Nat × Session) :=
  let going := s.goingNames
  let s := s.noteAll (s.busyNames.map .skippedByReset)
  (destroyAllWith enter going s).map fun s =>
    (going.length, s.note (.resetBroadcast going.length))

def answerWith (enter : Enter) (c : Call) (s : Session) : Option (Outcome × Session) :=
  match c with
  | .dispatch envelope => (dispatchWith enter envelope s).map fun (answer, s) => (.done answer, s)
  | .command text =>
    match Command.parse text with
    | .error cause => some (.done (.error (.codec cause)), s.note (.commandMalformed cause))
    | .ok c => (dispatchWith enter (.command c) s).map fun (answer, s) => (.done answer, s)
  | .data text =>
    match Data.parse text with
    | .error cause => some (.done (.error (.codec cause)), s.note (.dataMalformed cause))
    | .ok d => (dispatchWith enter (.data d) s).map fun (answer, s) => (.done answer, s)
  | .destroy name => (destroyWith enter name s).map fun (answer, s) => (.done answer, s)
  | .unregister name =>
    match s.network.find? name with
    | some id => some (.flag true, s.unbind name id)
    | none => some (.flag false, s)
  | .broadcastReset => (broadcastResetWith enter s).map fun (count, s) => (.count count, s)
  | .contains name => some (.flag (s.network.contains name), s)
  | .size => some (.count s.network.size, s)

/-- Makes a call, which is noted. -/
def performWith (enter : Enter) (c : Call) (s : Session) : Option (Outcome × Session) :=
  answerWith enter c (s.note (.asked s.network.running c))

/-- Runs what is left of the handler of a node, and tells the node the answer to each of its calls. -/
def handleWith (enter : Enter) (id : NodeId) :
    Handling (Except NodeError Unit) → Session → Option (Except NodeError Unit × Session)
  | .ends reply, s => some (reply, s)
  | .asks c next, s => do
    let (o, s) ← performWith enter c s
    handleWith enter id (next o) (s.hear id o)

/-- Runs the handler of a node, with handlers nested at most `depth` deep. -/
def enter : (depth : Nat) → Enter
  | 0, _, _, _ => none
  | depth + 1, id, message, s =>
    match s.network.nodes[id]? with
    | none => none
    | some node =>
      let response := node.respond message
      (handleWith (enter depth) id response.handling (s.begin id message response)).map fun (reply, s) =>
        (reply, s.finish id)

end Session
end Chip8
