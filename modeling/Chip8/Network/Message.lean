import Chip8.Envelope
import Chip8.Verb

/-!
What can be asked of the network, what a node can be told, and how that can fail. A failure is an answer
to the sender; the message is dropped.
-/

namespace Chip8

/-- A node, by its place among all nodes that were ever made. -/
abbrev NodeId := Nat

/-- What can be asked of the network, from outside or by a handler. -/
inductive Call
  | dispatch (envelope : Envelope)
  /-- Reads a command off the wire and dispatches it. -/
  | command (text : String)
  /-- Reads data off the wire and dispatches it. -/
  | data (text : String)
  | destroy (name : String)
  /-- Forgets a node without telling it. -/
  | unregister (name : String)
  /-- Destroys every node that wants to go when the machine starts over. -/
  | broadcastReset
  | contains (name : String)
  | size
  deriving DecidableEq, Repr

/-- The occasions on which a handler of a node runs. -/
inductive Message
  | execute (verb : String) (args : List String)
  | receive (payload : String)
  /-- The last call before a destroyed node is let go. -/
  | destroy
  deriving DecidableEq, Repr

/-- Why the network did not do what it was asked. -/
inductive RouteError
  | targetNotFound (name : String)
  | duplicateName (name : String)
  /-- A handler of the target is already running. -/
  | nodeBusy (name : String)
  /-- The target rejected the message. -/
  | node (target : String) (cause : NodeError)
  | codec (cause : CodecError)
  deriving DecidableEq, Repr

namespace RouteError

def message : RouteError → String
  | targetNotFound name => "target not found: " ++ Text.quoted name
  | duplicateName name => "a node named " ++ Text.quoted name ++ " is already registered"
  | nodeBusy name => "node " ++ Text.quoted name ++ " is already handling a message"
  | node target cause =>
    "node " ++ Text.quoted target ++ " rejected message: " ++ cause.message
  | codec cause => cause.message

/-- The error as one word and its field, which is how a failed start is reported. A start only ever
fails because a name is taken; the other errors are reported by their messages. -/
def report : RouteError → String
  | duplicateName name => "DuplicateName(" ++ Text.quoted name ++ ")"
  | cause => cause.message

end RouteError
end Chip8
