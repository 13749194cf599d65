import Chip8.Network.Nesting

/-!
What can be done with a network from outside: nodes are made, names are given to them, calls are made,
and a node can be handled directly.
-/

namespace Chip8

inductive Change
  /-- Adds a node that has no name yet. -/
  | make (node : Node)
  | register (name : String) (id : NodeId)
  | call (call : Call)
  /-- Tells a node a message directly. -/
  | tell (id : NodeId) (message : Message)
  | takeMail (id : NodeId)

inductive Reply
  | made (id : NodeId)
  | registered (answer : Except RouteError Unit)
  | outcome (o : Outcome)
  | told (answer : Except NodeError Unit)
  /-- The node takes no message now. -/
  | busy
  | mail (payload : Option String)

def Session.change (s : Session) : Change → Reply × Session
  | .make node =>
    let (id, network) := s.network.add node
    (.made id, { s with network })
  | .register name id =>
    let (answer, s) := s.register name id
    (.registered answer, s)
  | .call c =>
    let (o, s) := s.perform c
    (.outcome o, s)
  | .tell id message =>
    match s.tell? id message with
    | some (answer, s) => (.told answer, s)
    | none => (.busy, s)
  | .takeMail id =>
    let (payload, s) := s.takeMail id
    (.mail payload, s)

/-- A session after changes that are made one after another. -/
def Session.after (s : Session) (changes : List Change) : Session :=
  changes.foldl (fun s c => (s.change c).2) s

end Chip8
