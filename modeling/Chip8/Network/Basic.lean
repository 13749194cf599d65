import Chip8.Network.Node

/-!
The network: all nodes, the names that some of them are bound to, and the nodes whose handlers are
running. A name is bound to one node; a node may have any number of names, or none.

A session is a network with what was noted so far. The functions on it are the elementary changes that
all calls are made of.
-/

namespace Chip8

theorem as_registered (_ : List Event) (bindings : List (String × NodeId)) : bindings.Perm bindings := .refl _

structure Network where
  /-- Every node that was ever made, by number. -/
  nodes : List Node := []
  /-- The registered names, the oldest first. -/
  bindings : List (String × NodeId) := []
  /-- The nodes whose handlers are running, the innermost first. -/
  running : List NodeId := []
  /-- The order in which the bindings are gone through after what was noted so far. It is any order. -/
  order : List Event → List (String × NodeId) → List (String × NodeId) := fun _ bindings => bindings
  names_nodup : (bindings.map (·.1)).Nodup := by first | exact List.nodup_nil | simp
  bound_lt : ∀ b ∈ bindings, b.2 < nodes.length := by first | exact List.forall_mem_nil _ | simp
  order_perm : ∀ events bindings, (order events bindings).Perm bindings := by exact as_registered

namespace Network

/-- The network without any nodes. -/
def empty : Network := {}

def find? (net : Network) (name : String) : Option NodeId := net.bindings.lookup name

def contains (net : Network) (name : String) : Bool := (net.find? name).isSome

def size (net : Network) : Nat := net.bindings.length

def names (net : Network) : List String :=
  (net.bindings.map (·.1)).mergeSort fun a b => decide (a ≤ b)

def isBusy (net : Network) (id : NodeId) : Bool := net.running.contains id

/-- The number of nodes that have no handler running. -/
def idle (net : Network) : Nat :=
  ((List.range net.nodes.length).filter fun id => !net.isBusy id).length

theorem lookup_eq_none {name : String} {bindings : List (String × NodeId)}
    (h : bindings.lookup name = none) : ∀ b ∈ bindings, b.1 ≠ name := by
  intro b hb heq
  rw [List.lookup_eq_none_iff] at h
  simpa [heq] using h b hb

theorem find?_lt {net : Network} {name : String} {id : NodeId} (h : net.find? name = some id) :
    id < net.nodes.length := by
  obtain ⟨l₁, l₂, heq, -⟩ := List.lookup_eq_some_iff.mp h
  exact net.bound_lt (name, id) (by rw [heq]; simp)

/-- Adds a node without a name. -/
def add (net : Network) (node : Node) : NodeId × Network :=
  (net.nodes.length,
    { net with
      nodes := net.nodes ++ [node]
      bound_lt := fun b hb => Nat.lt_of_lt_of_le (net.bound_lt b hb) (by simp) })

def replace (net : Network) (id : NodeId) (node : Node) : Network :=
  { net with
    nodes := net.nodes.set id node
    bound_lt := by simpa using net.bound_lt }

/-- Binds a name that is not bound yet to a node. -/
def bind (net : Network) (name : String) (id : NodeId) (free : net.find? name = none)
    (made : id < net.nodes.length) : Network :=
  { net with
    bindings := net.bindings ++ [(name, id)]
    names_nodup := by
      have hne := lookup_eq_none free
      simp only [List.map_append, List.map_cons, List.map_nil, List.nodup_append]
      refine ⟨net.names_nodup, by simp, ?_⟩
      intro a ha b hb heq
      obtain ⟨c, hc, rfl⟩ := List.mem_map.mp ha
      simp only [List.mem_singleton] at hb
      exact hne c hc (heq.trans hb)
    bound_lt := by
      intro b hb
      rcases List.mem_append.mp hb with hb | hb
      · exact net.bound_lt b hb
      · simp only [List.mem_singleton] at hb
        exact hb ▸ made }

def unbind (net : Network) (name : String) : Network :=
  { net with
    bindings := net.bindings.filter fun b => b.1 != name
    names_nodup := (List.filter_sublist.map _).nodup net.names_nodup
    bound_lt := fun b hb => net.bound_lt b (List.mem_filter.mp hb).1 }

theorem find?_bind {net : Network} {name : String} {id : NodeId} (free : net.find? name = none)
    (made : id < net.nodes.length) (other : String) :
    (net.bind name id free made).find? other = if other = name then some id else net.find? other := by
  simp only [find?, bind, List.lookup_append]
  by_cases h : other = name
  · subst h
    rw [show List.lookup other net.bindings = none from free]
    simp
  · simp [h, List.lookup_cons, beq_eq_false_iff_ne.mpr h]

theorem find?_unbind (net : Network) (name other : String) :
    (net.unbind name).find? other = if other = name then none else net.find? other := by
  simp only [find?, unbind]
  induction net.bindings with
  | nil => simp
  | cons b rest ih =>
    obtain ⟨bound, id⟩ := b
    by_cases hb : bound = name
    · subst hb
      by_cases ho : other = bound
      · simpa [ho] using ih
      · simpa [List.lookup_cons, ho, beq_eq_false_iff_ne.mpr ho] using ih
    · by_cases ho : other = bound
      · subst ho
        simp [hb]
      · simpa [hb, List.lookup_cons, beq_eq_false_iff_ne.mpr ho] using ih

def takeMail (net : Network) (id : NodeId) : Option String × Network :=
  match net.nodes[id]? with
  | some (.inbox (payload :: rest)) => (some payload, net.replace id (.inbox rest))
  | _ => (none, net)

def mailCount (net : Network) (id : NodeId) : Nat :=
  match net.nodes[id]? with
  | some (.inbox queue) => queue.length
  | _ => 0

end Network

structure Session where
  network : Network := {}
  /-- What was noted, the latest event first. -/
  trace : List Event := []

namespace Session

def note (s : Session) (e : Event) : Session := { s with trace := e :: s.trace }

/-- The bindings in the order in which they are gone through now. -/
def sweep (s : Session) : List (String × NodeId) := s.network.order s.trace s.network.bindings

def noteAll (s : Session) (events : List Event) : Session :=
  { s with trace := events.reverse ++ s.trace }

/-- Binds a name to a node, if it is free. -/
def register (s : Session) (name : String) (id : NodeId) : Except RouteError Unit × Session :=
  if free : s.network.find? name = none then
    if made : id < s.network.nodes.length then
      (.ok (), { s with network := s.network.bind name id free made }.note (.registered name id))
    else (.error (.targetNotFound name), s)
  else (.error (.duplicateName name), s.note (.nameTaken name))

/-- Adds an inbox and binds a name to it, if the name is free. -/
def addInbox (s : Session) (name : String) : Except RouteError NodeId × Session :=
  let (id, network) := s.network.add (.inbox [])
  match { s with network }.register name id with
  | (.ok (), s) => (.ok id, s)
  | (.error cause, refused) => (.error cause, { s with trace := refused.trace })

def takeMail (s : Session) (id : NodeId) : Option String × Session :=
  let (payload, network) := s.network.takeMail id
  (payload, { s with network })

/-- Takes the oldest payload out of an inbox, of which no handler may be running. -/
def takeMail? (s : Session) (id : NodeId) : Option (Option String) × Session :=
  if s.network.isBusy id then (none, s)
  else
    let (payload, s) := s.takeMail id
    (some payload, s)

/-- Forgets the name of a node, which is noted. -/
def unbind (s : Session) (name : String) (id : NodeId) : Session :=
  { s with network := s.network.unbind name }.note (.unregistered name id)

/-- A handler begins: the node is busy, and its state is the one that its response leaves. -/
def begin (s : Session) (id : NodeId) (message : Message) (response : Node.Response) : Session :=
  let running := id :: s.network.running
  let network := { s.network.replace id response.node with running := running }
  ({ s with network := network }.note (.entered running message)).noteAll response.notes

def finish (s : Session) (id : NodeId) : Session :=
  { s with network := { s.network with running := s.network.running.erase id } }.note (.left id)

/-- Tells a node the answer to a call that its handler made. -/
def hear (s : Session) (id : NodeId) (o : Outcome) : Session :=
  match s.network.nodes[id]? with
  | some node => { s with network := s.network.replace id (node.hear o) }
  | none => s

end Session
end Chip8
