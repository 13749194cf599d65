import Chip8.Proofs.Network.Inbox

/-!
Nodes that keep to themselves: their handlers make no calls. What is asked of such a node ends with its handler, so it
comes to a new state of the node and to nothing else, whatever other nodes there are.
-/

namespace Chip8

/-- An envelope is carried by the call that dispatches it, and by a call with a text that it is read from. -/
inductive Call.Carries : Call → Envelope → Prop
  | dispatch (envelope : Envelope) : Carries (.dispatch envelope) envelope
  | command {text : String} {c : Command} (read : Command.parse text = .ok c) : Carries (.command text) (.command c)
  | data {text : String} {d : Data} (read : Data.parse text = .ok d) : Carries (.data text) (.data d)

namespace Node
variable {node : Node}

/-- The node after messages that it was told, one after another. -/
def following (node : Node) (messages : List Message) : Node :=
  messages.foldl (fun node message => (node.respond message).node) node

/-- A node whose handlers make no calls of the network, whatever it was told before. -/
def KeepsToItself (node : Node) : Prop :=
  ∀ before message, ∃ reply, ((node.following before).respond message).handling = .ends reply

theorem KeepsToItself.ends (quiet : node.KeepsToItself) (message : Message) :
    ∃ reply, (node.respond message).handling = .ends reply := quiet [] message

/-- No message makes a node go on to make calls. -/
theorem KeepsToItself.respond (quiet : node.KeepsToItself) (message : Message) :
    (node.respond message).node.KeepsToItself := fun before => quiet (message :: before)

/-- Nodes of a kind keep to themselves if none makes calls and each stays of its kind. -/
theorem keepsToItself_of_kind (kind : Node → Prop)
    (ends : ∀ node message, kind node → ∃ reply, (node.respond message).handling = .ends reply)
    (stays : ∀ node message, kind node → kind (node.respond message).node) (holds : kind node) :
    node.KeepsToItself := by
  intro before
  induction before generalizing node with
  | nil => exact fun message => ends node message holds
  | cons first rest ih => exact ih (stays node first holds)

theorem keepsToItself_log (n : LogNode) : KeepsToItself (.log n) := by
  refine keepsToItself_of_kind (fun node => ∃ m, node = .log m) ?_ ?_ ⟨n, rfl⟩
  · rintro _ message ⟨m, rfl⟩
    exact ends_respondLog m message
  · rintro _ message ⟨m, rfl⟩
    cases message with
    | execute verb args =>
      simp only [Node.respond, respondLog]
      split <;> exact ⟨_, rfl⟩
    | receive | destroy => exact ⟨_, rfl⟩

theorem keepsToItself_inbox (queue : List String) : KeepsToItself (.inbox queue) := by
  refine keepsToItself_of_kind (fun node => ∃ queue, node = .inbox queue) ?_ ?_ ⟨queue, rfl⟩
  · rintro _ message ⟨queue, rfl⟩
    exact (respond_inbox queue message).2.1
  · rintro _ message ⟨queue, rfl⟩
    exact ⟨_, (respond_inbox queue message).1⟩

theorem keepsToItself_recorder (executed received : List String) : KeepsToItself (.recorder executed received) := by
  refine keepsToItself_of_kind (fun node => ∃ executed received, node = .recorder executed received) ?_ ?_
    ⟨executed, received, rfl⟩
  · rintro _ message ⟨executed, received, rfl⟩
    cases message <;> exact ⟨_, rfl⟩
  · rintro _ message ⟨executed, received, rfl⟩
    cases message <;> exact ⟨_, _, rfl⟩

/-- An agent keeps to itself if its handlers make no calls, whatever it has in mind. -/
theorem keepsToItself_agent (n : Agent)
    (quiet : ∀ memory message, ∃ reply, Agent.handling { n with memory := memory } message = .ends reply) :
    KeepsToItself (.agent n) := by
  refine keepsToItself_of_kind (fun node => ∃ memory, node = .agent { n with memory := memory }) ?_ ?_
    ⟨n.memory, rfl⟩
  · rintro _ message ⟨memory, rfl⟩
    exact quiet memory message
  · rintro _ message ⟨memory, rfl⟩
    simp only [Node.respond, respondAgent, Agent.hear]
    split <;> exact ⟨_, rfl⟩

/-- What the last call leaves of a node. -/
def parted (node : Node) : Node := (node.respond .destroy).node

end Node

namespace Network
variable {net : Network} {name : String} {id : NodeId} {node : Node}

/-- The node of a name, if the name is bound, keeps to itself. -/
def QuietAt (net : Network) (name : String) : Prop :=
  ∀ id node, net.find? name = some id → net.nodes[id]? = some node → node.KeepsToItself

/-- All nodes keep to themselves. -/
def Quiet (net : Network) : Prop := ∀ node ∈ net.nodes, node.KeepsToItself

theorem Quiet.at (quiet : net.Quiet) (name : String) : net.QuietAt name :=
  fun _ node _ found => quiet node (List.mem_of_getElem? found)

theorem replace_self (found : net.nodes[id]? = some node) : net.replace id node = net := by
  obtain ⟨made, rfl⟩ := List.getElem?_eq_some_iff.mp found
  simp [replace]

/-- The network without a name, after the last call of its node; a node that is busy gets none. -/
def farewell (net : Network) (name : String) (id : NodeId) : Network :=
  match net.nodes[id]? with
  | some node => if net.isBusy id then net.unbind name else (net.unbind name).replace id node.parted
  | none => net.unbind name

@[simp] theorem bindings_farewell (net : Network) (name : String) (id : NodeId) :
    (net.farewell name id).bindings = net.bindings.filter fun b => b.1 != name := by
  unfold farewell
  split
  · split <;> rfl
  · rfl

@[simp] theorem running_farewell (net : Network) (name : String) (id : NodeId) :
    (net.farewell name id).running = net.running := by
  unfold farewell
  split
  · split <;> rfl
  · rfl

theorem find?_farewell (net : Network) (name other : String) (id : NodeId) :
    (net.farewell name id).find? other = if other = name then none else net.find? other := by
  rw [← find?_unbind, find?, bindings_farewell]
  rfl

theorem farewell_of_idle (found : net.nodes[id]? = some node) (idle : id ∉ net.running) :
    net.farewell name id = (net.unbind name).replace id node.parted := by
  have free : net.isBusy id = false := by simpa [isBusy] using idle
  simp [farewell, found, free]

end Network

namespace Session
variable {s : Session} {name : String} {id : NodeId} {node : Node} {depth : Nat}

/-- A handler that makes no calls leaves its node in a new state. -/
theorem enter_of_quiet (found : s.network.nodes[id]? = some node) (quiet : node.KeepsToItself) {message : Message}
    {r : Except NodeError Unit × Session} (h : enter depth id message s = some r) :
    (node.respond message).handling = .ends r.1 ∧ r.2.network = s.network.replace id (node.respond message).node := by
  obtain ⟨node', reply, es, t, handled, rfl⟩ := runs_enter _ _ _ _ _ h
  obtain rfl := Option.some.inj (handled.found.symm.trans found)
  obtain ⟨final, ended⟩ := quiet.ends message
  obtain ⟨-, rfl⟩ := handled.leaf final ended
  obtain rfl := handled.replied final ended
  refine ⟨ended, ?_⟩
  simp [finish, begin, noteAll, note, Network.replace]

/-- A name whose node keeps to itself is forgotten, and the node told so if it is idle. -/
theorem destroyWith_of_quiet (quiet : s.network.QuietAt name) (bound : s.network.find? name = some id)
    {r : Except RouteError Unit × Session} (h : destroyWith (enter depth) name s = some r) :
    r.1 = .ok () ∧ r.2.network = s.network.farewell name id := by
  have found : s.network.nodes[id]? = some _ := List.getElem?_eq_getElem (Network.find?_lt bound)
  simp only [destroyWith, bound] at h
  simp only [Network.farewell, found]
  split at h
  · next busy =>
    cases h
    rw [if_pos busy]
    exact ⟨rfl, rfl⟩
  · next idle =>
    obtain ⟨r', handled, rfl⟩ := Option.map_eq_some_iff.mp h
    rw [if_neg idle]
    exact ⟨rfl, (enter_of_quiet (s := s.unbind name id) found (quiet _ _ bound found) handled).2⟩

/-- What an envelope comes to if the node that it is for keeps to itself: the answer, and the network afterwards. -/
inductive Dealt (net : Network) (envelope : Envelope) : Except RouteError Unit → Network → Prop
  | lost (free : net.find? envelope.target = none) :
      Dealt net envelope (.error (.targetNotFound envelope.target)) net
  | refused {id : NodeId} {message : Message} (bound : net.find? envelope.target = some id) (busy : id ∈ net.running)
      (asked : envelope.delivery = .tell message) : Dealt net envelope (.error (.nodeBusy envelope.target)) net
  | unregistered {id : NodeId} (bound : net.find? envelope.target = some id)
      (asked : envelope.delivery = .unregister) : Dealt net envelope (.ok ()) (net.unbind envelope.target)
  | destroyed {id : NodeId} (bound : net.find? envelope.target = some id) (asked : envelope.delivery = .destroy) :
      Dealt net envelope (.ok ()) (net.farewell envelope.target id)
  | told {id : NodeId} {message : Message} {node : Node} {reply : Except NodeError Unit}
      (bound : net.find? envelope.target = some id) (idle : id ∉ net.running) (found : net.nodes[id]? = some node)
      (asked : envelope.delivery = .tell message) (ended : (node.respond message).handling = .ends reply) :
      Dealt net envelope (reply.mapError (.node envelope.target)) (net.replace id (node.respond message).node)

/-- An envelope with a verb of the lifecycle is carried out, and its name is forgotten. -/
theorem Dealt.forgets {net later : Network} {envelope : Envelope} {answer : Except RouteError Unit}
    (h : Dealt net envelope answer later) (lifecycle : envelope.IsLifecycle)
    (bound : net.find? envelope.target = some id) : answer = .ok () ∧ later.find? envelope.target = none := by
  cases h with
  | lost free => cases free.symm.trans bound
  | refused _ _ asked | told _ _ _ asked _ => exact absurd lifecycle (Envelope.not_isLifecycle_of_tell asked)
  | unregistered => exact ⟨rfl, (Network.find?_unbind ..).trans (if_pos rfl)⟩
  | destroyed => exact ⟨rfl, (Network.find?_farewell ..).trans (if_pos rfl)⟩

/-- An envelope with any other verb is refused if the node is busy. -/
theorem Dealt.refuses {net later : Network} {envelope : Envelope} {answer : Except RouteError Unit}
    (h : Dealt net envelope answer later) (plain : ¬envelope.IsLifecycle)
    (bound : net.find? envelope.target = some id) (busy : id ∈ net.running) :
    answer = .error (.nodeBusy envelope.target) ∧ later = net := by
  cases h with
  | lost free => cases free.symm.trans bound
  | refused => exact ⟨rfl, rfl⟩
  | unregistered _ asked | destroyed _ asked => exact absurd (Envelope.isLifecycle_of_untold (by simp [asked])) plain
  | told bound' idle =>
    obtain rfl := Option.some.inj (bound.symm.trans bound')
    exact absurd busy idle

/-- An envelope with any other verb is told to the node if that is idle. -/
theorem Dealt.tells {net later : Network} {envelope : Envelope} {answer : Except RouteError Unit}
    (h : Dealt net envelope answer later) (plain : ¬envelope.IsLifecycle)
    (bound : net.find? envelope.target = some id) (idle : id ∉ net.running) (found : net.nodes[id]? = some node) :
    ∃ message reply, envelope.delivery = .tell message ∧ (node.respond message).handling = .ends reply ∧
      answer = reply.mapError (.node envelope.target) ∧ later = net.replace id (node.respond message).node := by
  cases h with
  | lost free => cases free.symm.trans bound
  | refused bound' busy _ =>
    obtain rfl := Option.some.inj (bound.symm.trans bound')
    exact absurd busy idle
  | unregistered _ asked | destroyed _ asked => exact absurd (Envelope.isLifecycle_of_untold (by simp [asked])) plain
  | told bound' _ found' asked ended =>
    obtain rfl := Option.some.inj (bound.symm.trans bound')
    obtain rfl := Option.some.inj (found.symm.trans found')
    exact ⟨_, _, asked, ended, rfl, rfl⟩

theorem dispatchWith_dealt {envelope : Envelope} (quiet : s.network.QuietAt envelope.target)
    {r : Except RouteError Unit × Session} (h : dispatchWith (enter depth) envelope s = some r) :
    Dealt s.network envelope r.1 r.2.network := by
  obtain ⟨⟨answer, after⟩, delivered, rfl⟩ := Option.map_eq_some_iff.mp h
  dsimp only
  unfold deliverWith at delivered
  split at delivered
  · next free =>
    cases delivered
    exact .lost free
  · next id bound =>
    split at delivered
    · next asked =>
      cases delivered
      exact .unregistered bound asked
    · next asked =>
      obtain ⟨rfl, network⟩ := destroyWith_of_quiet quiet bound delivered
      rw [network]
      exact .destroyed bound asked
    · next message asked =>
      split at delivered
      · next busy =>
        cases delivered
        exact .refused bound (mem_running busy) asked
      · next idle =>
        have found : s.network.nodes[id]? = some _ := List.getElem?_eq_getElem (Network.find?_lt bound)
        obtain ⟨⟨reply, t⟩, handled, heq⟩ := Option.map_eq_some_iff.mp delivered
        cases heq
        obtain ⟨ended, network⟩ := enter_of_quiet found (quiet _ _ bound found) handled
        rw [network]
        exact .told bound (not_mem_running (by simpa using idle)) found asked ended

/-- What a call comes to that carries an envelope to a node that keeps to itself. -/
theorem performWith_dealt {call : Call} {envelope : Envelope} (carried : call.Carries envelope)
    (quiet : s.network.QuietAt envelope.target) {r : Outcome × Session}
    (h : performWith (enter depth) call s = some r) :
    ∃ answer, r.1 = .done answer ∧ Dealt s.network envelope answer r.2.network := by
  obtain ⟨r', dispatched, rfl⟩ : ∃ r', dispatchWith (enter depth) envelope (s.note (.asked s.network.running call)) =
      some r' ∧ (Outcome.done r'.1, r'.2) = r := by
    cases carried with
    | dispatch => exact Option.map_eq_some_iff.mp h
    | command read | data read =>
      simp only [performWith, answerWith, read] at h
      exact Option.map_eq_some_iff.mp h
  exact ⟨r'.1, rfl, dispatchWith_dealt (s := s.note _) quiet dispatched⟩

theorem perform_dispatch_dealt (envelope : Envelope) (quiet : s.network.QuietAt envelope.target) :
    ∃ answer, (s.perform (.dispatch envelope)).1 = .done answer ∧
      Dealt s.network envelope answer (s.perform (.dispatch envelope)).2.network :=
  performWith_dealt (.dispatch envelope) quiet (performWith_idle _ s)

end Session
end Chip8
