import Chip8.Proofs.Network.Quiet

/-!
Locality. Among nodes that keep to themselves, what is asked of a name concerns the binding of this name and the node
that it is bound to, and no other name or node, also if the node has other names. What fails changes nothing at all. To
send a verb of the lifecycle to a name is the same as to unregister or to destroy it.
-/

namespace Chip8

/-- The name that something asked of the network is about. A text that is no envelope is about none. -/
inductive Change.Addresses : Change → Option String → Prop
  | register (name : String) (id : NodeId) : Addresses (.register name id) (some name)
  | unregister (name : String) : Addresses (.call (.unregister name)) (some name)
  | destroy (name : String) : Addresses (.call (.destroy name)) (some name)
  | dispatch (envelope : Envelope) : Addresses (.call (.dispatch envelope)) (some envelope.target)
  | command {text : String} {c : Command} (read : Command.parse text = .ok c) :
      Addresses (.call (.command text)) (some c.target)
  | noCommand {text : String} {cause : CodecError} (malformed : Command.parse text = .error cause) :
      Addresses (.call (.command text)) none
  | data {text : String} {d : Data} (read : Data.parse text = .ok d) : Addresses (.call (.data text)) (some d.target)
  | noData {text : String} {cause : CodecError} (malformed : Data.parse text = .error cause) :
      Addresses (.call (.data text)) none

/-- Why something failed that was asked of the network, if it did. -/
def Reply.cause? : Reply → Option RouteError
  | registered (.error cause) | outcome (.done (.error cause)) => some cause
  | _ => none

theorem Reply.eq_of_cause? {o : Outcome} {cause : RouteError} (failed : (Reply.outcome o).cause? = some cause) :
    o = .done (.error cause) := by
  cases o with
  | done answer =>
    cases answer with
    | ok => cases failed
    | error other => rw [Option.some.inj failed]
  | flag | count => cases failed

namespace Node

/-- A node that is left as it was by what it rejects. -/
def Cautious (node : Node) : Prop :=
  ∀ message cause, (node.respond message).handling = .ends (.error cause) → (node.respond message).node = node

theorem cautious_log (n : LogNode) : Cautious (.log n) := by
  intro message cause rejected
  cases message with
  | execute verb args =>
    cases checked : Verb.check verb args with
    | ok v =>
      rw [respond, respondLog_of_accepted n checked] at rejected
      cases rejected
    | error other => rw [respond, respondLog_of_rejected n checked]
  | receive | destroy => cases rejected

theorem cautious_inbox (queue : List String) : Cautious (.inbox queue) := by
  intro message cause rejected
  cases message with
  | execute => rfl
  | receive | destroy => cases rejected

theorem cautious_recorder (executed received : List String) : Cautious (.recorder executed received) := by
  intro message cause rejected
  cases message <;> cases rejected

/-- An agent keeps nothing in mind of the commands that it rejects. -/
theorem cautious_agent (n : Agent) (forgets : ∀ verb args cause, n.execute n.memory verb args = .ends (.error cause) →
    n.keeps n.memory (.message (.execute verb args)) = false) : Cautious (.agent n) := by
  intro message cause rejected
  cases message with
  | execute verb args =>
    have forgotten := forgets verb args cause rejected
    simp [respond, respondAgent, Agent.hear, forgotten]
  | receive payload =>
    simp only [respond, respondAgent, Agent.handling] at rejected
    cases received : n.receive n.memory payload <;> simp [received, Handling.map] at rejected
  | destroy =>
    simp only [respond, respondAgent, Agent.handling] at rejected
    cases destroyed : n.onDestroy n.memory <;> simp [destroyed, Handling.map] at rejected

end Node

namespace Network
variable {net later : Network} {name : String} {id : NodeId} {target : Option String}

/-- All nodes are left as they were by what they reject. -/
def Cautious (net : Network) : Prop := ∀ node ∈ net.nodes, node.Cautious

/-- Between two networks nothing has changed but the binding of a name and the node that it was bound to. -/
structure Confined (target : Option String) (net later : Network) : Prop where
  names : ∀ other, target ≠ some other → later.find? other = net.find? other
  nodes : ∀ id, (∀ name, target = some name → net.find? name ≠ some id) → later.nodes[id]? = net.nodes[id]?

namespace Confined

theorem refl (target : Option String) (net : Network) : Confined target net net := ⟨fun _ _ => rfl, fun _ _ => rfl⟩

theorem bind (free : net.find? name = none) (made : id < net.nodes.length) :
    Confined (some name) net (net.bind name id free made) where
  names := fun other apart => (find?_bind free made other).trans (if_neg fun same => apart (congrArg some same.symm))
  nodes := fun _ _ => rfl

theorem unbind (net : Network) (name : String) : Confined (some name) net (net.unbind name) where
  names := fun other apart => (find?_unbind net name other).trans (if_neg fun same => apart (congrArg some same.symm))
  nodes := fun _ _ => rfl

/-- The node of the name may change besides. -/
theorem replace (h : Confined (some name) net later) (bound : net.find? name = some id) (node : Node) :
    Confined (some name) net (later.replace id node) where
  names := h.names
  nodes := by
    intro k other
    have apart : id ≠ k := fun same => other name rfl (same ▸ bound)
    rw [← h.nodes k other]
    exact List.getElem?_set_ne apart

theorem farewell (bound : net.find? name = some id) : Confined (some name) net (net.farewell name id) := by
  unfold Network.farewell
  split
  · split
    · exact unbind net name
    · exact (unbind net name).replace bound _
  · exact unbind net name

end Confined
end Network

namespace Session
variable {s : Session} {net later : Network} {envelope : Envelope} {answer : Except RouteError Unit} {depth : Nat}

open Network (Confined)

theorem Dealt.confined (h : Dealt net envelope answer later) : Confined (some envelope.target) net later := by
  cases h with
  | lost | refused => exact .refl _ net
  | unregistered => exact .unbind net _
  | destroyed bound => exact .farewell bound
  | told bound => exact (Confined.refl _ net).replace bound _

/-- An envelope that is not delivered, or that the node rejects, changes nothing. -/
theorem Dealt.unharmed (h : Dealt net envelope answer later) (cautious : net.Cautious) {cause : RouteError}
    (failed : answer = .error cause) : later = net := by
  cases h with
  | lost | refused => rfl
  | unregistered | destroyed => cases failed
  | @told id message node reply bound idle found asked ended =>
    cases reply with
    | ok => cases failed
    | error cause =>
      have untouched := cautious node (List.mem_of_getElem? found) message cause ended
      rw [untouched, Network.replace_self found]

/-- What is asked of a name is confined to it, and leaves the network as it was if it fails. -/
structure Local (target : Option String) (net : Network) (o : Outcome) (later : Network) : Prop where
  confined : Confined target net later
  unharmed : ∀ cause, o = .done (.error cause) → later = net

theorem dispatchWith_local (quiet : s.network.Quiet) (cautious : s.network.Cautious) {r : Outcome × Session}
    (h : ((dispatchWith (enter depth) envelope s).map fun r => (Outcome.done r.1, r.2)) = some r) :
    Local (some envelope.target) s.network r.1 r.2.network := by
  obtain ⟨r', dispatched, rfl⟩ := Option.map_eq_some_iff.mp h
  have dealt := dispatchWith_dealt (quiet.at _) dispatched
  exact ⟨dealt.confined, fun cause failed => dealt.unharmed cautious (Outcome.done.inj failed)⟩

theorem destroyWith_local (quiet : s.network.Quiet) {name : String} {r : Except RouteError Unit × Session}
    (h : destroyWith (enter depth) name s = some r) : Local (some name) s.network (.done r.1) r.2.network := by
  cases bound : s.network.find? name with
  | none =>
    simp only [destroyWith, bound, Option.some.injEq] at h
    subst h
    exact ⟨.refl _ _, fun _ _ => rfl⟩
  | some id =>
    obtain ⟨answer, network⟩ := destroyWith_of_quiet (quiet.at name) bound h
    rw [answer, network]
    exact ⟨.farewell bound, by simp⟩

theorem answerWith_local (quiet : s.network.Quiet) (cautious : s.network.Cautious) {c : Call}
    {target : Option String} (addressed : (Change.call c).Addresses target) {r : Outcome × Session} (h : answerWith (enter depth) c s = some r) :
    Local target s.network r.1 r.2.network := by
  cases addressed with
  | unregister name =>
    simp only [answerWith] at h
    split at h
    · cases h
      exact ⟨.unbind _ name, by simp⟩
    · cases h
      exact ⟨.refl _ _, by simp⟩
  | destroy name =>
    obtain ⟨r', destroyed, rfl⟩ := Option.map_eq_some_iff.mp h
    exact destroyWith_local quiet destroyed
  | dispatch envelope => exact dispatchWith_local quiet cautious h
  | command read | data read =>
    simp only [answerWith, read] at h
    exact dispatchWith_local quiet cautious h
  | noCommand malformed | noData malformed =>
    simp only [answerWith, malformed] at h
    cases h
    exact ⟨.refl _ _, fun _ _ => rfl⟩

theorem change_local (quiet : s.network.Quiet) (cautious : s.network.Cautious) {c : Change} {target : Option String}
    (addressed : c.Addresses target) :
    Confined target s.network (s.change c).2.network ∧
      ∀ cause, (s.change c).1.cause? = some cause → (s.change c).2.network = s.network := by
  cases c with
  | call c =>
    have answered := answerWith_local (s := s.note _) quiet cautious addressed (performWith_idle c s)
    exact ⟨answered.confined, fun cause failed => answered.unharmed cause (Reply.eq_of_cause? failed)⟩
  | register name id =>
    obtain rfl : target = some name := by cases addressed; rfl
    simp only [change, register]
    split
    · next free =>
      split
      · next made => exact ⟨.bind free made, by simp [Reply.cause?]⟩
      · exact ⟨.refl _ _, fun _ _ => rfl⟩
    · exact ⟨.refl _ _, fun _ _ => rfl⟩
  | make | tell | takeMail => cases addressed

/-! ### The verbs of the lifecycle -/

theorem Dealt.of_unregister (h : Dealt net envelope answer later) {id : NodeId}
    (bound : net.find? envelope.target = some id) (asked : envelope.delivery = .unregister) :
    answer = .ok () ∧ later = net.unbind envelope.target := by
  cases h with
  | lost free => cases free.symm.trans bound
  | unregistered => exact ⟨rfl, rfl⟩
  | refused _ _ asked' | destroyed _ asked' | told _ _ _ asked' _ => cases asked.symm.trans asked'

theorem Dealt.of_destroy (h : Dealt net envelope answer later) {id : NodeId}
    (bound : net.find? envelope.target = some id) (asked : envelope.delivery = .destroy) :
    answer = .ok () ∧ later = net.farewell envelope.target id := by
  cases h with
  | lost free => cases free.symm.trans bound
  | destroyed bound' =>
    obtain rfl := Option.some.inj (bound.symm.trans bound')
    exact ⟨rfl, rfl⟩
  | refused _ _ asked' | unregistered _ asked' | told _ _ _ asked' _ => cases asked.symm.trans asked'

theorem perform_unregister {name : String} {id : NodeId} (bound : s.network.find? name = some id) :
    (s.perform (.unregister name)).1 = .flag true ∧
      (s.perform (.unregister name)).2.network = s.network.unbind name := by
  have answered := performWith_idle (.unregister name) s
  simp only [performWith, answerWith, network_note, bound, Option.some.injEq] at answered
  rw [← answered]
  exact ⟨rfl, rfl⟩

theorem perform_destroy (quiet : s.network.Quiet) {name : String} {id : NodeId}
    (bound : s.network.find? name = some id) :
    (s.perform (.destroy name)).1 = .done (.ok ()) ∧
      (s.perform (.destroy name)).2.network = s.network.farewell name id := by
  obtain ⟨r, destroyed, answered⟩ := Option.map_eq_some_iff.mp (performWith_idle (.destroy name) s)
  obtain ⟨answer, network⟩ := destroyWith_of_quiet (s := s.note _) (quiet.at name) bound destroyed
  rw [← answered]
  exact ⟨congrArg Outcome.done answer, network⟩

/-- To send one of the verbs of the lifecycle to a bound name does the same as to unregister or to destroy the name. -/
theorem perform_lifecycle (quiet : s.network.Quiet) {name : String} {id : NodeId}
    (bound : s.network.find? name = some id) (args : List String) :
    ((s.perform (.dispatch (.command ⟨name, Verb.unregister.name, args⟩))).1 = .done (.ok ()) ∧
      (s.perform (.unregister name)).1 = .flag true ∧
      (s.perform (.dispatch (.command ⟨name, Verb.unregister.name, args⟩))).2.network =
        (s.perform (.unregister name)).2.network) ∧
    ((s.perform (.dispatch (.command ⟨name, Verb.destroy.name, args⟩))).1 = .done (.ok ()) ∧
      (s.perform (.destroy name)).1 = .done (.ok ()) ∧
      (s.perform (.dispatch (.command ⟨name, Verb.destroy.name, args⟩))).2.network =
        (s.perform (.destroy name)).2.network) := by
  obtain ⟨answer, answered, dealt⟩ := perform_dispatch_dealt (s := s)
    (.command ⟨name, Verb.unregister.name, args⟩) (quiet.at _)
  obtain ⟨answer', answered', dealt'⟩ := perform_dispatch_dealt (s := s)
    (.command ⟨name, Verb.destroy.name, args⟩) (quiet.at _)
  obtain ⟨rfl, unbound⟩ := dealt.of_unregister bound rfl
  obtain ⟨rfl, parted⟩ := dealt'.of_destroy bound rfl
  obtain ⟨was, unregistered⟩ := perform_unregister bound
  obtain ⟨done, destroyed⟩ := perform_destroy quiet bound
  exact ⟨⟨answered, was, unbound.trans unregistered.symm⟩, answered', done, parted.trans destroyed.symm⟩

/-- Among nodes that make no calls, and that are left as they were by what they reject, whatever is asked of a name
changes at most the binding of this name and the node that it was bound to; all other names, and all other nodes, are as
before. If it fails, nothing has changed at all. To send a verb of the lifecycle to a bound name does the same as to
unregister or to destroy it. -/
theorem changes_are_local (s : Session) (quiet : s.network.Quiet) (cautious : s.network.Cautious) :
    (∀ c target, Change.Addresses c target →
      (∀ other, target ≠ some other → (s.change c).2.network.find? other = s.network.find? other) ∧
      (∀ id, (∀ name, target = some name → s.network.find? name ≠ some id) →
        (s.change c).2.network.nodes[id]? = s.network.nodes[id]?) ∧
      ∀ cause, (s.change c).1.cause? = some cause → (s.change c).2.network = s.network) ∧
    ∀ name id args, s.network.find? name = some id →
      ((s.perform (.dispatch (.command ⟨name, Verb.unregister.name, args⟩))).1 = .done (.ok ()) ∧
        (s.perform (.unregister name)).1 = .flag true ∧
        (s.perform (.dispatch (.command ⟨name, Verb.unregister.name, args⟩))).2.network =
          (s.perform (.unregister name)).2.network) ∧
      ((s.perform (.dispatch (.command ⟨name, Verb.destroy.name, args⟩))).1 = .done (.ok ()) ∧
        (s.perform (.destroy name)).1 = .done (.ok ()) ∧
        (s.perform (.dispatch (.command ⟨name, Verb.destroy.name, args⟩))).2.network =
          (s.perform (.destroy name)).2.network) := by
  refine ⟨?_, fun name id args bound => perform_lifecycle quiet bound args⟩
  intro c target addressed
  obtain ⟨confined, unharmed⟩ := change_local quiet cautious addressed
  exact ⟨confined.names, confined.nodes, unharmed⟩

/-- A bell that keeps in mind what data it was sent, and rejects commands until then. -/
def bell : Agent where
  execute := fun memory verb _ => .ends (if memory.isEmpty then .error (.unrecognizedCommand verb) else .ok ())
  receive := fun _ _ => .ends ()
  onDestroy := fun _ => .ends ()
  keeps := fun _ heard =>
    match heard with
    | .message (.receive _) => true
    | _ => false
  persistent := true

/-- A lamp of two names, an inbox, a recorder and the bell. -/
def shed : Session where
  network.nodes := [.log { name := "lamp", persistent := false }, .inbox ["hello"], .recorder [] [], .agent bell]
  network.bindings := [("lamp", 0), ("light", 0), ("post", 1), ("notes", 2), ("bell", 3)]

theorem shed_quiet : shed.network.Quiet := by
  intro node member
  simp only [shed, List.mem_cons, List.not_mem_nil, or_false] at member
  rcases member with rfl | rfl | rfl | rfl
  · exact Node.keepsToItself_log _
  · exact Node.keepsToItself_inbox _
  · exact Node.keepsToItself_recorder _ _
  · refine Node.keepsToItself_agent bell fun memory message => ?_
    cases message <;> exact ⟨_, rfl⟩

theorem shed_cautious : shed.network.Cautious := by
  intro node member
  simp only [shed, List.mem_cons, List.not_mem_nil, or_false] at member
  rcases member with rfl | rfl | rfl | rfl
  · exact Node.cautious_log _
  · exact Node.cautious_inbox _
  · exact Node.cautious_recorder _ _
  · exact Node.cautious_agent bell fun _ _ _ _ => rfl

/-- The lamp is destroyed under one of its names and keeps the other; the inbox and the bell refuse a command and stay
as they are. -/
theorem shed_is_local :
    shed.network.Quiet ∧ shed.network.Cautious ∧
    (shed.change (.call (.command "lamp|destroy"))).2.network.find? "light" = some 0 ∧
    (shed.change (.call (.command "lamp|destroy"))).2.network.nodes[1]? = some (.inbox ["hello"]) ∧
    (shed.perform (.dispatch (.command ⟨"lamp", "destroy", []⟩))).2.network =
      (shed.perform (.destroy "lamp")).2.network ∧
    (shed.change (.call (.command "post|spawn~red"))).1.cause? =
      some (.node "post" (.unrecognizedCommand "spawn")) ∧
    (shed.change (.call (.command "post|spawn~red"))).2.network = shed.network ∧
    (shed.change (.call (.command "bell|spawn"))).1.cause? = some (.node "bell" (.unrecognizedCommand "spawn")) ∧
    (shed.change (.call (.command "bell|spawn"))).2.network = shed.network := by
  obtain ⟨changed, lifecycle⟩ := changes_are_local shed shed_quiet shed_cautious
  have lamp : Command.parse "lamp|destroy" = .ok ⟨"lamp", "destroy", []⟩ := by rfl
  have post : Command.parse "post|spawn~red" = .ok ⟨"post", "spawn", ["red"]⟩ := by rfl
  obtain ⟨names, nodes, -⟩ := changed _ _ (.command lamp)
  have call : Command.parse "bell|spawn" = .ok ⟨"bell", "spawn", []⟩ := by rfl
  obtain ⟨-, -, unharmed⟩ := changed _ _ (.command post)
  obtain ⟨-, -, unrung⟩ := changed _ _ (.command call)
  have refused : (shed.change (.call (.command "post|spawn~red"))).1.cause? =
      some (.node "post" (.unrecognizedCommand "spawn")) := by rfl
  have rejected : (shed.change (.call (.command "bell|spawn"))).1.cause? =
      some (.node "bell" (.unrecognizedCommand "spawn")) := by rfl
  refine ⟨shed_quiet, shed_cautious, names "light" (by decide), nodes 1 ?_, (lifecycle "lamp" 0 [] rfl).2.2.2, refused,
    unharmed _ refused, rejected, unrung _ rejected⟩
  intro name same
  cases same
  decide

end Session
end Chip8
