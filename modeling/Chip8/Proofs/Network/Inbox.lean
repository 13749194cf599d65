import Chip8.Proofs.Network.Delivery

/-!
An inbox is a queue. Whatever calls are made of the network, each payload that the inbox begins to handle is
put at the end of its queue, once, and nothing else changes the queue but taking a payload out of it. An
inbox makes no calls, so it is done with a payload before the next one comes.
-/

namespace Chip8

@[simp] def Message.payload? : Message → Option String
  | receive payload => some payload
  | _ => none

namespace Event

/-- The payload that a node begins to handle. -/
def accepted? (id : NodeId) : Event → Option String
  | entered (k :: _) message => if k = id then message.payload? else none
  | _ => none

/-- The payloads that a node begins to handle, the oldest first; of events the latest is first. -/
def acceptedBy (id : NodeId) (events : List Event) : List String := events.reverse.filterMap (accepted? id)

variable {id : NodeId} {events later : List Event}

@[simp] theorem acceptedBy_nil : acceptedBy id [] = [] := rfl

@[simp] theorem acceptedBy_append : acceptedBy id (later ++ events) = acceptedBy id events ++ acceptedBy id later := by
  simp [acceptedBy]

theorem acceptedBy_cons {e : Event} :
    acceptedBy id (e :: events) = acceptedBy id events ++ (e.accepted? id).toList := by
  cases accepted : e.accepted? id <;> simp [acceptedBy, accepted]

theorem acceptedBy_entered {k : NodeId} {running : List NodeId} {message : Message} :
    acceptedBy id [.entered (k :: running) message] = if k = id then message.payload?.toList else [] := by
  by_cases same : k = id
  · cases message <;> simp [acceptedBy, accepted?, same]
  · simp [acceptedBy, accepted?, same]

/-- Events other than the begin of a handler. -/
theorem acceptedBy_eq_nil (h : ∀ e ∈ events, ∀ running message, e ≠ .entered running message) :
    acceptedBy id events = [] := by
  refine List.filterMap_eq_nil_iff.mpr fun e he => ?_
  have other := h e (List.mem_reverse.mp he)
  cases e with
  | entered running message => exact absurd rfl (other running message)
  | _ => rfl

theorem acceptedBy_of_source (h : ∀ e ∈ events, e.source ≠ .network) : acceptedBy id events = [] := by
  refine acceptedBy_eq_nil ?_
  rintro e he running message rfl
  exact h _ he rfl

end Event

open Event

theorem Node.respond_inbox (queue : List String) (message : Message) :
    (Node.respond (.inbox queue) message).node = .inbox (queue ++ message.payload?.toList) ∧
      (∃ final, (Node.respond (.inbox queue) message).handling = .ends final) ∧
      (Node.respond (.inbox queue) message).notes = [] := by
  cases message <;> simp [respond, respondInbox]

namespace Session
variable {s t u : Session} {id : NodeId}

theorem acceptedBy_dispatchNotes {envelope : Envelope} {bound : Option NodeId} {answer : Except RouteError Unit} :
    acceptedBy id (dispatchNotes envelope bound answer) = [] := by
  refine acceptedBy_eq_nil fun e he running message => ?_
  cases answer with
  | ok => simp_all [dispatchNotes]
  | error cause => rcases List.mem_cons.mp he with rfl | he <;> simp_all

theorem acceptedBy_handlerNotes {running : List NodeId} {k : NodeId} {message : Message} {own calls : List Event}
    (hown : ∀ e ∈ own, e.source = .node) :
    acceptedBy id (handlerNotes running k message own calls) =
      (if k = id then message.payload?.toList else []) ++ acceptedBy id calls := by
  have quiet : acceptedBy id own.reverse = [] :=
    acceptedBy_of_source fun e he => by simp [hown e (List.mem_reverse.mp he)]
  have left : acceptedBy id [.left k] = [] := rfl
  rw [handlerNotes, ← List.singleton_append]
  simp only [acceptedBy_append, quiet, left, acceptedBy_entered, List.append_nil]

theorem inbox_stays {es : List Event} {queue : List String} (found : s.network.nodes[id]? = some (.inbox queue))
    (quiet : acceptedBy id es = []) : s.network.nodes[id]? = some (.inbox (queue ++ acceptedBy id es)) := by
  rw [quiet, List.append_nil]
  exact found

/-- A handler puts what its node accepts at the end of the queue, and leaves the queues of others to the
calls that it makes. -/
theorem handled_inbox {k : NodeId} {message : Message} {node : Node} {es : List Event} {queue : List String}
    (found : s.network.nodes[id]? = some (.inbox queue)) (found' : s.network.nodes[k]? = some node)
    (leaf : ∀ final, (node.respond message).handling = .ends final →
      es = [] ∧ t = s.begin k message (node.respond message))
    (others : ∀ queue', (s.begin k message (node.respond message)).network.nodes[id]? = some (.inbox queue') →
      t.network.nodes[id]? = some (.inbox (queue' ++ acceptedBy id es))) :
    t.network.nodes[id]? = some (.inbox (queue ++
      acceptedBy id (handlerNotes s.network.running k message (node.respond message).notes es))) := by
  rw [acceptedBy_handlerNotes fun _ => Node.source_of_mem_notes]
  by_cases same : k = id
  · subst same
    obtain rfl := Option.some.inj (found'.symm.trans found)
    obtain ⟨node, ⟨final, ended⟩, -⟩ := Node.respond_inbox queue message
    obtain ⟨rfl, rfl⟩ := leaf final ended
    rw [found_begin_self found, node]
    simp
  · rw [if_neg same, List.nil_append]
    exact others queue (found_begin found _ _ same)

/-- In the course of a call the queue of an inbox grows by what the inbox accepts. -/
theorem Course.inbox {es : List Event} (h : Course s es t) {queue : List String}
    (found : s.network.nodes[id]? = some (.inbox queue)) :
    t.network.nodes[id]? = some (.inbox (queue ++ acceptedBy id es)) := by
  induction h generalizing queue with
  | refl | ask | unbind | drop => exact inbox_stays found rfl
  | remark h =>
    refine inbox_stays found (acceptedBy_eq_nil ?_)
    rintro _ he running message rfl
    obtain rfl := List.mem_singleton.mp he
    cases h
  | trans _ _ ih₁ ih₂ =>
    rw [acceptedBy_append, ← List.append_assoc]
    exact ih₂ (ih₁ found)
  | hear s k o =>
    rw [nodes_hear, found]
    split <;> simp [Node.hear]
  | @destroy s t name k node es bound free found' calls leaf ih =>
    have unbound : (s.unbind name k).network.nodes[id]? = some (.inbox queue) := found
    have handled := handled_inbox unbound found' leaf fun _ begun => ih begun
    have destroyed : acceptedBy id [.destroyed name k] = [] := rfl
    have unregistered : acceptedBy id [.unregistered name k] = [] := rfl
    rw [← List.singleton_append]
    simp only [acceptedBy_append, destroyed, unregistered, List.nil_append, List.append_nil]
    exact handled
  | lose | refuse => exact inbox_stays found acceptedBy_dispatchNotes
  | lifecycle _ _ _ ih =>
    rw [acceptedBy_append, acceptedBy_dispatchNotes, List.append_nil]
    exact ih found
  | tell _ _ _ found' _ leaf _ ih =>
    rw [acceptedBy_append, acceptedBy_dispatchNotes, List.append_nil]
    have handled := handled_inbox found found' leaf fun _ begun => ih begun
    exact handled

theorem Changed.inbox {c : Change} {es : List Event} (h : Changed s c es t) (kept : c ≠ .takeMail id)
    {queue : List String} (found : s.network.nodes[id]? = some (.inbox queue)) :
    t.network.nodes[id]? = some (.inbox (queue ++ acceptedBy id es)) := by
  cases h with
  | made node =>
    obtain ⟨made, -⟩ := List.getElem?_eq_some_iff.mp found
    refine inbox_stays ?_ rfl
    rw [← found]
    exact List.getElem?_append_left made
  | bound | unmade | taken | untold => exact inbox_stays found rfl
  | called course => exact course.inbox found
  | told _ handled =>
    have filled := handled_inbox found handled.found handled.leaf fun _ begun => handled.calls.inbox begun
    exact filled
  | mail k =>
    have other : id ≠ k := fun same => kept (same ▸ rfl)
    refine inbox_stays ?_ rfl
    simp only [Network.takeMail]
    split
    · simpa [Network.replace, List.getElem?_set_ne other.symm] using found
    · exact found

/-! ### Sessions between which an inbox is filled -/

/-- Between two sessions the queue of an inbox grows by what the inbox accepts. -/
def Fills (id : NodeId) (s t : Session) : Prop :=
  ∃ es, t.trace = es ++ s.trace ∧ ∀ queue, s.network.nodes[id]? = some (.inbox queue) →
    t.network.nodes[id]? = some (.inbox (queue ++ acceptedBy id es))

namespace Fills

theorem of_noted {es : List Event} (network : t.network = s.network) (trace : t.trace = es ++ s.trace)
    (quiet : acceptedBy id es = []) : Fills id s t := by
  refine ⟨es, trace, ?_⟩
  intro queue found
  rw [network]
  exact inbox_stays found quiet

theorem trans (h₁ : Fills id s t) (h₂ : Fills id t u) : Fills id s u := by
  obtain ⟨es, trace₁, grows₁⟩ := h₁
  obtain ⟨fs, trace₂, grows₂⟩ := h₂
  refine ⟨fs ++ es, by rw [trace₂, trace₁, List.append_assoc], ?_⟩
  intro queue found
  rw [acceptedBy_append, ← List.append_assoc]
  exact grows₂ _ (grows₁ _ found)

end Fills

theorem change_fills {c : Change} (kept : c ≠ .takeMail id) (s : Session) : Fills id s (s.change c).2 := by
  obtain ⟨es, changed⟩ := change_changed s c
  exact ⟨es, changed.trace, fun _ found => changed.inbox kept found⟩

theorem perform_fills (c : Call) (s : Session) : Fills id s (s.perform c).2 :=
  change_fills (c := .call c) nofun s

/-- What adding an inbox comes to: it is a new node and empty, or its name is taken. -/
inductive InboxAdded (s : Session) (name : String) : Except RouteError NodeId × Session → Prop
  | bound {t : Session} (nodes : t.network.nodes = s.network.nodes ++ [.inbox []])
      (trace : t.trace = .registered name s.network.nodes.length :: s.trace) :
      InboxAdded s name (.ok s.network.nodes.length, t)
  | taken (cause : RouteError) : InboxAdded s name (.error cause, s.note (.nameTaken name))

theorem register_of_free {name : String} (free : s.network.find? name = none) (made : id < s.network.nodes.length) :
    s.register name id =
      (.ok (), { s with network := s.network.bind name id free made }.note (.registered name id)) := by
  rw [register, dif_pos free, dif_pos made]

theorem register_of_taken {name : String} (taken : s.network.find? name ≠ none) (id : NodeId) :
    s.register name id = (.error (.duplicateName name), s.note (.nameTaken name)) := by
  rw [register, dif_neg taken]

theorem addInbox_added (name : String) (s : Session) : InboxAdded s name (s.addInbox name) := by
  let added : Session := { s with network := (s.network.add (.inbox [])).2 }
  have made : s.network.nodes.length < added.network.nodes.length := by simp [added, Network.add]
  by_cases free : added.network.find? name = none
  · have registered := register_of_free free made
    unfold addInbox
    dsimp only
    split
    · next t h =>
      cases registered.symm.trans h
      exact .bound rfl rfl
    · next h => cases registered.symm.trans h
  · have refused := register_of_taken free s.network.nodes.length
    unfold addInbox
    dsimp only
    split
    · next h => cases refused.symm.trans h
    · next h =>
      cases refused.symm.trans h
      exact .taken _

end Session
end Chip8
