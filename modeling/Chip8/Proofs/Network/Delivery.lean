import Chip8.Proofs.Network.Changes

/-!
Exactly-once delivery. What a log has received, and what it has in its history, can be read off the
dispatches: each message that is dispatched to a name of the log is there once, in the order of the
dispatches, and nothing else is, whatever the handlers of other nodes do in between.
-/

namespace Chip8

/-- The line that a command leaves in the history of a log. -/
def Command.line? (c : Command) : Option String :=
  if c.verb = Verb.unregister.name ∨ c.verb = Verb.destroy.name then none
  else
    match Verb.check c.verb c.args with
    | .ok _ => some (Envelope.fieldsText c.verb c.args)
    | .error _ => none

namespace Event

/-- The payload that is dispatched to a node. -/
def payloadTo? (id : NodeId) : Event → Option String
  | dispatched (.data d) (some bound) _ => if bound = id then some d.payload else none
  | _ => none

/-- The line of a command that is dispatched to a node. -/
def lineTo? (id : NodeId) : Event → Option String
  | dispatched (.command c) (some bound) _ => if bound = id then c.line? else none
  | _ => none

/-- The payloads that are dispatched to a node, the oldest first; of events the latest is first. -/
def payloadsTo (id : NodeId) (events : List Event) : List String := events.reverse.filterMap (payloadTo? id)

/-- The lines of the commands that are dispatched to a node, the oldest first. -/
def linesTo (id : NodeId) (events : List Event) : List String := events.reverse.filterMap (lineTo? id)

/-- Whether an event is no dispatch to a node. -/
def Misses (id : NodeId) (e : Event) : Prop := ∀ envelope answer, e ≠ .dispatched envelope (some id) answer

theorem Misses.payloadTo? {id : NodeId} {e : Event} (h : e.Misses id) : e.payloadTo? id = none := by
  unfold Event.payloadTo?
  split
  · next d bound answer =>
    have : bound ≠ id := fun heq => h (.data d) answer (by rw [heq])
    simp [this]
  · rfl

theorem Misses.lineTo? {id : NodeId} {e : Event} (h : e.Misses id) : e.lineTo? id = none := by
  unfold Event.lineTo?
  split
  · next c bound answer =>
    have : bound ≠ id := fun heq => h (.command c) answer (by rw [heq])
    simp [this]
  · rfl

theorem misses_of_source {id : NodeId} {e : Event} (h : e.source = .node) : e.Misses id := by
  rintro envelope answer rfl
  cases h

end Event

open Event

/-- How a log changes while events are noted: what is dispatched to it is put at the end of its lists, and
all data for it is accepted. -/
structure LogNode.Follows (id : NodeId) (es : List Event) (n n' : LogNode) : Prop where
  received : n'.received = n.received ++ payloadsTo id es
  history : n'.history = n.history ++ linesTo id es
  accepted : ∀ d answer, .dispatched (.data d) (some id) answer ∈ es → answer = .ok ()

namespace LogNode.Follows
variable {id : NodeId} {es fs : List Event} {n m l : LogNode}

theorem of_misses (h : ∀ e ∈ es, e.Misses id) (received : m.received = n.received)
    (history : m.history = n.history) : Follows id es n m where
  received := by
    have : payloadsTo id es = [] :=
      List.filterMap_eq_nil_iff.mpr fun e he => (h e (List.mem_reverse.mp he)).payloadTo?
    rw [this, received, List.append_nil]
  history := by
    have : linesTo id es = [] :=
      List.filterMap_eq_nil_iff.mpr fun e he => (h e (List.mem_reverse.mp he)).lineTo?
    rw [this, history, List.append_nil]
  accepted := fun d answer he => absurd rfl (h _ he (.data d) answer)

theorem refl (n : LogNode) : Follows id [] n n := of_misses (by simp) rfl rfl

theorem trans (h₁ : Follows id es n m) (h₂ : Follows id fs m l) : Follows id (fs ++ es) n l where
  received := by
    rw [h₂.received, h₁.received]
    simp [payloadsTo]
  history := by
    rw [h₂.history, h₁.history]
    simp [linesTo]
  accepted := by
    intro d answer he
    rcases List.mem_append.mp he with he | he
    · exact h₂.accepted d answer he
    · exact h₁.accepted d answer he

/-- Events that are no dispatches to the log do not count. -/
theorem missed (h₁ : Follows id es n m) (h₂ : ∀ e ∈ fs, e.Misses id) : Follows id (fs ++ es) n m :=
  h₁.trans (of_misses h₂ rfl rfl)

end LogNode.Follows

/-! ### What a log does with a message -/

theorem Node.respondLog_of_accepted (n : LogNode) {verb : String} {args : List String} {v : Verb}
    (accepted : Verb.check verb args = .ok v) :
    Node.respondLog n (.execute verb args) =
      { node := .log { n with history := n.history ++ [Envelope.fieldsText v.name args] }
        notes := [.commandLogged n.name (Envelope.fieldsText v.name args)] } := by
  simp [respondLog, accepted]

theorem Node.respondLog_of_rejected (n : LogNode) {verb : String} {args : List String} {cause : NodeError}
    (rejected : Verb.check verb args = .error cause) :
    Node.respondLog n (.execute verb args) = { node := .log n, handling := .ends (.error cause) } := by
  simp [respondLog, rejected]

theorem Node.ends_respondLog (n : LogNode) (message : Message) :
    ∃ final, (Node.respondLog n message).handling = .ends final := by
  unfold Node.respondLog
  split
  · split <;> exact ⟨_, rfl⟩
  · exact ⟨_, rfl⟩
  · exact ⟨_, rfl⟩

theorem Node.respondLog_destroy (n : LogNode) {id : NodeId} :
    ∃ m, (Node.respondLog n .destroy).node = .log m ∧ LogNode.Follows id [] n m :=
  ⟨{ n with destroyed := true }, rfl, .of_misses (by simp) rfl rfl⟩

namespace Session

theorem misses_dispatchNotes {id : NodeId} {envelope : Envelope} {bound : Option NodeId}
    {answer : Except RouteError Unit} (other : bound ≠ some id) :
    ∀ e ∈ dispatchNotes envelope bound answer, e.Misses id := by
  rintro _ he envelope' answer' rfl
  cases answer with
  | ok => simp_all [dispatchNotes]
  | error cause => simp_all [dispatchNotes]

/-- The notes of a handler are no dispatches; only those of its calls may be. -/
theorem handlerNotes_follows {running : List NodeId} {id k : NodeId} {message : Message}
    {own calls : List Event} {n m : LogNode} (hown : ∀ e ∈ own, e.source = .node)
    (h : LogNode.Follows id calls n m) :
    LogNode.Follows id (handlerNotes running k message own calls) n m := by
  have before : ∀ e ∈ own.reverse ++ [.entered (k :: running) message], e.Misses id := by
    intro e he
    rcases List.mem_append.mp he with he | he
    · exact misses_of_source (hown e (List.mem_reverse.mp he))
    · obtain rfl := List.mem_singleton.mp he
      simp [Misses]
  have begun : LogNode.Follows id (own.reverse ++ [.entered (k :: running) message]) n n := .of_misses before rfl rfl
  have ended : ∀ e ∈ [Event.left k], e.Misses id := by simp [Misses]
  exact (begun.trans h).missed ended

/-- A message that is dispatched to a log is taken in. -/
theorem dispatchNotes_follows (n : LogNode) {id : NodeId} {envelope : Envelope} {message : Message}
    (told : envelope.delivery = .tell message) {reply : Except NodeError Unit}
    (ended : (Node.respondLog n message).handling = .ends reply) :
    ∃ m, (Node.respondLog n message).node = .log m ∧
      LogNode.Follows id (dispatchNotes envelope (some id) (reply.mapError (.node envelope.target))) n m := by
  have plain : ¬envelope.IsLifecycle := Envelope.not_isLifecycle_of_tell told
  cases envelope with
  | data d =>
    obtain rfl : Message.receive d.payload = message := by simpa [Envelope.delivery] using told
    obtain rfl := Handling.ends.inj ended
    refine ⟨_, rfl, ?_, ?_, ?_⟩
    · simp [dispatchNotes, payloadsTo, payloadTo?]
    · simp [dispatchNotes, linesTo, lineTo?]
    · simp [dispatchNotes]
  | command c =>
    obtain rfl : Message.execute c.verb c.args = message := by
      simp only [Envelope.delivery] at told
      split at told
      · cases told
      · cases told
      · exact Delivery.tell.inj told
    have line : c.line? = match Verb.check c.verb c.args with
        | .ok _ => some (Envelope.fieldsText c.verb c.args)
        | .error _ => none := if_neg plain
    cases checked : Verb.check c.verb c.args with
    | ok v =>
      obtain named : v.name = c.verb := Verb.name_of_check checked
      rw [Node.respondLog_of_accepted n checked] at ended ⊢
      obtain rfl := Handling.ends.inj ended
      refine ⟨_, rfl, ?_, ?_, ?_⟩
      · simp [dispatchNotes, payloadsTo, payloadTo?]
      · simp [checked, dispatchNotes, linesTo, lineTo?, line, named]
      · simp [dispatchNotes]
    | error cause =>
      rw [Node.respondLog_of_rejected n checked] at ended ⊢
      obtain rfl := Handling.ends.inj ended
      refine ⟨n, rfl, ?_, ?_, ?_⟩
      · simp [dispatchNotes, payloadsTo, payloadTo?]
      · simp [checked, dispatchNotes, linesTo, lineTo?, line]
      · simp [dispatchNotes]

/-- A message of the lifecycle leaves nothing in the lists of a log. -/
theorem lifecycle_follows (n : LogNode) {id : NodeId} {bound : Option NodeId} {envelope : Envelope}
    (untold : ∀ message, envelope.delivery ≠ .tell message) :
    LogNode.Follows id (dispatchNotes envelope bound (.ok ())) n n := by
  have lifecycle : envelope.IsLifecycle := Envelope.isLifecycle_of_untold untold
  cases envelope with
  | data d => exact lifecycle.elim
  | command c =>
    have line : c.line? = none := if_pos lifecycle
    refine ⟨?_, ?_, ?_⟩
    · simp [dispatchNotes, payloadsTo, payloadTo?]
    · cases bound <;> simp [dispatchNotes, linesTo, lineTo?, line]
    · simp [dispatchNotes]

/-! ### Courses and changes -/

section
variable {s : Session} {id k : NodeId} {node : Node} (found : s.network.nodes[id]? = some node)
  (message : Message) (response : Node.Response)
include found

theorem found_begin (other : k ≠ id) : (s.begin k message response).network.nodes[id]? = some node := by
  rw [nodes_begin, List.getElem?_set_ne other]
  exact found

theorem found_begin_self : (s.begin id message response).network.nodes[id]? = some response.node := by
  obtain ⟨made, -⟩ := List.getElem?_eq_some_iff.mp found
  rw [nodes_begin, List.getElem?_set_self made]

end

theorem Course.log_follows {s t : Session} {es : List Event} (h : Course s es t) {id : NodeId} {n : LogNode}
    (found : s.network.nodes[id]? = some (.log n)) (idle : id ∉ s.network.running) :
    ∃ m, t.network.nodes[id]? = some (.log m) ∧ LogNode.Follows id es n m := by
  induction h generalizing n with
  | refl => exact ⟨n, found, .refl n⟩
  | trans h₁ _ ih₁ ih₂ =>
    obtain ⟨m, found₁, follows₁⟩ := ih₁ found idle
    obtain ⟨l, found₂, follows₂⟩ := ih₂ found₁ (h₁.running ▸ idle)
    exact ⟨l, found₂, follows₁.trans follows₂⟩
  | ask | unbind | drop => exact ⟨n, found, .of_misses (by simp [Misses]) rfl rfl⟩
  | remark h =>
    refine ⟨n, found, .of_misses ?_ rfl rfl⟩
    rintro _ he envelope answer rfl
    obtain rfl := List.mem_singleton.mp he
    cases h
  | hear s k o =>
    refine ⟨n, ?_, .refl n⟩
    rw [nodes_hear, found]
    split <;> rfl
  | @destroy s t name k node es bound free found' calls leaf ih =>
    have called : ∃ m, t.network.nodes[id]? = some (.log m) ∧ LogNode.Follows id es n m := by
      by_cases same : k = id
      · subst same
        obtain rfl := Option.some.inj (found'.symm.trans found)
        obtain ⟨rfl, rfl⟩ := leaf _ rfl
        obtain ⟨m, left, follows⟩ := Node.respondLog_destroy n
        exact ⟨m, (found_begin_self found .destroy _).trans (congrArg some left), follows⟩
      · exact ih (found_begin found .destroy _ same) (by simp [idle, Ne.symm same])
    obtain ⟨m, left, follows⟩ := called
    have unbound : LogNode.Follows id [.unregistered name k] n n := .of_misses (by simp [Misses]) rfl rfl
    have handled : LogNode.Follows id (handlerNotes s.network.running k .destroy (node.respond .destroy).notes es) n m :=
      handlerNotes_follows (fun _ => Node.source_of_mem_notes) follows
    have destroyed : ∀ e ∈ [Event.destroyed name k], e.Misses id := by simp [Misses]
    exact ⟨m, left, (unbound.trans handled).missed destroyed⟩
  | lose => exact ⟨n, found, .of_misses (misses_dispatchNotes (by simp)) rfl rfl⟩
  | @refuse s envelope k message bound told busy =>
    have other : some k ≠ some id := by
      rintro ⟨⟩
      exact idle (mem_running busy)
    exact ⟨n, found, .of_misses (misses_dispatchNotes other) rfl rfl⟩
  | @lifecycle s t envelope k es bound untold _ ih =>
    obtain ⟨m, left, follows⟩ := ih found idle
    exact ⟨m, left, follows.trans (lifecycle_follows m untold)⟩
  | @tell s t envelope k message node reply es bound told free found' calls leaf replied ih =>
    have own : ∀ e ∈ (node.respond message).notes, e.source = .node := fun _ => Node.source_of_mem_notes
    by_cases same : k = id
    · subst same
      obtain rfl := Option.some.inj (found'.symm.trans found)
      obtain ⟨final, ended⟩ := Node.ends_respondLog n message
      obtain ⟨rfl, rfl⟩ := leaf final ended
      obtain rfl := replied final ended
      obtain ⟨m, left, follows⟩ := dispatchNotes_follows n told ended
      refine ⟨m, ?_, (handlerNotes_follows own (.refl n)).trans follows⟩
      exact (found_begin_self found message _).trans (congrArg some left)
    · obtain ⟨m, left, follows⟩ := ih (found_begin found message _ same) (by simp [idle, Ne.symm same])
      have other : some k ≠ some id := fun h => same (Option.some.inj h)
      exact ⟨m, left, (handlerNotes_follows own follows).missed (misses_dispatchNotes other)⟩

theorem Changed.log_follows {s t : Session} {c : Change} {es : List Event} (h : Changed s c es t) {id : NodeId}
    {n : LogNode} (found : s.network.nodes[id]? = some (.log n)) (idle : id ∉ s.network.running)
    (unaddressed : ∀ message, c ≠ .tell id message) :
    ∃ m, t.network.nodes[id]? = some (.log m) ∧ LogNode.Follows id es n m := by
  cases h with
  | made node =>
    obtain ⟨made, -⟩ := List.getElem?_eq_some_iff.mp found
    exact ⟨n, by rw [← found]; exact List.getElem?_append_left made, .refl n⟩
  | bound | unmade | taken | untold => exact ⟨n, found, .of_misses (by simp [Misses]) rfl rfl⟩
  | called course => exact course.log_follows found idle
  | @told k message node reply es t free handled =>
    have other : k ≠ id := fun same => unaddressed message (by rw [same])
    obtain ⟨m, left, follows⟩ := handled.calls.log_follows (found_begin found message _ other)
      (by simp [idle, Ne.symm other])
    exact ⟨m, left, handlerNotes_follows (fun _ => Node.source_of_mem_notes) follows⟩
  | mail k =>
    refine ⟨n, ?_, .refl n⟩
    simp only [Network.takeMail]
    split
    · next payload rest inbox =>
      have other : k ≠ id := by
        rintro rfl
        cases inbox.symm.trans found
      simpa [Network.replace, List.getElem?_set_ne other] using found
    · exact found

/-- Whatever calls are made of a network at rest, one after another, and whatever calls the handlers of
its nodes make meanwhile, a log receives just the data that is dispatched to its names, each payload once
and in the order of the dispatches, and each such dispatch is answered with success. Its history grows by
one line for each command that is dispatched to its names, is none of the lifecycle and passes the check
of verbs. Nothing else changes either list. -/
theorem log_follows_dispatches (s : Session) (rest : s.network.running = []) (changes : List Change)
    (id : NodeId) (n : LogNode) (found : s.network.nodes[id]? = some (.log n))
    (unaddressed : ∀ message, .tell id message ∉ changes) :
    ∃ es m, (s.after changes).trace = es ++ s.trace ∧
      (s.after changes).network.nodes[id]? = some (.log m) ∧
      m.received = n.received ++ payloadsTo id es ∧
      m.history = n.history ++ linesTo id es ∧
      ∀ d answer, .dispatched (.data d) (some id) answer ∈ es → answer = .ok () := by
  suffices h : ∃ es m, (s.after changes).trace = es ++ s.trace ∧
      (s.after changes).network.nodes[id]? = some (.log m) ∧ LogNode.Follows id es n m by
    obtain ⟨es, m, trace, left, follows⟩ := h
    exact ⟨es, m, trace, left, follows.received, follows.history, follows.accepted⟩
  induction changes generalizing s n with
  | nil => exact ⟨[], n, rfl, found, .refl n⟩
  | cons c rest' ih =>
    obtain ⟨es, changed⟩ := change_changed s c
    have idle : id ∉ s.network.running := by simp [rest]
    obtain ⟨m, found₁, follows₁⟩ := changed.log_follows found idle fun message h =>
      unaddressed message (h ▸ List.mem_cons_self)
    obtain ⟨fs, l, trace, left, follows₂⟩ := ih _ (changed.running.trans rest) m found₁ fun message h =>
      unaddressed message (List.mem_cons_of_mem _ h)
    exact ⟨fs ++ es, l, by rw [after_cons, trace, changed.trace, List.append_assoc], left, follows₁.trans follows₂⟩

/-- The lamp hears what the agent passes on, and a command of its own. -/
theorem echo_lamp_follows :
    ∃ (es : List Event) (m : LogNode), (echo.after [.call (.dispatch (.data ⟨"voice", "hello"⟩)),
        .call (.dispatch (.command ⟨"lamp", "spawn", ["red"]⟩))]).trace = es ++ echo.trace ∧
      m.received = payloadsTo 0 es ∧ payloadsTo 0 es = ["hello"] ∧
      m.history = linesTo 0 es ∧ linesTo 0 es = ["spawn~red"] := by
  obtain ⟨es, m, trace, -, received, history, -⟩ := log_follows_dispatches echo rfl
    [.call (.dispatch (.data ⟨"voice", "hello"⟩)), .call (.dispatch (.command ⟨"lamp", "spawn", ["red"]⟩))]
    0 { name := "lamp", persistent := true } rfl (by simp)
  have noted : es ++ echo.trace = es := List.append_nil es
  refine ⟨es, m, trace, received, ?_, history, ?_⟩
  · rw [← noted, ← trace]
    rfl
  · rw [← noted, ← trace]
    rfl

end Session
end Chip8
