import Chip8.Network.Nesting

/-!
The course of a call: what a session goes through while a call is made of it, and the events that are
noted on the way, the latest first. Handlers make calls themselves, so courses lie inside courses; how
deep they may nest plays no part. Every call that comes to an end has a course.
-/

namespace Chip8

/-- An event that only comments on a call: no binding and no handler is concerned. -/
def Event.isRemark : Event → Bool
  | commandMalformed _ | dataMalformed _ | skippedByReset _ | resetBroadcast _ => true
  | _ => false

@[simp] theorem mapError_ok {ε ε' α : Type} (f : ε → ε') (a : α) :
    (Except.ok a : Except ε α).mapError f = .ok a := rfl

@[simp] theorem mapError_error {ε ε' α : Type} (f : ε → ε') (cause : ε) :
    (Except.error cause : Except ε α).mapError f = .error (f cause) := rfl

namespace Session

/-- The events of a handler: its begin, what the node itself notes, those of its calls, and its end. -/
def handlerNotes (running : List NodeId) (id : NodeId) (message : Message) (own calls : List Event) :
    List Event :=
  .left id :: (calls ++ (own.reverse ++ [.entered (id :: running) message]))

theorem mem_handlerNotes {running : List NodeId} {id : NodeId} {message : Message} {own calls : List Event}
    {e : Event} : e ∈ handlerNotes running id message own calls ↔
      e = .left id ∨ e ∈ calls ∨ e ∈ own ∨ e = .entered (id :: running) message := by
  simp [handlerNotes]

/-- The session with events noted, the latest first. -/
def noting (s : Session) (events : List Event) : Session := { s with trace := events ++ s.trace }

section
variable (s : Session) (e : Event) (events : List Event) (name : String) (id : NodeId) (o : Outcome)
  (message : Message) (response : Node.Response)

@[simp] theorem network_note : (s.note e).network = s.network := rfl
@[simp] theorem trace_note : (s.note e).trace = e :: s.trace := rfl
@[simp] theorem network_noting : (s.noting events).network = s.network := rfl
@[simp] theorem trace_noting : (s.noting events).trace = events ++ s.trace := rfl
@[simp] theorem network_unbind : (s.unbind name id).network = s.network.unbind name := rfl
@[simp] theorem trace_unbind : (s.unbind name id).trace = .unregistered name id :: s.trace := rfl
@[simp] theorem nodes_unbind (net : Network) : (net.unbind name).nodes = net.nodes := rfl
@[simp] theorem running_unbind (net : Network) : (net.unbind name).running = net.running := rfl
@[simp] theorem nodes_begin :
    (s.begin id message response).network.nodes = s.network.nodes.set id response.node := rfl
@[simp] theorem bindings_begin : (s.begin id message response).network.bindings = s.network.bindings := rfl
@[simp] theorem running_begin :
    (s.begin id message response).network.running = id :: s.network.running := rfl
@[simp] theorem trace_begin : (s.begin id message response).trace =
    response.notes.reverse ++ .entered (id :: s.network.running) message :: s.trace := rfl
@[simp] theorem nodes_finish : (s.finish id).network.nodes = s.network.nodes := rfl
@[simp] theorem bindings_finish : (s.finish id).network.bindings = s.network.bindings := rfl
@[simp] theorem running_finish : (s.finish id).network.running = s.network.running.erase id := rfl
@[simp] theorem trace_finish : (s.finish id).trace = .left id :: s.trace := rfl

@[simp] theorem trace_hear : (s.hear id o).trace = s.trace := by unfold hear; split <;> rfl

@[simp] theorem running_hear : (s.hear id o).network.running = s.network.running := by
  unfold hear; split <;> rfl

@[simp] theorem bindings_hear : (s.hear id o).network.bindings = s.network.bindings := by
  unfold hear; split <;> rfl

theorem nodes_hear (k : NodeId) : (s.hear id o).network.nodes[k]? =
    if k = id then s.network.nodes[k]?.map (Node.hear o) else s.network.nodes[k]? := by
  unfold hear
  split
  · next node found =>
    simp only [Network.replace, List.getElem?_set]
    by_cases h : id = k
    · subst h
      obtain ⟨made, rfl⟩ := List.getElem?_eq_some_iff.mp found
      simp [made]
    · simp [h, Ne.symm h]
  · next missing =>
    by_cases h : k = id
    · subst h
      simp [missing]
    · simp [h]

end

inductive Course : Session → List Event → Session → Prop
  | refl (s : Session) : Course s [] s
  | trans {s t u : Session} {es fs : List Event} : Course s es t → Course t fs u → Course s (fs ++ es) u
  | ask (s : Session) (c : Call) :
      Course s [.asked s.network.running c] (s.note (.asked s.network.running c))
  | remark {s : Session} {e : Event} (h : e.isRemark = true) : Course s [e] (s.note e)
  | hear (s : Session) (id : NodeId) (o : Outcome) : Course s [] (s.hear id o)
  | unbind {s : Session} {name : String} {id : NodeId} (bound : s.network.find? name = some id) :
      Course s [.unregistered name id] (s.unbind name id)
  /-- A node that is busy is destroyed without a last call. -/
  | drop {s : Session} {name : String} {id : NodeId} (bound : s.network.find? name = some id)
      (busy : s.network.isBusy id = true) :
      Course s [.destroyed name id, .droppedBusy name id, .unregistered name id]
        (((s.unbind name id).note (.droppedBusy name id)).note (.destroyed name id))
  /-- An idle node is destroyed with a last call, after the name is gone. -/
  | destroy {s t : Session} {name : String} {id : NodeId} {node : Node} {es : List Event}
      (bound : s.network.find? name = some id) (idle : s.network.isBusy id = false)
      (found : s.network.nodes[id]? = some node)
      (calls : Course ((s.unbind name id).begin id .destroy (node.respond .destroy)) es t)
      (leaf : ∀ final, (node.respond .destroy).handling = .ends final →
        es = [] ∧ t = (s.unbind name id).begin id .destroy (node.respond .destroy)) :
      Course s
        (.destroyed name id :: (handlerNotes s.network.running id .destroy (node.respond .destroy).notes es ++
          [.unregistered name id]))
        ((t.finish id).note (.destroyed name id))
  /-- An envelope for a name that is not bound. -/
  | lose {s : Session} {envelope : Envelope} (free : s.network.find? envelope.target = none) :
      Course s (dispatchNotes envelope none (.error (.targetNotFound envelope.target)))
        (s.noting (dispatchNotes envelope none (.error (.targetNotFound envelope.target))))
  /-- An envelope for a node that is busy. -/
  | refuse {s : Session} {envelope : Envelope} {id : NodeId} {message : Message}
      (bound : s.network.find? envelope.target = some id) (told : envelope.delivery = .tell message)
      (busy : s.network.isBusy id = true) :
      Course s (dispatchNotes envelope (some id) (.error (.nodeBusy envelope.target)))
        (s.noting (dispatchNotes envelope (some id) (.error (.nodeBusy envelope.target))))
  /-- An envelope with one of the two lifecycle verbs. -/
  | lifecycle {s t : Session} {envelope : Envelope} {id : NodeId} {es : List Event}
      (bound : s.network.find? envelope.target = some id)
      (untold : ∀ message, envelope.delivery ≠ .tell message) (h : Course s es t) :
      Course s (dispatchNotes envelope (some id) (.ok ()) ++ es)
        (t.noting (dispatchNotes envelope (some id) (.ok ())))
  /-- An envelope for a node that is idle. -/
  | tell {s t : Session} {envelope : Envelope} {id : NodeId} {message : Message} {node : Node}
      {reply : Except NodeError Unit} {es : List Event} (bound : s.network.find? envelope.target = some id)
      (told : envelope.delivery = .tell message) (idle : s.network.isBusy id = false)
      (found : s.network.nodes[id]? = some node)
      (calls : Course (s.begin id message (node.respond message)) es t)
      (leaf : ∀ final, (node.respond message).handling = .ends final →
        es = [] ∧ t = s.begin id message (node.respond message))
      (replied : ∀ final, (node.respond message).handling = .ends final → reply = final) :
      Course s
        (dispatchNotes envelope (some id) (reply.mapError (.node envelope.target)) ++
          handlerNotes s.network.running id message (node.respond message).notes es)
        ((t.finish id).noting (dispatchNotes envelope (some id) (reply.mapError (.node envelope.target))))

namespace Course
variable {s t : Session} {es : List Event}

/-- The events of a course are what is noted in it. -/
theorem trace (h : Course s es t) : t.trace = es ++ s.trace := by
  induction h with
  | refl | ask | remark | unbind | drop | lose | refuse => rfl
  | hear s id o => simp
  | trans _ _ ih₁ ih₂ => simp [ih₁, ih₂]
  | destroy _ _ _ _ _ ih => simp [handlerNotes, ih]
  | lifecycle _ _ _ ih => simp [ih]
  | tell _ _ _ _ _ _ _ ih => simp [handlerNotes, ih]

/-- The handlers that ran before a course run after it, and no others. -/
theorem running (h : Course s es t) : t.network.running = s.network.running := by
  induction h with
  | refl | ask | remark | unbind | drop | lose | refuse => rfl
  | hear s id o => simp
  | trans _ _ ih₁ ih₂ => rw [ih₂, ih₁]
  | destroy _ _ _ _ _ ih => simp [ih]
  | lifecycle _ _ _ ih => simpa using ih
  | tell _ _ _ _ _ _ _ ih => simp [ih]

/-- A course binds no name. -/
theorem bindings (h : Course s es t) : t.network.bindings.Sublist s.network.bindings := by
  induction h with
  | refl | ask | remark | lose | refuse => exact .refl _
  | unbind | drop => exact List.filter_sublist
  | hear s id o => simp
  | trans _ _ ih₁ ih₂ => exact ih₂.trans ih₁
  | destroy _ _ _ _ _ ih => exact ih.trans List.filter_sublist
  | lifecycle _ _ _ ih => exact ih
  | tell _ _ _ _ _ _ _ ih => exact ih

end Course

/-- What running a handler comes to: the node answers out of its state, and its calls take their course. -/
structure Handled (id : NodeId) (message : Message) (s : Session) (node : Node) (reply : Except NodeError Unit)
    (es : List Event) (t : Session) : Prop where
  found : s.network.nodes[id]? = some node
  calls : Course (s.begin id message (node.respond message)) es t
  leaf : ∀ final, (node.respond message).handling = .ends final →
    es = [] ∧ t = s.begin id message (node.respond message)
  replied : ∀ final, (node.respond message).handling = .ends final → reply = final

/-- A way of running handlers under which each takes its course. -/
def Runs (run : Enter) : Prop :=
  ∀ id message s r, run id message s = some r →
    ∃ node reply es t, Handled id message s node reply es t ∧ r = (reply, t.finish id)

/-! ### The course of each call -/

/-- The ways in which a call is answered. -/
inductive Answered (run : Enter) (s : Session) : Outcome × Session → Prop
  | dispatched {envelope : Envelope} {answer : Except RouteError Unit} {t : Session}
      (h : dispatchWith run envelope s = some (answer, t)) : Answered run s (.done answer, t)
  | malformed (cause : CodecError) {e : Event} (remark : e.isRemark = true) :
      Answered run s (.done (.error (.codec cause)), s.note e)
  | destroyed {name : String} {answer : Except RouteError Unit} {t : Session}
      (h : destroyWith run name s = some (answer, t)) : Answered run s (.done answer, t)
  | unbound {name : String} {id : NodeId} (bound : s.network.find? name = some id) :
      Answered run s (.flag true, s.unbind name id)
  | reset {count : Nat} {t : Session} (h : broadcastResetWith run s = some (count, t)) :
      Answered run s (.count count, t)
  | flag (value : Bool) : Answered run s (.flag value, s)
  | count (value : Nat) : Answered run s (.count value, s)

theorem answered_of_answerWith {run : Enter} {c : Call} {s : Session} {r : Outcome × Session}
    (h : answerWith run c s = some r) : Answered run s r := by
  have dispatched : ∀ {envelope}, ((dispatchWith run envelope s).map fun r =>
      (Outcome.done r.1, r.2)) = some r → Answered run s r := by
    intro envelope h
    obtain ⟨r', hr, rfl⟩ := Option.map_eq_some_iff.mp h
    exact .dispatched hr
  cases c with
  | dispatch envelope => exact dispatched h
  | command text =>
    simp only [answerWith] at h
    split at h
    · cases h
      exact .malformed _ rfl
    · exact dispatched h
  | data text =>
    simp only [answerWith] at h
    split at h
    · cases h
      exact .malformed _ rfl
    · exact dispatched h
  | destroy name =>
    obtain ⟨r', hr, rfl⟩ := Option.map_eq_some_iff.mp h
    exact .destroyed hr
  | unregister name =>
    simp only [answerWith] at h
    split at h
    · next id bound =>
      cases h
      exact .unbound bound
    · cases h
      exact .flag false
  | broadcastReset =>
    obtain ⟨r', hr, rfl⟩ := Option.map_eq_some_iff.mp h
    exact .reset hr
  | contains name =>
    cases h
    exact .flag _
  | size =>
    cases h
    exact .count _

section
variable {run : Enter} (runs : Runs run)
include runs

theorem destroyWith_course {name : String} {s : Session} {r : Except RouteError Unit × Session}
    (h : destroyWith run name s = some r) : ∃ es, Course s es r.2 := by
  unfold destroyWith at h
  split at h
  · cases h
    exact ⟨_, .refl s⟩
  · next id bound =>
    split at h
    · next busy =>
      cases h
      exact ⟨_, .drop bound busy⟩
    · next idle =>
      obtain ⟨r', hr, rfl⟩ := Option.map_eq_some_iff.mp h
      obtain ⟨node, reply, es, t, handled, rfl⟩ := runs _ _ _ _ hr
      exact ⟨_, .destroy bound (by simpa using idle) handled.found handled.calls handled.leaf⟩

theorem dispatchWith_course {envelope : Envelope} {s : Session} {r : Except RouteError Unit × Session}
    (h : dispatchWith run envelope s = some r) : ∃ es, Course s es r.2 := by
  unfold dispatchWith at h
  obtain ⟨⟨answer, after⟩, hd, rfl⟩ := Option.map_eq_some_iff.mp h
  unfold deliverWith at hd
  split at hd
  · next free =>
    cases hd
    rw [free]
    exact ⟨_, .lose free⟩
  · next id bound =>
    rw [bound]
    split at hd
    · next unregister =>
      cases hd
      exact ⟨_, .lifecycle bound (by simp [unregister]) (.unbind bound)⟩
    · next destroy =>
      obtain ⟨es, course⟩ := destroyWith_course runs hd
      -- The name is bound, so that destroying it answers that it is done.
      have answered : answer = .ok () := by
        unfold destroyWith at hd
        rw [bound] at hd
        dsimp only at hd
        split at hd
        · cases hd
          rfl
        · obtain ⟨_, -, heq⟩ := Option.map_eq_some_iff.mp hd
          cases heq
          rfl
      subst answered
      exact ⟨_, .lifecycle bound (by simp [destroy]) course⟩
    · next message told =>
      split at hd
      · next busy =>
        cases hd
        exact ⟨_, .refuse bound told busy⟩
      · next idle =>
        obtain ⟨r', hr, heq⟩ := Option.map_eq_some_iff.mp hd
        obtain ⟨node, reply, es, t, handled, rfl⟩ := runs _ _ _ _ hr
        cases heq
        exact ⟨_, .tell bound told (by simpa using idle) handled.found handled.calls handled.leaf handled.replied⟩

theorem destroyAllWith_course {names : List String} {s t : Session}
    (h : destroyAllWith run names s = some t) : ∃ es, Course s es t := by
  induction names generalizing s with
  | nil =>
    obtain rfl := Option.some.inj h
    exact ⟨_, .refl s⟩
  | cons name rest ih =>
    obtain ⟨r, hr, ht⟩ := Option.bind_eq_some_iff.mp h
    obtain ⟨es, first⟩ := destroyWith_course runs hr
    obtain ⟨fs, later⟩ := ih ht
    exact ⟨_, first.trans later⟩

omit runs in
theorem course_remarks {events : List Event} (h : ∀ e ∈ events, e.isRemark = true) (s : Session) :
    ∃ es, Course s es (s.noteAll events) := by
  induction events generalizing s with
  | nil => exact ⟨_, .refl s⟩
  | cons e rest ih =>
    obtain ⟨es, later⟩ := ih (fun e he => h e (List.mem_cons_of_mem _ he)) (s.note e)
    have first : Course s [e] (s.note e) := .remark (h e List.mem_cons_self)
    exact ⟨_, by simpa [noteAll, note] using first.trans later⟩

theorem broadcastResetWith_course {s : Session} {r : Nat × Session}
    (h : broadcastResetWith run s = some r) : ∃ es, Course s es r.2 := by
  obtain ⟨t, ht, rfl⟩ := Option.map_eq_some_iff.mp h
  have remarks : ∀ e ∈ s.busyNames.map Event.skippedByReset, e.isRemark = true := by simp [Event.isRemark]
  obtain ⟨es, skipped⟩ := course_remarks remarks s
  obtain ⟨fs, destroyed⟩ := destroyAllWith_course runs ht
  exact ⟨_, (skipped.trans destroyed).trans (.remark rfl)⟩

theorem answerWith_course {c : Call} {s : Session} {r : Outcome × Session}
    (h : answerWith run c s = some r) : ∃ es, Course s es r.2 := by
  cases answered_of_answerWith h with
  | dispatched hd => exact dispatchWith_course runs hd
  | malformed cause remark => exact ⟨_, .remark remark⟩
  | destroyed hd => exact destroyWith_course runs hd
  | unbound bound => exact ⟨_, .unbind bound⟩
  | reset hb => exact broadcastResetWith_course runs hb
  | flag | count => exact ⟨_, .refl s⟩

theorem performWith_course {c : Call} {s : Session} {r : Outcome × Session}
    (h : performWith run c s = some r) : ∃ es, Course s es r.2 := by
  obtain ⟨es, course⟩ := answerWith_course runs h
  exact ⟨_, (Course.ask s c).trans course⟩

theorem handleWith_course {id : NodeId} {handling : Handling (Except NodeError Unit)} {s : Session}
    {r : Except NodeError Unit × Session} (h : handleWith run id handling s = some r) : ∃ es, Course s es r.2 := by
  induction handling generalizing s with
  | ends reply =>
    obtain rfl := Option.some.inj h
    exact ⟨_, .refl s⟩
  | asks c next ih =>
    obtain ⟨⟨o, t⟩, ht, hr⟩ := Option.bind_eq_some_iff.mp h
    obtain ⟨es, made⟩ := performWith_course runs ht
    obtain ⟨fs, later⟩ := ih o hr
    exact ⟨_, (made.trans (.hear t id o)).trans later⟩

end

theorem runs_enter (depth : Nat) : Runs (enter depth) := by
  induction depth with
  | zero =>
    intro id message s r h
    cases h
  | succ depth ih =>
    intro id message s r h
    simp only [enter] at h
    split at h
    · cases h
    · next node found =>
      obtain ⟨⟨reply, t⟩, ht, rfl⟩ := Option.map_eq_some_iff.mp h
      cases handling : (node.respond message).handling with
      | ends final =>
        rw [handling] at ht
        cases ht
        refine ⟨node, reply, _, _, ⟨found, .refl _, fun _ _ => ⟨rfl, rfl⟩, fun other ended => ?_⟩, rfl⟩
        exact Handling.ends.inj (handling.symm.trans ended)
      | asks c next =>
        obtain ⟨es, course⟩ := handleWith_course ih ht
        refine ⟨node, reply, es, t, ⟨found, course, fun _ ended => ?_, fun _ ended => ?_⟩, rfl⟩
        · cases handling.symm.trans ended
        · cases handling.symm.trans ended

/-- Every call that ends took its course. -/
theorem course_of_performWith {depth : Nat} {c : Call} {s : Session} {r : Outcome × Session}
    (h : performWith (enter depth) c s = some r) : ∃ es, Course s es r.2 :=
  performWith_course (runs_enter depth) h

end Session
end Chip8
