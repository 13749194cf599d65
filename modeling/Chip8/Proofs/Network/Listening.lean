import Chip8.Proofs.Envelope
import Chip8.Proofs.Network.Broadcast
import Chip8.Proofs.Network.Inbox

/-!
An inbox takes all data. Whatever calls are made, and whatever the handlers of other nodes call meanwhile, no handler of
an inbox is running when a message comes for it, so data that finds its name bound to the inbox is put in its queue and
answered with success. A name that is bound to the inbox leads to no other node before it was forgotten.
-/

namespace Chip8

open Event

/-- All data that was dispatched to a node was answered with success. -/
def Event.AllTaken (id : NodeId) (es : List Event) : Prop :=
  ∀ d answer, .dispatched (.data d) (some id) answer ∈ es → answer = .ok ()

section
variable {id : NodeId} {es later : List Event}

theorem allTaken_of_misses (h : ∀ e ∈ es, e.Misses id) : AllTaken id es :=
  fun d answer he => absurd rfl (h _ he (.data d) answer)

@[simp] theorem allTaken_append : AllTaken id (later ++ es) ↔ AllTaken id later ∧ AllTaken id es := by
  constructor
  · intro h
    exact ⟨fun d answer he => h d answer (List.mem_append_left _ he),
      fun d answer he => h d answer (List.mem_append_right _ he)⟩
  · rintro ⟨hl, he⟩ d answer member
    exact (List.mem_append.mp member).elim (hl d answer) (he d answer)

theorem misses_of_foreign {e : Event} (h : e.source ≠ .network) : e.Misses id := by
  rintro envelope answer rfl
  exact h rfl

end

/-- A call that sends data, whether it was built or read off the wire. -/
def Call.Sends (c : Call) (d : Data) : Prop :=
  c = .dispatch (.data d) ∨ ∃ text, c = .data text ∧ Data.parse text = .ok d

namespace Session
variable {s t : Session} {id : NodeId} {name : String} {queue : List String} {es : List Event}

/-! ### Data for an inbox -/

theorem allTaken_handlerNotes {running : List NodeId} {k : NodeId} {message : Message} {own calls : List Event}
    (hown : ∀ e ∈ own, e.source = .node) (h : AllTaken id calls) :
    AllTaken id (handlerNotes running k message own calls) := by
  intro d answer he
  rcases mem_handlerNotes.mp he with left | call | self | entered
  · cases left
  · exact h d answer call
  · exact absurd rfl (misses_of_source (hown _ self) (.data d) answer)
  · cases entered

/-- What an inbox is told with data, it answers with success. -/
theorem allTaken_tell {envelope : Envelope} {message : Message} (told : envelope.delivery = .tell message)
    {reply : Except NodeError Unit} (ended : (Node.respond (.inbox queue) message).handling = .ends reply) :
    AllTaken id (dispatchNotes envelope (some id) (reply.mapError (.node envelope.target))) := by
  cases envelope with
  | data d =>
    obtain rfl : Message.receive d.payload = message := by simpa [Envelope.delivery] using told
    obtain rfl := Handling.ends.inj ended
    simp [dispatchNotes, AllTaken]
  | command c =>
    intro d answer he
    unfold dispatchNotes at he
    split at he <;> simp at he

/-- In the course of a call an inbox takes all data that comes for it. -/
theorem Course.allTaken (h : Course s es t) (found : ∃ queue, s.network.nodes[id]? = some (.inbox queue))
    (idle : id ∉ s.network.running) : AllTaken id es := by
  induction h with
  | refl | hear => exact allTaken_of_misses (by simp)
  | ask | unbind | drop => exact allTaken_of_misses (by simp [Misses])
  | remark h =>
    refine allTaken_of_misses ?_
    rintro _ he envelope answer rfl
    obtain rfl := List.mem_singleton.mp he
    cases h
  | trans h₁ _ ih₁ ih₂ =>
    obtain ⟨queue, found'⟩ := found
    exact allTaken_append.mpr ⟨ih₂ ⟨_, h₁.inbox found'⟩ (h₁.running ▸ idle), ih₁ ⟨queue, found'⟩ idle⟩
  | @destroy s t name k node es bound free found' calls leaf ih =>
    obtain ⟨queue, found⟩ := found
    have called : AllTaken id es := by
      by_cases same : k = id
      · subst same
        obtain rfl := Option.some.inj (found'.symm.trans found)
        obtain ⟨rfl, -⟩ := leaf _ rfl
        exact allTaken_of_misses (by simp)
      · exact ih ⟨queue, found_begin found .destroy _ same⟩ (by simp [idle, Ne.symm same])
    have own : ∀ e ∈ (node.respond .destroy).notes, e.source = .node := fun _ => Node.source_of_mem_notes
    have handled : AllTaken id (handlerNotes s.network.running k .destroy (node.respond .destroy).notes _) :=
      allTaken_handlerNotes own called
    have first : AllTaken id [.unregistered name k] := allTaken_of_misses (by simp [Misses])
    have last : AllTaken id [.destroyed name k] := allTaken_of_misses (by simp [Misses])
    rw [← List.singleton_append]
    exact allTaken_append.mpr ⟨last, allTaken_append.mpr ⟨handled, first⟩⟩
  | lose => exact allTaken_of_misses (misses_dispatchNotes (by simp))
  | @refuse s envelope k message bound told busy =>
    have other : some k ≠ some id := by
      rintro ⟨⟩
      exact idle (mem_running busy)
    exact allTaken_of_misses (misses_dispatchNotes other)
  | @lifecycle s t envelope k es bound untold _ ih =>
    refine allTaken_append.mpr ⟨?_, ih found idle⟩
    simp [dispatchNotes, AllTaken]
  | @tell s t envelope k message node reply es bound told free found' calls leaf replied ih =>
    have own : ∀ e ∈ (node.respond message).notes, e.source = .node := fun _ => Node.source_of_mem_notes
    obtain ⟨queue, found⟩ := found
    by_cases same : k = id
    · subst same
      obtain rfl := Option.some.inj (found'.symm.trans found)
      obtain ⟨-, ⟨final, ended⟩, -⟩ := Node.respond_inbox queue message
      obtain ⟨rfl, -⟩ := leaf final ended
      obtain rfl := replied final ended
      exact allTaken_append.mpr ⟨allTaken_tell told ended, allTaken_handlerNotes own (allTaken_of_misses (by simp))⟩
    · have called := ih ⟨queue, found_begin found message _ same⟩ (by simp [idle, Ne.symm same])
      have other : some k ≠ some id := fun h => same (Option.some.inj h)
      exact allTaken_append.mpr
        ⟨allTaken_of_misses (misses_dispatchNotes other), allTaken_handlerNotes own called⟩

/-- Data for a name that is bound to an inbox is put in its queue. -/
theorem dispatchWith_inbox {d : Data} (bound : s.network.find? d.target = some id) (idle : id ∉ s.network.running)
    (found : s.network.nodes[id]? = some (.inbox queue)) (depth : Nat) :
    ∃ t, dispatchWith (enter (depth + 1)) (.data d) s = some (.ok (), t) ∧
      t.network.nodes[id]? = some (.inbox (queue ++ [d.payload])) ∧ t.network.bindings = s.network.bindings := by
  have free : s.network.isBusy id = false := by simpa [Network.isBusy] using idle
  let message := Message.receive d.payload
  let response := Node.respond (.inbox queue) message
  have entered : enter (depth + 1) id message s = some (.ok (), (s.begin id message response).finish id) := by
    unfold enter
    rw [found]
    rfl
  have bound : s.network.find? (Envelope.data d).target = some id := bound
  have delivered : deliverWith (enter (depth + 1)) (.data d) s =
      some (.ok (), (s.begin id message response).finish id) := by
    simp only [deliverWith, bound, Envelope.delivery, free, Bool.false_eq_true, if_false]
    rw [entered]
    rfl
  unfold dispatchWith
  rw [delivered]
  exact ⟨_, rfl, found_begin_self found message response, rfl⟩

/-- A call that sends data to a name that is bound to an inbox is answered with success, and the data is queued. -/
theorem perform_sends {c : Call} {d : Data} (sends : c.Sends d) (bound : s.network.find? d.target = some id)
    (idle : id ∉ s.network.running) (found : s.network.nodes[id]? = some (.inbox queue)) :
    ∃ t, s.perform c = (.done (.ok ()), t) ∧ t.network.nodes[id]? = some (.inbox (queue ++ [d.payload])) ∧
      t.network.bindings = s.network.bindings := by
  obtain ⟨t, dispatched, filled, bindings⟩ :=
    dispatchWith_inbox (s := s.note (.asked s.network.running c)) bound idle found 0
  have performed : performWith (enter 1) c s = some (.done (.ok ()), t) := by
    rcases sends with rfl | ⟨text, rfl, parsed⟩
    · rw [performWith, answerWith, dispatched]
      rfl
    · simp only [performWith, answerWith, parsed]
      rw [dispatched]
      rfl
  exact ⟨t, (eq_perform_of_performWith performed).symm, filled, bindings⟩

/-! ### Sessions in which an inbox listens to a name -/

/-- An inbox listens to a name: as long as the name is bound at all, it leads to the inbox, which has taken all data so
far that was dispatched to it. What was noted before is left out of account. -/
structure Listens (name : String) (id : NodeId) (before : List Event) (s : Session) : Prop where
  idle : id ∉ s.network.running
  inbox : ∃ queue, s.network.nodes[id]? = some (.inbox queue)
  only : ∀ k, s.network.find? name = some k → k = id
  taken : ∃ es, s.trace = es ++ before ∧ AllTaken id es

namespace Listens
variable {before : List Event}

theorem noting (h : Listens name id before s) {new : List Event} (network : t.network = s.network)
    (trace : t.trace = new ++ s.trace) (missed : ∀ e ∈ new, e.Misses id) : Listens name id before t := by
  obtain ⟨es, old, taken⟩ := h.taken
  refine ⟨network ▸ h.idle, network ▸ h.inbox, network ▸ h.only, new ++ es, ?_, ?_⟩
  · rw [trace, old, List.append_assoc]
  · exact allTaken_append.mpr ⟨allTaken_of_misses missed, taken⟩

theorem note (h : Listens name id before s) {e : Event} (missed : e.Misses id) : Listens name id before (s.note e) :=
  h.noting rfl (List.singleton_append ..).symm fun _ same => List.mem_singleton.mp same ▸ missed

theorem course (h : Listens name id before s) (course : Course s es t) : Listens name id before t := by
  obtain ⟨queue, found⟩ := h.inbox
  obtain ⟨old, trace, taken⟩ := h.taken
  refine ⟨course.running ▸ h.idle, ⟨_, course.inbox found⟩, ?_, es ++ old, ?_, ?_⟩
  · intro k bound
    exact h.only k (Network.find?_of_sublist course.bindings bound)
  · rw [course.trace, trace, List.append_assoc]
  · exact allTaken_append.mpr ⟨course.allTaken h.inbox h.idle, taken⟩

end Listens

theorem Changed.allTaken {c : Change} (h : Changed s c es t)
    (found : ∃ queue, s.network.nodes[id]? = some (.inbox queue)) (idle : id ∉ s.network.running) :
    AllTaken id es := by
  cases h with
  | made | unmade | untold | mail => exact allTaken_of_misses (by simp)
  | bound | taken => exact allTaken_of_misses (by simp [Misses])
  | called course => exact course.allTaken found idle
  | @told k message node reply es t free handled =>
    refine allTaken_handlerNotes (fun _ => Node.source_of_mem_notes) ?_
    obtain ⟨queue, found⟩ := found
    by_cases same : k = id
    · subst same
      obtain rfl := Option.some.inj (handled.found.symm.trans found)
      obtain ⟨-, ⟨final, ended⟩, -⟩ := Node.respond_inbox queue message
      obtain ⟨rfl, -⟩ := handled.leaf final ended
      exact allTaken_of_misses (by simp)
    · exact handled.calls.allTaken ⟨queue, found_begin found message _ same⟩ (by simp [idle, Ne.symm same])

/-- An inbox stays one, whatever is changed around it, and also when it is emptied from outside. -/
theorem Changed.inbox_stays {c : Change} (h : Changed s c es t) (found : s.network.nodes[id]? = some (.inbox queue)) :
    ∃ queue', t.network.nodes[id]? = some (.inbox queue') := by
  by_cases mail : c = .takeMail id
  · subst mail
    cases h
    obtain ⟨made, -⟩ := List.getElem?_eq_some_iff.mp found
    rcases queue with _ | ⟨payload, rest⟩
    · refine ⟨[], ?_⟩
      simp only [Network.takeMail, found]
    · refine ⟨rest, ?_⟩
      simp only [Network.takeMail, found]
      exact List.getElem?_set_self made
  · exact ⟨_, h.inbox mail found⟩

theorem Changed.only {c : Change} (h : Changed s c es t) (bound : s.network.find? name = some id) {k : NodeId}
    (bound' : t.network.find? name = some k) : k = id := by
  have old : t.network.find? name = s.network.find? name → k = id := by
    intro same
    rw [same, bound] at bound'
    exact (Option.some.inj bound').symm
  cases h with
  | made | unmade | taken | untold => exact old rfl
  | @bound other k' free made =>
    have apart : name ≠ other := by
      rintro rfl
      cases free.symm.trans bound
    exact old ((Network.find?_bind free made name).trans (if_neg apart))
  | called course => exact old ((Network.find?_of_sublist course.bindings bound').trans bound'.symm).symm
  | told _ handled => exact old ((Network.find?_of_sublist handled.calls.bindings bound').trans bound'.symm).symm
  | mail k =>
    refine old ?_
    simp only [Network.takeMail]
    split <;> rfl

theorem Listens.change {before : List Event} (h : Listens name id before s) (bound : s.network.find? name = some id)
    (c : Change) : Listens name id before (s.change c).2 := by
  obtain ⟨es, changed⟩ := change_changed s c
  obtain ⟨queue, found⟩ := h.inbox
  obtain ⟨old, trace, taken⟩ := h.taken
  refine ⟨changed.running ▸ h.idle, changed.inbox_stays found, fun k => changed.only bound, es ++ old, ?_, ?_⟩
  · rw [changed.trace, trace, List.append_assoc]
  · exact allTaken_append.mpr ⟨changed.allTaken h.inbox h.idle, taken⟩

/-! ### A new inbox -/

/-- The name of an inbox that was added leads to it. -/
theorem find?_addInbox (added : s.addInbox name = (.ok id, t)) : t.network.find? name = some id := by
  unfold addInbox register at added
  dsimp only at added
  split at added
  · next u registered =>
    cases added
    split at registered
    · next free =>
      split at registered
      · next made =>
        cases registered
        exact (Network.find?_bind free made name).trans (if_pos rfl)
      · cases registered
    · cases registered
  · cases added

theorem addInbox_of_taken (taken : s.network.find? name ≠ none) :
    s.addInbox name = (.error (.duplicateName name), s.note (.nameTaken name)) := by
  have refused := register_of_taken (s := { s with network := (s.network.add (.inbox [])).2 }) taken
    s.network.nodes.length
  unfold addInbox
  dsimp only
  split
  · next h => cases refused.symm.trans h
  · next h =>
    cases refused.symm.trans h
    rfl

end Session
end Chip8
