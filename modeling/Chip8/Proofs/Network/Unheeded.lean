import Chip8.Network.Change
import Chip8.Proofs.Network.Termination

/-!
The nodes do not read the notes about runs of frames that have ended. Two sessions with the same network, of which one
has more of these notes than the other, go on alike, unless the order of the names depends on them.
-/

namespace Chip8

/-- Whether an event is the note that a run of frames has ended. -/
def Event.isEnd : Event → Bool
  | stopped .. => true
  | _ => false

def withoutEnds (events : List Event) : List Event := events.filter fun e => !e.isEnd

theorem withoutEnds_append (events later : List Event) :
    withoutEnds (events ++ later) = withoutEnds events ++ withoutEnds later := List.filter_append ..

/-- The order in which the names are gone through has nothing to do with the runs of frames that have ended: the table of
the names is changed by the network alone, and is told nothing about the machine. -/
def Network.Unheeding (net : Network) : Prop :=
  ∀ events bindings, net.order (withoutEnds events) bindings = net.order events bindings

section
variable {α β γ ε : Type} {R : α → β → Prop}

theorem rel_map_of_rel {S : γ → ε → Prop} {f : α → γ} {g : β → ε} {a : Option α} {b : Option β} (h : Option.Rel R a b)
    (hf : ∀ x y, R x y → S (f x) (g y)) : Option.Rel S (a.map f) (b.map g) := by
  cases h with
  | none => exact .none
  | some h => exact .some (hf _ _ h)

theorem rel_bind_of_rel {S : γ → ε → Prop} {f : α → Option γ} {g : β → Option ε} {a : Option α} {b : Option β}
    (h : Option.Rel R a b) (hf : ∀ x y, R x y → Option.Rel S (f x) (g y)) : Option.Rel S (a >>= f) (b >>= g) := by
  cases h with
  | none => exact .none
  | some h => exact hf _ _ h

end

namespace Session
variable {α : Type} {s t : Session} {run : Enter}

/-- Two sessions with the same network, in which the same was noted but for the ends of runs. -/
structure Like (s t : Session) : Prop where
  network : t.network = s.network
  trace : withoutEnds t.trace = withoutEnds s.trace
  unheeding : s.network.Unheeding

/-- The same answer in sessions that are alike. -/
structure Agree (a b : α × Session) : Prop where
  answer : b.1 = a.1
  like : a.2.Like b.2

namespace Like

theorem refl (unheeding : s.network.Unheeding) : s.Like s := ⟨rfl, rfl, unheeding⟩

/-- What becomes of the sessions if they get the same network, and the same is noted in both. -/
theorem become (h : s.Like t) (net : Network) (unheeding : net.Unheeding) (events : List Event) :
    Like ⟨net, events ++ s.trace⟩ ⟨net, events ++ t.trace⟩ :=
  ⟨rfl, by rw [withoutEnds_append, withoutEnds_append, h.trace], unheeding⟩

/-- A note that a run has ended makes no difference. -/
theorem ended (h : s.Like t) {e : Event} (isEnd : e.isEnd = true) : s.Like (t.note e) :=
  ⟨h.network, by simpa [Session.note, withoutEnds, isEnd] using h.trace, h.unheeding⟩

theorem symm (h : s.Like t) : t.Like s := ⟨h.network.symm, h.trace.symm, by rw [h.network]; exact h.unheeding⟩

theorem note (h : s.Like t) (e : Event) : (s.note e).Like (t.note e) := by
  unfold Session.note
  rw [h.network]
  exact h.become _ h.unheeding [e]

theorem noteAll (h : s.Like t) (events : List Event) : (s.noteAll events).Like (t.noteAll events) := by
  unfold Session.noteAll
  rw [h.network]
  exact h.become _ h.unheeding _

theorem sweep (h : s.Like t) : t.sweep = s.sweep := by
  unfold Session.sweep
  rw [h.network, ← h.unheeding t.trace, h.trace, h.unheeding]

theorem goingNames (h : s.Like t) : t.goingNames = s.goingNames := by
  unfold Session.goingNames
  rw [h.sweep, h.network]

theorem busyNames (h : s.Like t) : t.busyNames = s.busyNames := by
  unfold Session.busyNames
  rw [h.sweep, h.network]

theorem unbind (h : s.Like t) (name : String) (id : NodeId) : (s.unbind name id).Like (t.unbind name id) := by
  unfold Session.unbind
  rw [h.network]
  exact h.become (s.network.unbind name) h.unheeding [.unregistered name id]

theorem begin (h : s.Like t) (id : NodeId) (message : Message) (response : Node.Response) :
    (s.begin id message response).Like (t.begin id message response) := by
  unfold Session.begin
  rw [h.network]
  refine Like.noteAll (Like.note ?_ _) _
  exact ⟨rfl, h.trace, h.unheeding⟩

theorem finish (h : s.Like t) (id : NodeId) : (s.finish id).Like (t.finish id) := by
  unfold Session.finish
  rw [h.network]
  refine Like.note ?_ _
  exact ⟨rfl, h.trace, h.unheeding⟩

theorem hear (h : s.Like t) (id : NodeId) (o : Outcome) : (s.hear id o).Like (t.hear id o) := by
  unfold Session.hear
  rw [h.network]
  split
  · exact ⟨rfl, h.trace, h.unheeding⟩
  · exact h

end Like

/-! ### Calls -/

/-- Handlers that are run in sessions that are alike give the same answer, and leave sessions that are alike. -/
def Heedless (run : Enter) : Prop :=
  ∀ id message s t, s.Like t → Option.Rel Agree (run id message s) (run id message t)

section
variable (runs : Heedless run)
include runs

theorem destroyWith_like (name : String) (h : s.Like t) :
    Option.Rel Agree (destroyWith run name s) (destroyWith run name t) := by
  unfold destroyWith
  rw [h.network]
  rcases s.network.find? name with _ | id
  · exact .some ⟨rfl, h⟩
  · dsimp only
    split
    · exact .some ⟨rfl, ((h.unbind name id).note _).note _⟩
    · exact rel_map_of_rel (runs id .destroy _ _ (h.unbind name id)) fun _ _ agree => ⟨rfl, agree.like.note _⟩

theorem deliverWith_like (envelope : Envelope) (h : s.Like t) :
    Option.Rel Agree (deliverWith run envelope s) (deliverWith run envelope t) := by
  unfold deliverWith
  rw [h.network]
  rcases s.network.find? envelope.target with _ | id
  · exact .some ⟨rfl, h⟩
  rcases envelope.delivery with _ | _ | message
  · exact .some ⟨rfl, h.unbind envelope.target id⟩
  · exact destroyWith_like runs envelope.target h
  · dsimp only
    split
    · exact .some ⟨rfl, h⟩
    · exact rel_map_of_rel (runs id message _ _ h) fun _ _ agree => ⟨by rw [agree.answer], agree.like⟩

theorem dispatchWith_like (envelope : Envelope) (h : s.Like t) :
    Option.Rel Agree (dispatchWith run envelope s) (dispatchWith run envelope t) := by
  unfold dispatchWith
  rw [h.network]
  refine rel_map_of_rel (deliverWith_like runs envelope h) fun a b agree => ⟨agree.answer, ?_⟩
  dsimp only
  rw [agree.answer, agree.like.network]
  exact agree.like.become _ agree.like.unheeding _

theorem destroyAllWith_like (names : List String) (h : s.Like t) :
    Option.Rel Like (destroyAllWith run names s) (destroyAllWith run names t) := by
  induction names generalizing s t with
  | nil => exact .some h
  | cons name rest ih => exact rel_bind_of_rel (destroyWith_like runs name h) fun _ _ agree => ih agree.like

theorem broadcastResetWith_like (h : s.Like t) :
    Option.Rel Agree (broadcastResetWith run s) (broadcastResetWith run t) := by
  unfold broadcastResetWith
  rw [h.goingNames, h.busyNames]
  exact rel_map_of_rel (destroyAllWith_like runs _ (h.noteAll _)) fun _ _ like => ⟨rfl, like.note _⟩

theorem answerWith_like (c : Call) (h : s.Like t) : Option.Rel Agree (answerWith run c s) (answerWith run c t) := by
  have dispatched : ∀ envelope, Option.Rel Agree ((dispatchWith run envelope s).map fun r => (Outcome.done r.1, r.2))
      ((dispatchWith run envelope t).map fun r => (Outcome.done r.1, r.2)) := fun envelope =>
    rel_map_of_rel (dispatchWith_like runs envelope h) fun _ _ agree => ⟨congrArg Outcome.done agree.answer, agree.like⟩
  cases c with
  | dispatch envelope => exact dispatched envelope
  | command text =>
    unfold answerWith
    dsimp only
    split
    · exact .some ⟨rfl, h.note _⟩
    · exact dispatched _
  | data text =>
    unfold answerWith
    dsimp only
    split
    · exact .some ⟨rfl, h.note _⟩
    · exact dispatched _
  | destroy name =>
    exact rel_map_of_rel (destroyWith_like runs name h) fun _ _ agree => ⟨congrArg Outcome.done agree.answer, agree.like⟩
  | unregister name =>
    unfold answerWith
    dsimp only
    rw [h.network]
    split
    · exact .some ⟨rfl, h.unbind _ _⟩
    · exact .some ⟨rfl, h⟩
  | broadcastReset =>
    exact rel_map_of_rel (broadcastResetWith_like runs h) fun _ _ agree =>
      ⟨congrArg Outcome.count agree.answer, agree.like⟩
  | contains name => exact .some ⟨by rw [h.network], h⟩
  | size => exact .some ⟨by rw [h.network], h⟩

theorem performWith_like (c : Call) (h : s.Like t) : Option.Rel Agree (performWith run c s) (performWith run c t) := by
  unfold performWith
  rw [h.network]
  exact answerWith_like runs c (h.note _)

theorem handleWith_like (id : NodeId) (handling : Handling (Except NodeError Unit)) (h : s.Like t) :
    Option.Rel Agree (handleWith run id handling s) (handleWith run id handling t) := by
  induction handling generalizing s t with
  | ends reply => exact .some ⟨rfl, h⟩
  | asks c next ih =>
    refine rel_bind_of_rel (performWith_like runs c h) ?_
    rintro ⟨o, _⟩ ⟨_, _⟩ ⟨rfl, like⟩
    exact ih _ (like.hear id _)

end

theorem heedless_enter (depth : Nat) : Heedless (enter depth) := by
  induction depth with
  | zero => exact fun _ _ _ _ _ => .none
  | succ depth ih =>
    intro id message s t h
    unfold enter
    rw [h.network]
    rcases s.network.nodes[id]? with _ | node
    · exact .none
    · exact rel_map_of_rel (handleWith_like ih id _ (h.begin id message _)) fun _ _ agree =>
        ⟨agree.answer, agree.like.finish id⟩

theorem perform_like (c : Call) (h : s.Like t) : Agree (s.perform c) (t.perform c) := by
  have performed := performWith_like (heedless_enter s.network.idle) c h
  rw [performWith_idle, ← h.network, performWith_idle] at performed
  cases performed with
  | some agree => exact agree

/-! ### Other changes -/

theorem register_like (name : String) (id : NodeId) (h : s.Like t) : Agree (s.register name id) (t.register name id) := by
  obtain ⟨network, events⟩ := s
  obtain ⟨network', events'⟩ := t
  obtain rfl : network' = network := h.network
  unfold register
  dsimp only
  split
  · next free =>
    split
    · next made => exact ⟨rfl, h.become (network'.bind name id free made) h.unheeding [_]⟩
    · exact ⟨rfl, h⟩
  · exact ⟨rfl, h.note _⟩

theorem addInbox_like (name : String) (h : s.Like t) : Agree (s.addInbox name) (t.addInbox name) := by
  obtain ⟨network, events⟩ := s
  obtain ⟨network', events'⟩ := t
  obtain rfl : network' = network := h.network
  have registered := register_like name network'.nodes.length
    (h.become (network'.add (.inbox [])).2 h.unheeding [])
  unfold addInbox
  dsimp only [Network.add, List.nil_append] at registered ⊢
  generalize register ⟨_, events⟩ name _ = first, register ⟨_, events'⟩ name _ = second at registered ⊢
  obtain ⟨answer, u⟩ := first
  obtain ⟨answer', u'⟩ := second
  obtain ⟨rfl, like⟩ := registered
  rcases answer' with cause | _
  · exact ⟨rfl, rfl, like.trace, h.unheeding⟩
  · exact ⟨rfl, like⟩

theorem takeMail_like (id : NodeId) (h : s.Like t) : Agree (s.takeMail id) (t.takeMail id) := by
  have unheeding : (s.network.takeMail id).2.Unheeding := by
    unfold Network.takeMail
    split <;> exact h.unheeding
  unfold takeMail
  rw [h.network]
  exact ⟨rfl, rfl, h.trace, unheeding⟩

theorem takeMail?_like (id : NodeId) (h : s.Like t) : Agree (s.takeMail? id) (t.takeMail? id) := by
  have taken := takeMail_like id h
  unfold takeMail?
  rw [h.network]
  split
  · exact ⟨rfl, h⟩
  · exact ⟨congrArg some taken.answer, taken.like⟩

theorem change_like (c : Change) (h : s.Like t) : Agree (s.change c) (t.change c) := by
  cases c with
  | make node =>
    unfold change
    rw [h.network]
    exact ⟨rfl, rfl, h.trace, h.unheeding⟩
  | register name id =>
    have registered := register_like name id h
    exact ⟨congrArg Reply.registered registered.answer, registered.like⟩
  | call c =>
    have performed := perform_like c h
    exact ⟨congrArg Reply.outcome performed.answer, performed.like⟩
  | tell id message =>
    have told : Option.Rel Agree (s.tell? id message) (t.tell? id message) := by
      unfold tell?
      rw [h.network]
      split
      · exact .none
      · exact heedless_enter _ id message s t h
    unfold change
    dsimp only
    generalize s.tell? id message = first, t.tell? id message = second at told ⊢
    cases told with
    | none => exact ⟨rfl, h⟩
    | some agree => exact ⟨congrArg Reply.told agree.answer, agree.like⟩
  | takeMail id =>
    have taken := takeMail_like id h
    exact ⟨congrArg Reply.mail taken.answer, taken.like⟩

end Session
end Chip8
