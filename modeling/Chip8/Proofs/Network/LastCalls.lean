import Chip8.Proofs.Network.Broadcast
import Chip8.Proofs.Network.Delivery

/-!
Last calls. Of each node that is destroyed the name goes first; then, unless one of its handlers is running,
its last call is made, once, and it is told nothing else until that is over. No node is told otherwise that it
is destroyed. So a log is marked as destroyed just when a name of it was.
-/

namespace Chip8

namespace Event

/-- The bindings after an event. -/
def rebind : Event → List (String × NodeId) → List (String × NodeId)
  | registered name id, bindings => bindings ++ [(name, id)]
  | unregistered name _, bindings => bindings.filter fun b => b.1 != name
  | _, bindings => bindings

/-- The bindings after some events, the latest event first. -/
def bindingsAfter (before : List (String × NodeId)) (events : List Event) : List (String × NodeId) :=
  events.foldr rebind before

/-- The message that a node begins to handle. -/
def tells? (id : NodeId) : Event → Option Message
  | entered (k :: _) message => if k = id then some message else none
  | _ => none

/-- Whether an event leaves the bindings alone, and neither destroys a node nor tells one that it is. -/
def isPlain : Event → Bool
  | registered .. | unregistered .. | destroyed .. | entered _ .destroy => false
  | _ => true

/-- What is noted while a node is destroyed, between the loss of its name and the end, the latest event first.
`running` are the nodes whose handlers run when the name goes. -/
inductive Farewell (running : List NodeId) (name : String) (id : NodeId) : List Event → Prop
  | dropped (busy : id ∈ running) : Farewell running name id [.droppedBusy name id]
  | told {inner : List Event} (idle : id ∉ running) (once : ∀ e ∈ inner, e.tells? id = none) :
      Farewell running name id (.left id :: (inner ++ [.entered (id :: running) .destroy]))

/-- Names are lost and nodes destroyed in due form, from a moment on at which these handlers run and these
bindings exist. -/
structure LastCalls (running : List NodeId) (bindings : List (String × NodeId)) (es : List Event) : Prop where
  /-- A name that is lost was bound. -/
  bound : ∀ name id earlier, .unregistered name id :: earlier <:+ es →
    (bindingsAfter bindings earlier).lookup name = some id
  /-- A node is destroyed after its name is lost and its last call is over, if it is not dropped. -/
  parted : ∀ name id earlier, .destroyed name id :: earlier <:+ es →
    ∃ farewell rest, earlier = farewell ++ .unregistered name id :: rest ∧
      Farewell (runningAfter running rest) name id farewell
  /-- A last call begins when a name is lost, and the node is then destroyed. -/
  told : ∀ id now earlier, .entered (id :: now) .destroy :: earlier <:+ es →
    ∃ name rest inner, earlier = .unregistered name id :: rest ∧
      Farewell (runningAfter running rest) name id (.left id :: (inner ++ [.entered (id :: now) .destroy])) ∧
      .destroyed name id :: .left id :: (inner ++ .entered (id :: now) .destroy :: earlier) <:+ es

/-! ### Events in pieces -/

variable {running : List NodeId} {bindings : List (String × NodeId)} {es fs : List Event} {e : Event}

theorem cons_suffix_append {l : List Event} :
    e :: l <:+ fs ++ es ↔ e :: l <:+ es ∨ ∃ l', l = l' ++ es ∧ e :: l' <:+ fs := by
  induction fs with
  | nil => simp
  | cons f fs ih =>
    rw [List.cons_append, List.suffix_cons_iff, ih]
    constructor
    · rintro (whole | early | ⟨l', rfl, late⟩)
      · cases whole
        exact Or.inr ⟨fs, rfl, List.suffix_refl _⟩
      · exact Or.inl early
      · exact Or.inr ⟨l', rfl, late.trans (List.suffix_cons f fs)⟩
    · rintro (early | ⟨l', rfl, late⟩)
      · exact Or.inr (Or.inl early)
      · rcases List.suffix_cons_iff.mp late with whole | late
        · cases whole
          exact Or.inl rfl
        · exact Or.inr (Or.inr ⟨l', rfl, late⟩)

@[simp] theorem bindingsAfter_append :
    bindingsAfter bindings (fs ++ es) = bindingsAfter (bindingsAfter bindings es) fs := List.foldr_append

theorem rebind_of_plain (plain : e.isPlain = true) : e.rebind bindings = bindings := by
  cases e <;> first | rfl | cases plain

theorem bindingsAfter_of_plain (plain : ∀ e ∈ es, e.isPlain = true) : bindingsAfter bindings es = bindings := by
  induction es with
  | nil => rfl
  | cons e es ih =>
    have earlier : bindingsAfter bindings es = bindings := ih fun f hf => plain f (List.mem_cons_of_mem _ hf)
    have last : e.isPlain = true := plain e List.mem_cons_self
    exact (congrArg e.rebind earlier).trans (rebind_of_plain last)

theorem isPlain_of_remark (h : e.isRemark = true) : e.isPlain = true := by
  cases e <;> first | rfl | cases h

theorem isPlain_of_node (h : e.source = .node) : e.isPlain = true := by
  cases e <;> first | rfl | cases h

theorem tells?_of_node {id : NodeId} (h : e.source = .node) : e.tells? id = none := by
  cases e <;> first | rfl | cases h

namespace LastCalls

theorem of_plain (plain : ∀ e ∈ es, e.isPlain = true) : LastCalls running bindings es := by
  have other : ∀ {e l}, e :: l <:+ es → e.isPlain = true := fun h => plain _ (h.subset List.mem_cons_self)
  refine ⟨?_, ?_, ?_⟩
  · intro name id earlier h
    cases other h
  · intro name id earlier h
    cases other h
  · intro id now earlier h
    cases other h

theorem append (h : LastCalls running bindings es)
    (h' : LastCalls (runningAfter running es) (bindingsAfter bindings es) fs) :
    LastCalls running bindings (fs ++ es) where
  bound := by
    intro name id earlier hs
    rcases cons_suffix_append.mp hs with early | ⟨later, rfl, late⟩
    · exact h.bound name id earlier early
    · rw [bindingsAfter_append]
      exact h'.bound name id later late
  parted := by
    intro name id earlier hs
    rcases cons_suffix_append.mp hs with early | ⟨later, rfl, late⟩
    · exact h.parted name id earlier early
    · obtain ⟨farewell, rest, rfl, parting⟩ := h'.parted name id later late
      rw [← runningAfter_append] at parting
      exact ⟨farewell, rest ++ es, by simp, parting⟩
  told := by
    intro id now earlier hs
    rcases cons_suffix_append.mp hs with early | ⟨later, rfl, late⟩
    · obtain ⟨name, rest, inner, rfl, parting, ended⟩ := h.told id now earlier early
      exact ⟨name, rest, inner, rfl, parting, ended.trans (List.suffix_append fs es)⟩
    · obtain ⟨name, rest, inner, rfl, parting, ended⟩ := h'.told id now later late
      rw [← runningAfter_append] at parting
      obtain ⟨front, rfl⟩ := ended
      exact ⟨name, rest ++ es, inner, rfl, parting, front, by simp⟩

/-- A node that is dropped. -/
theorem drop {name : String} {id : NodeId} (bound : bindings.lookup name = some id) (busy : id ∈ running) :
    LastCalls running bindings [.destroyed name id, .droppedBusy name id, .unregistered name id] := by
  have places : ∀ {e l}, e :: l <:+ [Event.destroyed name id, .droppedBusy name id, .unregistered name id] →
      (e = .destroyed name id ∧ l = [.droppedBusy name id, .unregistered name id]) ∨
      e = .droppedBusy name id ∨ (e = .unregistered name id ∧ l = []) := by
    intro e l h
    simp only [List.suffix_cons_iff, List.suffix_nil, List.cons.injEq, reduceCtorEq, or_false] at h
    rcases h with here | ⟨rfl, -⟩ | here
    · exact Or.inl here
    · exact Or.inr (Or.inl rfl)
    · exact Or.inr (Or.inr here)
  refine ⟨?_, ?_, ?_⟩
  · intro other k earlier h
    rcases places h with ⟨⟨⟩, -⟩ | ⟨⟨⟩⟩ | ⟨⟨⟩, rfl⟩
    exact bound
  · intro other k earlier h
    rcases places h with ⟨⟨⟩, rfl⟩ | ⟨⟨⟩⟩ | ⟨⟨⟩, -⟩
    exact ⟨[.droppedBusy name id], [], rfl, .dropped busy⟩
  · intro k now earlier h
    rcases places h with ⟨⟨⟩, -⟩ | ⟨⟨⟩⟩ | ⟨⟨⟩, -⟩

end LastCalls
end Event

namespace Session

open Event

/-- Where an event of a node's last call stands: the node is destroyed and its handler left at the end, its name
lost and its handler entered at the beginning, and between them are its own notes and its calls. -/
theorem places_of_farewell {running : List NodeId} {name : String} {id : NodeId} {own calls l : List Event}
    {e : Event} (h : e :: l <:+ .destroyed name id ::
      (handlerNotes running id .destroy own calls ++ [.unregistered name id])) :
    (e = .destroyed name id ∧ l = handlerNotes running id .destroy own calls ++ [.unregistered name id]) ∨
    e = .left id ∨
    (∃ l', l = l' ++ (own.reverse ++ [.entered (id :: running) .destroy, .unregistered name id]) ∧
      e :: l' <:+ calls) ∨
    e ∈ own ∨
    (e = .entered (id :: running) .destroy ∧ l = [.unregistered name id]) ∨
    (e = .unregistered name id ∧ l = []) := by
  have pieces : handlerNotes running id .destroy own calls ++ [.unregistered name id] =
      .left id :: (calls ++ (own.reverse ++ [.entered (id :: running) .destroy, .unregistered name id])) := by
    simp [handlerNotes]
  rcases List.suffix_cons_iff.mp h with whole | h
  · cases whole
    exact Or.inl ⟨rfl, rfl⟩
  rw [pieces] at h
  rcases List.suffix_cons_iff.mp h with whole | h
  · cases whole
    exact Or.inr (Or.inl rfl)
  rcases cons_suffix_append.mp h with h | called
  · rcases cons_suffix_append.mp h with h | ⟨l', rfl, noted⟩
    · simp only [List.suffix_cons_iff, List.suffix_nil, List.cons.injEq, reduceCtorEq, or_false] at h
      exact Or.inr (Or.inr (Or.inr (Or.inr h)))
    · have member : e ∈ own := List.mem_reverse.mp (noted.subset List.mem_cons_self)
      exact Or.inr (Or.inr (Or.inr (Or.inl member)))
  · exact Or.inr (Or.inr (Or.inl called))

/-- A node that is destroyed with a last call. -/
theorem lastCalls_farewell {running : List NodeId} {bindings : List (String × NodeId)} {name : String} {id : NodeId}
    {own calls : List Event} (bound : bindings.lookup name = some id) (idle : id ∉ running)
    (hown : ∀ e ∈ own, e.source = .node) (once : ∀ e ∈ calls, e.tells? id = none)
    (h : LastCalls (id :: running) (bindings.filter fun b => b.1 != name) calls) :
    bindingsAfter bindings
        (.destroyed name id :: (handlerNotes running id .destroy own calls ++ [.unregistered name id])) =
      bindingsAfter (bindings.filter fun b => b.1 != name) calls ∧
    LastCalls running bindings
      (.destroyed name id :: (handlerNotes running id .destroy own calls ++ [.unregistered name id])) := by
  have noted : ∀ e ∈ own.reverse, e.source = .node := fun e he => hown e (List.mem_reverse.mp he)
  have begun : runningAfter running (own.reverse ++ [.entered (id :: running) .destroy, .unregistered name id]) =
      id :: running := by
    rw [runningAfter_append]
    exact (orderly_of_plain fun e he => Or.inl (noted e he)).1
  have unbound : bindingsAfter bindings
      (own.reverse ++ [.entered (id :: running) .destroy, .unregistered name id]) =
        bindings.filter fun b => b.1 != name := by
    rw [bindingsAfter_append, bindingsAfter_of_plain fun e he => isPlain_of_node (noted e he)]
    rfl
  have inner : ∀ e ∈ calls ++ own.reverse, e.tells? id = none := by
    intro e he
    rcases List.mem_append.mp he with he | he
    · exact once e he
    · exact tells?_of_node (noted e he)
  have parting : Farewell running name id
      (.left id :: ((calls ++ own.reverse) ++ [.entered (id :: running) .destroy])) := .told idle inner
  have pieces : .destroyed name id :: (handlerNotes running id .destroy own calls ++ [.unregistered name id]) =
      [.destroyed name id, .left id] ++
        (calls ++ (own.reverse ++ [.entered (id :: running) .destroy, .unregistered name id])) := by
    simp [handlerNotes]
  refine ⟨?_, ?_, ?_, ?_⟩
  · rw [pieces, bindingsAfter_append, bindingsAfter_append, unbound]
    rfl
  · intro other k earlier hs
    rcases places_of_farewell hs with ⟨⟨⟩, -⟩ | ⟨⟨⟩⟩ | ⟨l, rfl, called⟩ | member | ⟨⟨⟩, -⟩ | ⟨⟨⟩, rfl⟩
    · rw [bindingsAfter_append, unbound]
      exact h.bound other k l called
    · cases hown _ member
    · exact bound
  · intro other k earlier hs
    rcases places_of_farewell hs with ⟨⟨⟩, rfl⟩ | ⟨⟨⟩⟩ | ⟨l, rfl, called⟩ | member | ⟨⟨⟩, -⟩ | ⟨⟨⟩, -⟩
    · exact ⟨_, [], by simp [handlerNotes], parting⟩
    · obtain ⟨farewell, rest, rfl, parted⟩ := h.parted other k l called
      rw [← begun, ← runningAfter_append] at parted
      exact ⟨farewell, _, by simp, parted⟩
    · cases hown _ member
  · intro k now earlier hs
    rcases places_of_farewell hs with ⟨⟨⟩, -⟩ | ⟨⟨⟩⟩ | ⟨l, rfl, called⟩ | member | ⟨⟨⟩, rfl⟩ | ⟨⟨⟩, -⟩
    · obtain ⟨other, rest, inner', rfl, parted, ended⟩ := h.told k now l called
      rw [← begun, ← runningAfter_append] at parted
      obtain ⟨front, rfl⟩ := ended
      exact ⟨other, _, inner', rfl, parted, .destroyed name id :: .left id :: front, by simp [handlerNotes]⟩
    · cases hown _ member
    · refine ⟨name, [], _, rfl, parting, ?_⟩
      simp [handlerNotes]

/-- A message other than that a node is destroyed. -/
theorem lastCalls_handler {running : List NodeId} {bindings : List (String × NodeId)} {id : NodeId}
    {message : Message} {own calls : List Event} (other : message ≠ .destroy) (hown : ∀ e ∈ own, e.source = .node)
    (h : LastCalls (id :: running) bindings calls) :
    bindingsAfter bindings (handlerNotes running id message own calls) = bindingsAfter bindings calls ∧
      LastCalls running bindings (handlerNotes running id message own calls) := by
  have entered : (Event.entered (id :: running) message).isPlain = true := by
    cases message with
    | destroy => exact absurd rfl other
    | execute | receive => rfl
  have before : ∀ e ∈ own.reverse ++ [.entered (id :: running) message], e.isPlain = true := by
    intro e he
    rcases List.mem_append.mp he with he | he
    · exact isPlain_of_node (hown e (List.mem_reverse.mp he))
    · rw [List.mem_singleton.mp he]
      exact entered
  have begun : runningAfter running (own.reverse ++ [.entered (id :: running) message]) = id :: running := by
    rw [runningAfter_append]
    exact (orderly_of_plain fun e he => Or.inl (hown e (List.mem_reverse.mp he))).1
  have kept : bindingsAfter bindings (own.reverse ++ [.entered (id :: running) message]) = bindings :=
    bindingsAfter_of_plain before
  have left : ∀ e ∈ [Event.left id], e.isPlain = true := by simp [isPlain]
  have quiet : LastCalls running bindings (own.reverse ++ [.entered (id :: running) message]) := .of_plain before
  have called := quiet.append (by rw [begun, kept]; exact h)
  refine ⟨?_, called.append (.of_plain left)⟩
  rw [handlerNotes, ← List.singleton_append, bindingsAfter_append, bindingsAfter_append, kept,
    bindingsAfter_of_plain left]

theorem isPlain_dispatchNotes {envelope : Envelope} {bound : Option NodeId} {answer : Except RouteError Unit} :
    ∀ e ∈ dispatchNotes envelope bound answer, e.isPlain = true := by
  cases answer <;> simp [dispatchNotes, isPlain]

theorem tells?_dispatchNotes {id : NodeId} {envelope : Envelope} {bound : Option NodeId}
    {answer : Except RouteError Unit} : ∀ e ∈ dispatchNotes envelope bound answer, e.tells? id = none := by
  cases answer <;> simp [dispatchNotes, tells?]

/-! ### Courses and changes -/

variable {s t : Session} {es : List Event}

/-- A node with a running handler is told nothing in a course. -/
theorem Course.untold (h : Course s es t) {id : NodeId} (busy : id ∈ s.network.running) :
    ∀ e ∈ es, e.tells? id = none := by
  have handler : ∀ {running k message} {own calls : List Event}, id ∈ running → k ∉ running →
      (∀ e ∈ own, e.source = .node) → (∀ e ∈ calls, e.tells? id = none) →
      ∀ e ∈ handlerNotes running k message own calls, e.tells? id = none := by
    intro running k message own calls busy idle hown hcalls e he
    rcases mem_handlerNotes.mp he with rfl | he | he | rfl
    · rfl
    · exact hcalls e he
    · exact tells?_of_node (hown e he)
    · have other : k ≠ id := fun same => idle (same ▸ busy)
      simp [tells?, other]
  induction h with
  | refl | hear => simp
  | ask | unbind | drop => simp [tells?]
  | remark h =>
    intro e he
    obtain rfl := List.mem_singleton.mp he
    cases e <;> first | rfl | cases h
  | trans h₁ _ ih₁ ih₂ =>
    intro e he
    rcases List.mem_append.mp he with he | he
    · exact ih₂ (h₁.running ▸ busy) e he
    · exact ih₁ busy e he
  | @destroy s t name k node es bound idle _ _ _ ih =>
    have inner : ∀ e ∈ es, e.tells? id = none := ih (List.mem_cons_of_mem k busy)
    intro e he
    rcases List.mem_cons.mp he with rfl | he
    · rfl
    rcases List.mem_append.mp he with he | he
    · exact handler busy (not_mem_running idle) (fun _ => Node.source_of_mem_notes) inner e he
    · obtain rfl := List.mem_singleton.mp he
      rfl
  | lose | refuse => exact tells?_dispatchNotes
  | lifecycle _ _ _ ih =>
    intro e he
    rcases List.mem_append.mp he with he | he
    · exact tells?_dispatchNotes e he
    · exact ih busy e he
  | @tell s t envelope k message node reply es bound told idle _ _ _ _ ih =>
    have inner : ∀ e ∈ es, e.tells? id = none := ih (List.mem_cons_of_mem k busy)
    intro e he
    rcases List.mem_append.mp he with he | he
    · exact tells?_dispatchNotes e he
    · exact handler busy (not_mem_running idle) (fun _ => Node.source_of_mem_notes) inner e he

theorem ne_destroy_of_told {envelope : Envelope} {message : Message} (told : envelope.delivery = .tell message) :
    message ≠ .destroy := by
  rintro rfl
  cases envelope with
  | data d => cases told
  | command c =>
    simp only [Envelope.delivery] at told
    split at told <;> cases told

/-- The bindings after a course can be read off its events. -/
theorem Course.lastCalls (h : Course s es t) :
    t.network.bindings = bindingsAfter s.network.bindings es ∧
      LastCalls s.network.running s.network.bindings es := by
  induction h with
  | refl => exact ⟨rfl, .of_plain (by simp)⟩
  | hear s id o => exact ⟨bindings_hear s id o, .of_plain (by simp)⟩
  | ask => exact ⟨rfl, .of_plain (by simp [isPlain])⟩
  | @remark s e h =>
    have plain : ∀ f ∈ [e], f.isPlain = true := fun f hf => List.mem_singleton.mp hf ▸ isPlain_of_remark h
    exact ⟨(bindingsAfter_of_plain plain).symm, .of_plain plain⟩
  | @trans s t u es fs h₁ h₂ ih₁ ih₂ =>
    obtain ⟨kept₁, first⟩ := ih₁
    obtain ⟨kept₂, later⟩ := ih₂
    rw [h₁.running, kept₁, ← h₁.orderly.1] at later
    refine ⟨?_, first.append (h₁.orderly.1 ▸ later)⟩
    rw [kept₂, kept₁, bindingsAfter_append]
  | @unbind s name id bound =>
    refine ⟨rfl, ?_, ?_, ?_⟩
    · intro other k earlier hs
      obtain ⟨⟨⟩, rfl⟩ : Event.unregistered other k = .unregistered name id ∧ earlier = [] := by
        simpa [List.suffix_cons_iff] using hs
      exact bound
    · intro other k earlier hs
      simp [List.suffix_cons_iff] at hs
    · intro k now earlier hs
      simp [List.suffix_cons_iff] at hs
  | drop bound busy => exact ⟨rfl, .drop bound (mem_running busy)⟩
  | @destroy s t name id node es bound idle found calls leaf ih =>
    have own : ∀ e ∈ (node.respond .destroy).notes, e.source = .node := fun _ => Node.source_of_mem_notes
    obtain ⟨kept, called⟩ := ih
    have once : ∀ e ∈ es, e.tells? id = none := calls.untold List.mem_cons_self
    obtain ⟨same, parted⟩ := lastCalls_farewell bound (not_mem_running idle) own once called
    exact ⟨kept.trans same.symm, parted⟩
  | lose | refuse =>
    exact ⟨(bindingsAfter_of_plain isPlain_dispatchNotes).symm, .of_plain isPlain_dispatchNotes⟩
  | lifecycle _ _ h ih =>
    obtain ⟨kept, called⟩ := ih
    refine ⟨?_, called.append (.of_plain isPlain_dispatchNotes)⟩
    rw [bindingsAfter_append, bindingsAfter_of_plain isPlain_dispatchNotes]
    exact kept
  | @tell s t envelope id message node reply es bound told idle found calls leaf _ ih =>
    obtain ⟨kept, called⟩ := ih
    obtain ⟨same, handled⟩ := lastCalls_handler (ne_destroy_of_told told) (fun _ => Node.source_of_mem_notes) called
    refine ⟨?_, handled.append (.of_plain isPlain_dispatchNotes)⟩
    rw [bindingsAfter_append, bindingsAfter_of_plain isPlain_dispatchNotes]
    exact kept.trans same.symm

theorem Changed.lastCalls {c : Change} (h : Changed s c es t) (untold : ∀ id, c ≠ .tell id .destroy) :
    t.network.bindings = bindingsAfter s.network.bindings es ∧
      LastCalls s.network.running s.network.bindings es := by
  cases h with
  | made | unmade | untold => exact ⟨rfl, .of_plain (by simp)⟩
  | @bound name id free made =>
    refine ⟨rfl, ?_, ?_, ?_⟩
    · intro other k earlier hs
      simp [List.suffix_cons_iff] at hs
    · intro other k earlier hs
      simp [List.suffix_cons_iff] at hs
    · intro k now earlier hs
      simp [List.suffix_cons_iff] at hs
  | taken => exact ⟨rfl, .of_plain (by simp [isPlain])⟩
  | called course => exact course.lastCalls
  | @told id message node reply es t idle handled =>
    have other : message ≠ .destroy := by
      rintro rfl
      exact untold id rfl
    obtain ⟨kept, called⟩ := handled.calls.lastCalls
    obtain ⟨same, parted⟩ := lastCalls_handler other (fun _ => Node.source_of_mem_notes) called
    exact ⟨kept.trans same.symm, parted⟩
  | mail id =>
    refine ⟨?_, .of_plain (by simp)⟩
    simp only [Network.takeMail]
    split <;> rfl

/-- What destroying a name comes to, whoever asks for it. -/
theorem destroyWith_farewell {run : Enter} (runs : Runs run) {name : String} {answer : Except RouteError Unit}
    (h : destroyWith run name s = some (answer, t)) :
    (s.network.find? name = none ∧ answer = .error (.targetNotFound name) ∧ t = s) ∨
    ∃ id farewell, s.network.find? name = some id ∧ answer = .ok () ∧
      t.trace = .destroyed name id :: (farewell ++ .unregistered name id :: s.trace) ∧
      Farewell s.network.running name id farewell := by
  unfold destroyWith at h
  split at h
  · next free =>
    cases h
    exact Or.inl ⟨free, rfl, rfl⟩
  · next id bound =>
    right
    split at h
    · next busy =>
      cases h
      exact ⟨id, _, bound, rfl, rfl, .dropped (mem_running busy)⟩
    · next idle =>
      have idle : id ∉ s.network.running := not_mem_running (by simpa using idle)
      obtain ⟨r, hr, heq⟩ := Option.map_eq_some_iff.mp h
      obtain ⟨node, reply, es, u, handled, rfl⟩ := runs _ _ _ _ hr
      cases heq
      have inner : ∀ e ∈ es ++ (node.respond .destroy).notes.reverse, e.tells? id = none := by
        intro e he
        rcases List.mem_append.mp he with he | he
        · exact handled.calls.untold List.mem_cons_self e he
        · exact tells?_of_node (Node.source_of_mem_notes (List.mem_reverse.mp he))
      refine ⟨id, _, bound, rfl, ?_, .told idle inner⟩
      simp [handled.calls.trace]

/-! ### The mark of a log -/

end Session

/-- Whether a name of a node is destroyed in some events. -/
def Event.Destroys (id : NodeId) (es : List Event) : Prop := ∃ name, .destroyed name id ∈ es

namespace Event
variable {id : NodeId} {es fs : List Event}

@[simp] theorem destroys_append : Destroys id (fs ++ es) ↔ Destroys id es ∨ Destroys id fs := by
  simp only [Destroys, List.mem_append]
  constructor
  · rintro ⟨name, late | early⟩
    · exact Or.inr ⟨name, late⟩
    · exact Or.inl ⟨name, early⟩
  · rintro (⟨name, early⟩ | ⟨name, late⟩)
    · exact ⟨name, Or.inr early⟩
    · exact ⟨name, Or.inl late⟩

theorem not_destroys_of_plain (plain : ∀ e ∈ es, e.isPlain = true) : ¬Destroys id es := by
  rintro ⟨name, he⟩
  cases plain _ he

@[simp] theorem destroys_handlerNotes {running : List NodeId} {k : NodeId} {node : Node} {message : Message}
    {calls : List Event} :
    Destroys id (Session.handlerNotes running k message (node.respond message).notes calls) ↔ Destroys id calls := by
  constructor
  · rintro ⟨name, he⟩
    rcases Session.mem_handlerNotes.mp he with he | he | he | he
    · cases he
    · exact ⟨name, he⟩
    · cases Node.source_of_mem_notes he
    · cases he
  · rintro ⟨name, he⟩
    exact ⟨name, Session.mem_handlerNotes.mpr (Or.inr (Or.inl he))⟩

end Event

open Event

/-- Of two states of a log, the later is marked just when the earlier is or the log was destroyed in between. -/
def LogNode.Marked (id : NodeId) (es : List Event) (n m : LogNode) : Prop :=
  m.destroyed = true ↔ n.destroyed = true ∨ Destroys id es

namespace LogNode.Marked
variable {id : NodeId} {es fs : List Event} {n m l : LogNode}

theorem of_spared (h : ¬Destroys id es) : Marked id es n n := by simp [Marked, h]

theorem of_plain (plain : ∀ e ∈ es, e.isPlain = true) : Marked id es n n := of_spared (not_destroys_of_plain plain)

theorem trans (h₁ : Marked id es n m) (h₂ : Marked id fs m l) : Marked id (fs ++ es) n l := by
  unfold Marked at h₁ h₂ ⊢
  rw [h₂, h₁, destroys_append, or_assoc]

end LogNode.Marked

/-- What a message leaves of a log: another log, which is marked if the message says that it is destroyed. -/
theorem Node.destroyed_respondLog (n : LogNode) (message : Message) :
    ∃ m, (respondLog n message).node = .log m ∧ (m.destroyed = true ↔ n.destroyed = true ∨ message = .destroy) := by
  cases message with
  | execute verb args =>
    cases checked : Verb.check verb args with
    | ok v =>
      refine ⟨{ n with history := n.history ++ [Envelope.fieldsText v.name args] }, ?_, by simp⟩
      simp [respondLog, checked]
    | error cause => exact ⟨n, by simp [respondLog, checked], by simp⟩
  | receive payload => exact ⟨{ n with received := n.received ++ [payload] }, rfl, by simp⟩
  | destroy => exact ⟨{ n with destroyed := true }, rfl, by simp⟩

namespace Session

variable {s t : Session} {es : List Event} {id : NodeId} {n : LogNode}

/-- A handler marks the log that it is one of, if it is the last call, and leaves other logs to its calls. -/
theorem handled_log {k : NodeId} {message : Message} {node : Node}
    (found : s.network.nodes[id]? = some (.log n)) (found' : s.network.nodes[k]? = some node)
    (leaf : ∀ final, (node.respond message).handling = .ends final →
      es = [] ∧ t = s.begin k message (node.respond message))
    (others : k ≠ id → ∃ m, t.network.nodes[id]? = some (.log m) ∧ LogNode.Marked id es n m) :
    ∃ m, t.network.nodes[id]? = some (.log m) ∧
      (m.destroyed = true ↔ n.destroyed = true ∨ Destroys id es ∨ k = id ∧ message = .destroy) := by
  by_cases same : k = id
  · subst same
    obtain rfl := Option.some.inj (found'.symm.trans found)
    obtain ⟨final, ended⟩ := Node.ends_respondLog n message
    obtain ⟨rfl, rfl⟩ := leaf final ended
    obtain ⟨m, left, marked⟩ := Node.destroyed_respondLog n message
    refine ⟨m, (found_begin_self found message _).trans (congrArg some left), ?_⟩
    simp [marked, Destroys]
  · obtain ⟨m, left, marked⟩ := others same
    refine ⟨m, left, ?_⟩
    simp [marked.eq, same]

theorem Course.log_destroyed (h : Course s es t) (found : s.network.nodes[id]? = some (.log n))
    (idle : id ∉ s.network.running) :
    ∃ m, t.network.nodes[id]? = some (.log m) ∧ LogNode.Marked id es n m := by
  induction h generalizing n with
  | refl => exact ⟨n, found, .of_plain (by simp)⟩
  | ask => exact ⟨n, found, .of_plain (by simp [isPlain])⟩
  | remark h => exact ⟨n, found, .of_plain fun e he => List.mem_singleton.mp he ▸ isPlain_of_remark h⟩
  | hear s k o =>
    refine ⟨n, ?_, .of_plain (by simp)⟩
    rw [nodes_hear, found]
    split <;> rfl
  | unbind => exact ⟨n, found, .of_spared (by simp [Destroys])⟩
  | trans h₁ _ ih₁ ih₂ =>
    obtain ⟨m, found₁, marked₁⟩ := ih₁ found idle
    obtain ⟨l, found₂, marked₂⟩ := ih₂ found₁ (h₁.running ▸ idle)
    exact ⟨l, found₂, marked₁.trans marked₂⟩
  | @drop s name k bound busy =>
    -- No handler of the log runs, so that it is another node which is dropped.
    have other : id ≠ k := by
      rintro rfl
      exact idle (mem_running busy)
    exact ⟨n, found, .of_spared (by simp [Destroys, other])⟩
  | @destroy s t name k node es bound free found' calls leaf ih =>
    obtain ⟨m, left, marked⟩ := handled_log (s := s.unbind name k) found found' leaf fun other =>
      ih (found_begin (s := s.unbind name k) found .destroy _ other) (by simp [idle, Ne.symm other])
    refine ⟨m, left, marked.trans (or_congr_right ?_)⟩
    rw [← List.singleton_append, destroys_append, destroys_append, destroys_handlerNotes]
    simp [Destroys, eq_comm]
  | lose | refuse => exact ⟨n, found, .of_plain isPlain_dispatchNotes⟩
  | lifecycle _ _ _ ih =>
    obtain ⟨m, left, marked⟩ := ih found idle
    exact ⟨m, left, marked.trans (.of_plain isPlain_dispatchNotes)⟩
  | @tell s t envelope k message node reply es bound told free found' calls leaf _ ih =>
    obtain ⟨m, left, marked⟩ := handled_log found found' leaf fun other =>
      ih (found_begin found message _ other) (by simp [idle, Ne.symm other])
    have handled : LogNode.Marked id (handlerNotes s.network.running k message (node.respond message).notes es) n m := by
      simpa [LogNode.Marked, ne_destroy_of_told told] using marked
    exact ⟨m, left, handled.trans (.of_plain isPlain_dispatchNotes)⟩

theorem Changed.log_destroyed {c : Change} (h : Changed s c es t) (found : s.network.nodes[id]? = some (.log n))
    (idle : id ∉ s.network.running) (untold : c ≠ .tell id .destroy) :
    ∃ m, t.network.nodes[id]? = some (.log m) ∧ LogNode.Marked id es n m := by
  cases h with
  | made node =>
    obtain ⟨made, -⟩ := List.getElem?_eq_some_iff.mp found
    exact ⟨n, by rw [← found]; exact List.getElem?_append_left made, .of_plain (by simp)⟩
  | bound => exact ⟨n, found, .of_spared (by simp [Destroys])⟩
  | unmade | untold => exact ⟨n, found, .of_plain (by simp)⟩
  | taken => exact ⟨n, found, .of_plain (by simp [isPlain])⟩
  | called course => exact course.log_destroyed found idle
  | @told k message node reply es t free handled =>
    obtain ⟨m, left, marked⟩ := handled_log found handled.found handled.leaf fun other =>
      handled.calls.log_destroyed (found_begin found message _ other) (by simp [idle, Ne.symm other])
    have other : ¬(k = id ∧ message = .destroy) := by
      rintro ⟨rfl, rfl⟩
      exact untold rfl
    refine ⟨m, left, ?_⟩
    simpa [LogNode.Marked, other] using marked
  | mail k =>
    refine ⟨n, ?_, .of_plain (by simp)⟩
    simp only [Network.takeMail]
    split
    · next payload rest inbox =>
      have other : k ≠ id := by
        rintro rfl
        cases inbox.symm.trans found
      simpa [Network.replace, List.getElem?_set_ne other] using found
    · exact found

/-! ### Lists of changes -/

theorem after_lastCalls (s : Session) (changes : List Change) (untold : ∀ id, .tell id .destroy ∉ changes) :
    ∃ es, (s.after changes).trace = es ++ s.trace ∧ Orderly s.network.running es ∧
      (s.after changes).network.bindings = bindingsAfter s.network.bindings es ∧
      LastCalls s.network.running s.network.bindings es ∧
      ∀ id n, s.network.nodes[id]? = some (.log n) → id ∉ s.network.running →
        ∃ m, (s.after changes).network.nodes[id]? = some (.log m) ∧ LogNode.Marked id es n m := by
  induction changes generalizing s with
  | nil =>
    refine ⟨[], rfl, trivial, rfl, .of_plain (by simp), ?_⟩
    intro id n found _
    exact ⟨n, found, .of_plain (by simp)⟩
  | cons c rest ih =>
    obtain ⟨es, changed⟩ := change_changed s c
    have untold₁ : ∀ id, c ≠ .tell id .destroy := fun id h => untold id (h ▸ List.mem_cons_self)
    obtain ⟨kept, first⟩ := changed.lastCalls untold₁
    obtain ⟨running, orderly⟩ := changed.orderly
    obtain ⟨fs, trace, orderly', kept', later, logs⟩ :=
      ih (s.change c).2 fun id h => untold id (List.mem_cons_of_mem _ h)
    rw [changed.running] at orderly' later logs
    rw [kept] at kept' later
    refine ⟨fs ++ es, ?_, ?_, ?_, first.append (by rw [running]; exact later), ?_⟩
    · rw [after_cons, trace, changed.trace, List.append_assoc]
    · exact orderly_append.mpr ⟨by rw [running]; exact orderly', orderly⟩
    · rw [after_cons, kept', bindingsAfter_append]
    · intro id n found idle
      obtain ⟨m, found₁, marked₁⟩ := changed.log_destroyed found idle (untold₁ id)
      obtain ⟨l, found₂, marked₂⟩ := logs id m found₁ idle
      exact ⟨l, found₂, marked₁.trans marked₂⟩

/-- Destroying a bound name ends, whoever asks for it. The name goes, and then the last call of its node is
made, once, unless a handler of the node is running, when the node is dropped without one. While calls are made
of a network, from outside and by its handlers, each node that is destroyed has gone that way, and no last call
begins that is not part of it. So a log is marked just when a name of it was destroyed. -/
theorem destroyed_told_once (s : Session) (changes : List Change) (untold : ∀ id, .tell id .destroy ∉ changes) :
    (∀ (t : Session) depth name, t.network.idle ≤ depth → (destroyWith (enter depth) name t).isSome) ∧
    (∀ (t : Session) depth name answer u, destroyWith (enter depth) name t = some (answer, u) →
      u.network.find? name = none ∧
      ((t.network.find? name = none ∧ answer = .error (.targetNotFound name) ∧ u = t) ∨
        ∃ id farewell, t.network.find? name = some id ∧ answer = .ok () ∧
          u.trace = .destroyed name id :: (farewell ++ .unregistered name id :: t.trace) ∧
          Farewell t.network.running name id farewell)) ∧
    ∃ es, (s.after changes).trace = es ++ s.trace ∧ Orderly s.network.running es ∧
      (s.after changes).network.bindings = bindingsAfter s.network.bindings es ∧
      LastCalls s.network.running s.network.bindings es ∧
      ∀ id n, s.network.nodes[id]? = some (.log n) → id ∉ s.network.running →
        ∃ m, (s.after changes).network.nodes[id]? = some (.log m) ∧
          (m.destroyed = true ↔ n.destroyed = true ∨ ∃ name, .destroyed name id ∈ es) := by
  refine ⟨?_, ?_, after_lastCalls s changes untold⟩
  · intro t depth name fits
    obtain ⟨r, ends, -⟩ := destroyWith_some (manages_enter depth) name fits
    exact Option.isSome_of_eq_some ends
  · intro t depth name answer u h
    exact ⟨destroyWith_forgets (runs_enter depth) h, destroyWith_farewell (runs_enter depth) h⟩

/-- A lamp, and an agent of two names: on data it destroys itself under the first, and its last call destroys
the lamp. -/
def keeper : Session where
  network.nodes := [
    .log { name := "lamp", persistent := true },
    .agent {
      execute := fun _ _ _ => .ends (.ok ())
      receive := fun _ _ => .asks (.destroy "gate") fun _ => .ends ()
      onDestroy := fun _ => .asks (.destroy "lamp") fun _ => .ends ()
      persistent := false }]
  network.bindings := [("lamp", 0), ("gate", 1), ("door", 1)]

/-- The keeper is dropped under the name that it gives up while it is busy, and told under the other. -/
theorem keeper_told_once :
    (∀ id, Change.tell id .destroy ∉ [.call (.dispatch (.data ⟨"door", "shut"⟩)), .call (.destroy "door")]) ∧
    ∃ es m, (keeper.after [.call (.dispatch (.data ⟨"door", "shut"⟩)), .call (.destroy "door")]).trace = es ∧
      LastCalls [] keeper.network.bindings es ∧
      (∃ later earlier, es = later ++ .destroyed "gate" 1 :: .droppedBusy "gate" 1 :: earlier) ∧
      (∃ later earlier, es = later ++ .entered [1] .destroy :: .unregistered "door" 1 :: earlier) ∧
      (keeper.after [.call (.dispatch (.data ⟨"door", "shut"⟩)), .call (.destroy "door")]).network.nodes[0]? =
        some (.log m) ∧
      (m.destroyed = true ↔ ∃ name, .destroyed name 0 ∈ es) ∧ m.destroyed = true := by
  have untold : ∀ id, Change.tell id .destroy ∉
      [.call (.dispatch (.data ⟨"door", "shut"⟩)), .call (.destroy "door")] := by simp
  obtain ⟨-, -, es, trace, -, -, parted, logs⟩ := destroyed_told_once keeper _ untold
  obtain ⟨m, left, marked⟩ := logs 0 { name := "lamp", persistent := true } rfl (by decide)
  have noted : es ++ keeper.trace = es := List.append_nil es
  rw [noted] at trace
  refine ⟨untold, es, m, trace, parted, ?_, ?_, left, by simpa using marked, ?_⟩
  · rw [← trace]
    exact ⟨[_, _, _, _, _, _, _, _, _, _, _, _, _], _, rfl⟩
  · rw [← trace]
    exact ⟨[_, _, _, _, _, _, _, _], _, rfl⟩
  · cases left
    rfl

end Session
end Chip8
