import Chip8.Network.Change
import Chip8.Proofs.Network.Termination

/-!
What the changes from outside come to, one case for each way in which a change can end, and what a list
of them comes to.
-/

namespace Chip8

namespace Session

/-- What a change comes to: what is noted of it, the latest event first, and the session afterwards. -/
inductive Changed (s : Session) : Change → List Event → Session → Prop
  | made (node : Node) : Changed s (.make node) [] { s with network := (s.network.add node).2 }
  | bound {name : String} {id : NodeId} (free : s.network.find? name = none)
      (made : id < s.network.nodes.length) :
      Changed s (.register name id) [.registered name id]
        ({ s with network := s.network.bind name id free made }.note (.registered name id))
  | unmade (name : String) {id : NodeId} (missing : s.network.nodes.length ≤ id) :
      Changed s (.register name id) [] s
  | taken {name : String} (id : NodeId) (old : s.network.find? name ≠ none) :
      Changed s (.register name id) [.nameTaken name] (s.note (.nameTaken name))
  | called {c : Call} {es : List Event} {t : Session} (course : Course s es t) : Changed s (.call c) es t
  | told {id : NodeId} {message : Message} {node : Node} {reply : Except NodeError Unit} {es : List Event}
      {t : Session} (idle : s.network.isBusy id = false) (handled : Handled id message s node reply es t) :
      Changed s (.tell id message)
        (handlerNotes s.network.running id message (node.respond message).notes es) (t.finish id)
  | untold (id : NodeId) (message : Message) : Changed s (.tell id message) [] s
  | mail (id : NodeId) : Changed s (.takeMail id) [] { s with network := (s.network.takeMail id).2 }

theorem change_changed (s : Session) (c : Change) : ∃ es, Changed s c es (s.change c).2 := by
  cases c with
  | make node => exact ⟨_, .made node⟩
  | register name id =>
    simp only [change, register]
    split
    · next free =>
      split
      · next made => exact ⟨_, .bound free made⟩
      · next unmade => exact ⟨_, .unmade name (Nat.le_of_not_lt unmade)⟩
    · next old => exact ⟨_, .taken id old⟩
  | call c =>
    obtain ⟨es, course⟩ := perform_course c s
    exact ⟨es, .called course⟩
  | tell id message =>
    simp only [change, tell?]
    split
    · next answer t told =>
      split at told
      · cases told
      · next idle =>
        obtain ⟨node, reply, es, t, handled, heq⟩ := runs_enter _ _ _ _ _ told
        cases heq
        exact ⟨_, .told (by simpa using idle) handled⟩
    · exact ⟨_, .untold id message⟩
  | takeMail id => exact ⟨_, .mail id⟩

namespace Changed
variable {s t : Session} {c : Change} {es : List Event}

theorem trace (h : Changed s c es t) : t.trace = es ++ s.trace := by
  cases h with
  | made | bound | unmade | taken | untold | mail => rfl
  | called course => exact course.trace
  | told _ handled => simp [handlerNotes, handled.calls.trace]

/-- No change leaves a handler running, and none ends one that ran before. -/
theorem running (h : Changed s c es t) : t.network.running = s.network.running := by
  cases h with
  | made | bound | unmade | taken | untold => rfl
  | called course => exact course.running
  | told _ handled => simp [handled.calls.running]
  | mail id =>
    simp only [Network.takeMail]
    split <;> rfl

theorem orderly (h : Changed s c es t) :
    Event.runningAfter s.network.running es = s.network.running ∧ Event.Orderly s.network.running es := by
  cases h with
  | made | unmade | untold | mail => exact ⟨rfl, trivial⟩
  | bound | taken => exact ⟨rfl, trivial, trivial⟩
  | called course => exact course.orderly
  | told idle handled =>
    exact handlerNotes_orderly (not_mem_running idle) (fun _ => Node.source_of_mem_notes) handled.calls.orderly

theorem source (h : Changed s c es t) : ∀ e ∈ es, e.source = .network ∨ e.source = .node := by
  cases h with
  | made | unmade | untold | mail => exact fun _ he => nomatch he
  | bound | taken =>
    intro e he
    obtain rfl := List.mem_singleton.mp he
    exact Or.inl rfl
  | called course => exact course.source
  | told _ handled => exact handlerNotes_source (fun _ => Node.source_of_mem_notes) handled.calls.source

end Changed

/-! ### The network at work for others -/

/-- What is asked of a network runs no handler beyond its end, and only the network and its nodes note
something of it. -/
structure Tidy (s t : Session) : Prop where
  running : t.network.running = s.network.running
  notes : ∃ es, t.trace = es ++ s.trace ∧ ∀ e ∈ es, e.source = .network ∨ e.source = .node

theorem change_tidy (c : Change) (s : Session) : s.Tidy (s.change c).2 := by
  obtain ⟨es, changed⟩ := change_changed s c
  exact ⟨changed.running, es, changed.trace, changed.source⟩

theorem perform_tidy (c : Call) (s : Session) : s.Tidy (s.perform c).2 := change_tidy (.call c) s

theorem addInbox_tidy (name : String) (s : Session) : s.Tidy (s.addInbox name).2 := by
  have registered : ∀ {answer u}, Session.register { s with network := (s.network.add (.inbox [])).2 } name
      s.network.nodes.length = (answer, u) → s.Tidy u := by
    intro answer u h
    have tidy := change_tidy (.register name s.network.nodes.length)
      { s with network := (s.network.add (.inbox [])).2 }
    simp only [change, h] at tidy
    exact ⟨tidy.running, tidy.notes⟩
  unfold addInbox
  dsimp only
  split
  · next h => exact registered h
  · next h => exact ⟨rfl, (registered h).notes⟩

theorem takeMail_tidy (id : NodeId) (s : Session) : s.Tidy (s.takeMail id).2 := by
  obtain ⟨running, notes⟩ := change_tidy (.takeMail id) s
  exact ⟨running, notes⟩

theorem takeMail?_tidy (id : NodeId) (s : Session) : s.Tidy (s.takeMail? id).2 := by
  unfold takeMail?
  split
  · exact ⟨rfl, [], rfl, by simp⟩
  · exact takeMail_tidy id s

theorem takeMail?_of_rest {s : Session} (rest : s.network.running = []) (id : NodeId) :
    ∃ payload, (s.takeMail? id).1 = some payload := by
  have idle : s.network.isBusy id = false := by simp [Network.isBusy, rest]
  simp [takeMail?, idle]

/-! ### Lists of changes -/

@[simp] theorem after_nil (s : Session) : s.after [] = s := rfl

@[simp] theorem after_cons (s : Session) (c : Change) (changes : List Change) :
    s.after (c :: changes) = (s.change c).2.after changes := rfl

/-- Whatever is done with a network, what is noted is orderly, and the handlers that ran before run
afterwards. -/
theorem after_orderly (s : Session) (changes : List Change) :
    (s.after changes).network.running = s.network.running ∧
    ∃ es, (s.after changes).trace = es ++ s.trace ∧
      Event.runningAfter s.network.running es = s.network.running ∧ Event.Orderly s.network.running es := by
  induction changes generalizing s with
  | nil => exact ⟨rfl, [], rfl, rfl, trivial⟩
  | cons c rest ih =>
    obtain ⟨es, changed⟩ := change_changed s c
    obtain ⟨running, fs, trace, hr, ho⟩ := ih (s.change c).2
    rw [changed.running] at running hr ho
    refine ⟨running, fs ++ es, ?_, ?_, ?_⟩
    · rw [after_cons, trace, changed.trace, List.append_assoc]
    · rw [Event.runningAfter_append, changed.orderly.1, hr]
    · exact Event.orderly_append.mpr ⟨by rw [changed.orderly.1]; exact ho, changed.orderly.2⟩

end Session
end Chip8
