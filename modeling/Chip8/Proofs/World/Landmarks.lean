import Chip8.Proofs.Network.Inbox
import Chip8.Proofs.World.Passage

/-!
What each function of a world makes of the machine, and which landmarks are passed on the way, whatever the
devices and the nodes do. Each function is gone through once. What it can come to is said by a predicate of
the machine and the landmarks, the latest first; an invariant that ties the machine to what was done so far
then needs one case for each constructor.
-/

namespace Chip8

namespace Event

/-- Whether the event is one of a call that is made to choose the program. -/
def isLoad : Event → Bool
  | called (.load _) _ => true
  | _ => false

/-- Whether the event has to do with what the display shows. -/
def concernsDisplay : Event → Bool
  | executed _ | restarted .. | called (.present _) _ => true
  | _ => false

end Event

namespace Machine

/-- Starting over, up to its end or to a failure. -/
inductive Restarts (m : Machine) : Machine → List Event → Prop
  /-- The font does not fit into memory. -/
  | crashed : m.cleared? = none → Restarts m m []
  | unloaded {n loads} : m.cleared? = some n → (∀ e ∈ loads, e.isLoad = true) → Restarts m n loads
  | unshown {n loads program loaded fault} : m.cleared? = some n → (∀ e ∈ loads, e.isLoad = true) →
      n.load? program = some loaded →
      Restarts m loaded.value.2 (.called (.present loaded.value.2.screen) (some fault) :: loads)
  | running {n loads program loaded} : m.cleared? = some n → (∀ e ∈ loads, e.isLoad = true) →
      n.load? program = some loaded →
      Restarts m { loaded.value.2 with status := .running }
        (.restarted loaded.value.1 loaded.value.2.config.bootAddress ::
          .called (.present loaded.value.2.screen) none :: loads)

/-- Doing what an instruction wants done, up to its end or to a failure. -/
inductive Fulfils (done : Executed) : Machine → List Event → Prop
  | kept : done.request ≠ .present → done.request ≠ .reset → Fulfils done done.machine []
  | shown (failure : Option Fault) : done.request = .present →
      Fulfils done done.machine [.called (.present done.machine.screen) failure]
  | restarted {n es} : done.request = .reset → Restarts done.machine n es → Fulfils done n es

/-- A step that comes to its end. -/
inductive Steps (m : Machine) : Machine → List Event → Prop
  | idle : m.status ≠ .running → (∀ register, m.status = .waiting register → m.keys.first? = none) → Steps m m []
  | key {register key} : m.status = .waiting register → m.keys.first? = some key →
      Steps m { m.setRegister register (UInt8.ofNat key.val) with status := .running } []
  | pastEnd : m.status = .running → m.ram.word? m.pc = none → Steps m (m.halt (.outOfBounds m.pc)).value []
  | carried {instruction done n es} : m.next? = some instruction →
      m.counted.execute instruction = some done → Fulfils done.value n es →
      Steps m (n.follow done.value.flow).value.checkEnd.value (es ++ [.executed instruction])

/-- A step that fails. -/
inductive Breaks (m : Machine) : Machine → List Event → Prop
  | crashed {instruction} : m.next? = some instruction → m.counted.execute instruction = none →
      Breaks m m.counted [.executed instruction]
  | failed {instruction done n es} : m.next? = some instruction →
      m.counted.execute instruction = some done →
      done.value.request = .present ∨ done.value.request = .reset → Fulfils done.value n es →
      Breaks m n (es ++ [.executed instruction])

/-- Something that leaves the inbox alone, and the display and what it shows. -/
structure Apart (m n : Machine) (es : List Event) : Prop where
  status : n.status = m.status
  screen : n.screen = m.screen
  inbox : n.inbox = m.inbox
  events : ∀ e ∈ es, e.concernsDisplay = false

/-- What a move comes to that connects no inbox, whether it fails or not. -/
inductive Moves (m : Machine) : Machine → List Event → Prop
  | restarted {n es} : Restarts m n es → Moves m n es
  | stepped {n es} : Steps m n es → Moves m n es
  | broken {n es} : Breaks m n es → Moves m n es
  | apart {n es} : Apart m n es → Moves m n es

theorem Apart.refl (m : Machine) : Apart m m [] := ⟨rfl, rfl, rfl, fun _ h => nomatch h⟩

/-- What is done with a machine between its instructions: texts are put into its memory, its keys are read, and its
timers tick. -/
structure Tended (m n : Machine) (es : List Event) : Prop where
  kept : ∃ ram keys dt st toneOn, n = { m with ram, keys, dt, st, toneOn }
  events : ∀ e ∈ es, e.concernsDisplay = false

namespace Tended
variable {m n : Machine} {e : Event} {es : List Event}

theorem refl (m : Machine) : Tended m m [] := ⟨⟨_, _, _, _, _, rfl⟩, fun _ h => nomatch h⟩

theorem cons (h : Tended m n es) (apart : e.concernsDisplay = false) : Tended m n (e :: es) :=
  ⟨h.kept, List.forall_mem_cons.mpr ⟨apart, h.events⟩⟩

theorem apart (h : Tended m n es) : Apart m n es := by
  obtain ⟨⟨_, _, _, _, _, rfl⟩, events⟩ := h
  exact ⟨rfl, rfl, rfl, events⟩

end Tended

end Machine

namespace Act
open Machine

variable {δ : Type} {Work : Session → Session → Prop} {m : Machine} {before : List Event}
  {E : Machine → List Event → Prop}

/-! ### Steps -/

theorem awaitKey_passes {register : Register} (waiting : m.status = .waiting register) :
    Passes Work m [] (awaitKey m register : Act δ Unit) (fun _ => m.Steps) E := by
  unfold awaitKey
  split
  · next none =>
    refine .pure (.idle (by simp [waiting]) ?_)
    intro _ _
    exact none
  · next key first => exact .setMachine_bind (.note rfl (.key waiting first))

section
variable [Devices δ]

theorem present_passes (failed : ∀ fault, E m (.called (.present m.screen) (some fault) :: before)) :
    Passes Work m before (present : Act δ Unit)
      (fun _ after es => after = m ∧ es = .called (.present m.screen) none :: before) E :=
  .machine_bind (.callDevice (fun _ => ⟨rfl, rfl⟩) failed)

theorem chooseProgram_passes (config : Config) :
    Passes Work m [] (chooseProgram config : Act δ (List UInt8))
      (fun _ after es => after = m ∧ ∀ e ∈ es, e.isLoad = true)
      fun after es => after = m ∧ ∀ e ∈ es, e.isLoad = true := by
  have called : ∀ path failure, ∀ e ∈ [Event.called (.load path) failure], e.isLoad = true := by
    intro path failure e he
    obtain rfl := List.mem_singleton.mp he
    rfl
  unfold chooseProgram
  split
  · exact .pure ⟨rfl, fun _ h => nomatch h⟩
  · exact .callDevice (fun _ => ⟨rfl, called _ none⟩) fun fault => ⟨rfl, called _ (some fault)⟩
  · exact .pure ⟨rfl, fun _ h => nomatch h⟩

theorem reset_passes : Passes Work m [] (reset : Act δ Unit) (fun _ => m.Restarts) m.Restarts := by
  refine .machine_bind (.require_bind (fun n cleared => ?_) .crashed)
  refine .setMachine_bind (((chooseProgram_passes n.config).mono (fun _ _ _ => id) ?_).bind ?_)
  · rintro _ loads ⟨rfl, loading⟩
    exact .unloaded cleared loading
  rintro program _ loads ⟨rfl, loading⟩
  refine .require_bind (fun loaded found => ?_) fun _ => .unloaded cleared loading
  refine .noted_bind (asides_load found) (.setMachine_bind ?_)
  refine (present_passes fun _ => .unshown cleared loading found).bind ?_
  rintro _ _ _ ⟨rfl, rfl⟩
  exact .setMachine_bind (.landmark rfl (.running cleared loading found))

omit [Devices δ] in
theorem call_passes (calls : ∀ c s, Work s (s.perform c).2) (c : Call) :
    Passes Work m before (call c : Act δ Unit) (fun _ after es => after = m ∧ es = before) E :=
  (Passes.onNetwork (calls c)).silent_bind fun _ => .pure ⟨rfl, rfl⟩

/-- The work of the network only matters if a wish has to do with it. -/
theorem fulfil_passes {done : Executed} (calls : done.request.isLocal = false → ∀ c s, Work s (s.perform c).2) :
    Passes Work done.machine [] (fulfil done.request : Act δ Unit) (fun _ => Fulfils done)
      fun n es => (done.request = .present ∨ done.request = .reset) ∧ Fulfils done n es := by
  rcases wish : done.request with _ | _ | envelope | _
  · exact .pure (.kept (by simp [wish]) (by simp [wish]))
  · refine (present_passes fun fault => ⟨Or.inl rfl, .shown (some fault) wish⟩).mono ?_ fun _ _ => id
    rintro _ _ _ ⟨rfl, rfl⟩
    exact .shown none wish
  · refine (call_passes (calls (by rw [wish]; rfl)) _).mono ?_ fun _ _ => id
    rintro _ _ _ ⟨rfl, rfl⟩
    exact .kept (by simp [wish]) (by simp [wish])
  · have started : Passes Work done.machine [] (reset : Act δ Unit) (fun _ => Fulfils done)
        fun n es => (Request.reset = .present ∨ Request.reset = .reset) ∧ Fulfils done n es :=
      reset_passes.mono (fun _ _ _ => .restarted wish) fun _ _ again => ⟨Or.inr rfl, .restarted wish again⟩
    -- The call that tells the nodes of the reset is made after it, and passes nothing.
    refine started.bind fun _ n es fulfilled => ?_
    refine (call_passes (calls (by rw [wish]; rfl)) _).mono ?_ fun _ _ => id
    rintro _ _ _ ⟨rfl, rfl⟩
    exact fulfilled

section
variable (calls : m.Secluded ∨ ∀ c s, Work s (s.perform c).2)
include calls

theorem carryOut_passes {word : UInt16} (running : m.status = .running) (found : m.ram.word? m.pc = some word) :
    Passes Work m [] (carryOut ⟨word⟩ : Act δ Unit) (fun _ => m.Steps) m.Breaks := by
  have next : m.next? = some (Instruction.decode ⟨word⟩ m.config.compatibility) :=
    next?_eq_some_iff.mpr ⟨running, word, found, rfl⟩
  refine .machine_bind (.setMachine_bind ?_)
  have dumped : Passes Work m.counted [] (dumpRegisters m.counted ⟨word⟩ : Act δ Unit)
      (fun _ after es => after = m.counted ∧ es = []) m.Breaks :=
    .whenever (fun _ => .note rfl ⟨rfl, rfl⟩) fun _ => ⟨rfl, rfl⟩
  refine dumped.silent_bind fun _ => .landmark_bind rfl (.require_bind (fun done executed => ?_) (.crashed next))
  have wanted : done.value.request.isLocal = false → ∀ c s, Work s (s.perform c).2 := by
    intro outside
    refine calls.resolve_left fun secluded => ?_
    simp [secluded _ _ next executed] at outside
  refine .noted_bind (asides_execute executed) (.setMachine_bind ?_)
  refine ((fulfil_passes wanted).later.mono (fun _ _ _ => id) ?_).bind ?_
  · rintro n _ ⟨new, rfl, wish, fulfilled⟩
    exact .failed next executed wish fulfilled
  rintro _ n _ ⟨new, rfl, fulfilled⟩
  refine .machine_bind (.noted_bind (asides_follow _) (.noted_bind asides_checkEnd (.setMachine ?_)))
  exact .carried next executed fulfilled

theorem step_passes : Passes Work m [] (step : Act δ Unit) (fun _ => m.Steps) m.Breaks := by
  refine .machine_bind ?_
  split
  · next off => exact .pure (.idle (by simp [off]) (by simp [off]))
  · next halted => exact .pure (.idle (by simp [halted]) (by simp [halted]))
  · next register waiting => exact awaitKey_passes waiting
  · next running =>
    split
    · next word found => exact carryOut_passes calls running found
    · next outside => exact .noted_bind (asides_halt _) (.setMachine (.pastEnd running outside))

end

end

/-! ### Frames -/

theorem receive_passes (text : String) :
    Passes Work m before (receive text : Act δ Nat) (fun _ n es => n = (m.receive text).value.2 ∧ es = before) E :=
  .machine_bind (.noted_bind (asides_receive text) (.setMachine_bind (.pure ⟨rfl, rfl⟩)))

theorem writeAscii_passes (addr : UInt16) (text : String) :
    Passes Work m before (writeAscii addr text : Act δ Nat)
      (fun _ n es => n = (m.writeAscii addr text).value.2 ∧ es = before) E :=
  .machine_bind (.noted_bind (asides_writeAscii addr text) (.setMachine_bind (.pure ⟨rfl, rfl⟩)))

section
variable [Devices δ] {n : Machine}

theorem pollKeys_passes (failed : ∀ fault, E m (.called .keys (some fault) :: before)) :
    Passes Work m before (pollKeys : Act δ Unit)
      (fun _ n es => (∃ keys, n = { m with keys }) ∧ es = .called .keys none :: before) E := by
  have read : Passes Work m before (readKeys : Act δ Keys)
      (fun _ after es => after = m ∧ es = .called .keys none :: before) E :=
    .callDevice (fun _ => ⟨rfl, rfl⟩) failed
  refine read.bind ?_
  rintro keys _ _ ⟨rfl, rfl⟩
  exact .machine_bind (.setMachine ⟨⟨keys, rfl⟩, rfl⟩)

theorem silence_passes (h : m.Tended n before) :
    Passes Work n before (silence : Act δ Unit) (fun _ => m.Tended) m.Tended := by
  refine .machine_bind (.whenever (fun _ => ?_) fun _ => h)
  have stopped : Passes Work n before (stopTone : Act δ Unit)
      (fun _ after es => after = n ∧ es = .called .stop none :: before) m.Tended :=
    .callDevice (fun _ => ⟨rfl, rfl⟩) fun _ => h.cons rfl
  refine stopped.bind ?_
  rintro _ _ _ ⟨rfl, rfl⟩
  obtain ⟨⟨_, _, _, _, _, rfl⟩, events⟩ := h.cons (e := .called .stop none) rfl
  exact .setMachine ⟨⟨_, _, _, _, _, rfl⟩, events⟩

theorem soundTone_passes (h : m.Tended n before) :
    Passes Work n before (soundTone : Act δ Unit) (fun _ => m.Tended) m.Tended := by
  refine .machine_bind (.whenever (fun _ => ?_) fun _ => h)
  have beeped : Passes Work n before (beep : Act δ Unit)
      (fun _ after es => after = n ∧ es = .called .beep none :: before) m.Tended :=
    .callDevice (fun _ => ⟨rfl, rfl⟩) fun _ => h.cons rfl
  refine beeped.bind ?_
  rintro _ _ _ ⟨rfl, rfl⟩
  obtain ⟨⟨_, _, _, _, _, rfl⟩, events⟩ := h.cons (e := .called .beep none) rfl
  exact .setMachine ⟨⟨_, _, _, _, _, rfl⟩, events⟩

theorem tickTimers_passes : Passes Work m [] (tickTimers : Act δ Unit) (fun _ => m.Tended) m.Tended := by
  refine .machine_bind (.whenever (fun _ => ?_) fun _ => .refl m)
  refine (silence_passes (.refl m)).bind ?_
  rintro _ _ es ⟨⟨_, _, _, _, _, rfl⟩, events⟩
  refine .machine_bind (.setMachine_bind ?_)
  refine Passes.bind (soundTone_passes (m := m) ⟨⟨_, _, _, _, _, rfl⟩, events⟩) ?_
  rintro _ _ fs ⟨⟨_, _, _, _, _, rfl⟩, events⟩
  exact .machine_bind (.setMachine ⟨⟨_, _, _, _, _, rfl⟩, events⟩)

end
end Act

/-! ### Mail -/

namespace World
variable {δ : Type}

/-- The payload that the next frame takes out of the mail. -/
def mail? (w : World δ) : Option String := w.machine.inbox.bind fun id => (w.network.takeMail id).1

/-- What taking a message out of the mail comes to: its result and the world afterwards. -/
inductive Delivers (w : World δ) : Except Fault Unit → World δ → Prop
  | nothing : w.mail? = none → Delivers w (.ok ()) w
  | busy {id} : w.machine.inbox = some id → w.network.isBusy id = true → Delivers w (.error .crash) w
  | taken {id payload rest es} : w.machine.inbox = some id → w.network.isBusy id = false →
      w.network.nodes[id]? = some (.inbox (payload :: rest)) → Asides es →
      Delivers w (.ok ())
        { w with
          machine := (w.machine.receive payload).value.2
          network := w.network.replace id (.inbox rest)
          trace := es ++ .mailTaken payload :: w.trace }

theorem delivers_deliverMail (w : World δ) : w.Delivers (Act.deliverMail w).1 (Act.deliverMail w).2 := by
  apply Act.Ends.answer
  unfold Act.deliverMail
  rw [Act.ends_bind, Act.ends_machine]
  split
  · next unconnected => exact .nothing (by simp [mail?, unconnected])
  · next id connected =>
    rw [Act.ends_bind, Act.ends_onNetwork, Act.ends_bind]
    by_cases busy : w.network.isBusy id = true
    · simp only [Session.takeMail?, busy, if_true]
      exact .busy connected busy
    · simp only [Session.takeMail?, busy, Bool.false_eq_true, if_false, Session.takeMail, Network.takeMail]
      split
      · next payload rest inbox =>
        have received : Asides (w.machine.receive payload).notes.reverse :=
          fun e he => Machine.asides_receive payload e (List.mem_reverse.mp he)
        rw [Act.ends_require_some]
        simp only [Act.receive, Act.ends_bind, Act.ends_note, Act.ends_machine, Act.ends_noted, Act.ends_setMachine,
          Act.ends_onNetwork, Act.ends_pure]
        unfold Act.whenever
        split
        · have queued : ∀ count, Asides (.mailQueued count :: (w.machine.receive payload).notes.reverse) :=
            fun count => asides_cons.mpr ⟨rfl, received⟩
          exact .taken connected (by simpa using busy) inbox (queued _)
        · exact .taken connected (by simpa using busy) inbox received
      · next other =>
        refine .nothing ?_
        simp only [mail?, connected, Option.bind_some, Network.takeMail]

/-- What giving the machine an inbox comes to. -/
inductive Connects (w : World δ) : Except Fault (Except RouteError Unit) → World δ → Prop
  | connected {s : Session} : s.network.nodes = w.network.nodes ++ [.inbox []] → s.network.running = w.network.running →
      s.trace = .registered w.machine.config.inboxName w.network.nodes.length :: w.trace →
      Connects w (.ok (.ok ()))
        { w with
          machine := { w.machine with inbox := some w.network.nodes.length }
          network := s.network
          trace := s.trace }
  | refused (cause : RouteError) :
      Connects w (.ok (.error cause)) { w with trace := .nameTaken w.machine.config.inboxName :: w.trace }

theorem connects_connectInbox (w : World δ) : w.Connects (Act.connectInbox w).1 (Act.connectInbox w).2 := by
  apply Act.Ends.answer
  unfold Act.connectInbox
  rw [Act.ends_bind, Act.ends_machine, Act.ends_bind, Act.ends_onNetwork]
  have added := Session.addInbox_added w.machine.config.inboxName w.session
  have tidy := Session.addInbox_tidy w.machine.config.inboxName w.session
  unfold World.session at added tidy
  generalize Session.addInbox _ _ = answer at added tidy
  cases added with
  | bound nodes trace => exact .connected nodes tidy.running trace
  | taken cause => exact .refused cause

end World

/-! ### Moves -/

namespace Act
open Machine

variable {δ : Type} [Devices δ] {Work : Session → Session → Prop} {m : Machine}

/-- The moves that neither carry out an instruction nor start over, and have nothing to do with the mail. -/
theorem tend_passes {mv : Move} (step : mv ≠ .step) (reset : mv ≠ .reset) (mail : mv ≠ .deliverMail)
    (connect : mv ≠ .connectInbox) (changes : ∀ c, mv = .network c → ∀ s, Work s (s.change c).2) :
    Passes Work m [] (move mv : Act δ Unit) (fun _ => m.Tended) m.Tended := by
  cases mv with
  | reset => exact absurd rfl reset
  | step => exact absurd rfl step
  | tickTimers => exact tickTimers_passes
  | receive text =>
    refine (receive_passes text).bind ?_
    rintro _ _ _ ⟨rfl, rfl⟩
    exact .pure ⟨⟨_, _, _, _, _, rfl⟩, fun _ h => nomatch h⟩
  | writeAscii addr text =>
    refine (writeAscii_passes addr text).bind ?_
    rintro _ _ _ ⟨rfl, rfl⟩
    exact .pure ⟨⟨_, _, _, _, _, rfl⟩, fun _ h => nomatch h⟩
  | connectInbox => exact absurd rfl connect
  | deliverMail => exact absurd rfl mail
  | pollKeys =>
    refine (pollKeys_passes fun fault => (Tended.refl m).cons rfl).mono ?_ fun _ _ => id
    rintro _ _ _ ⟨⟨keys, rfl⟩, rfl⟩
    exact ⟨⟨_, _, _, _, _, rfl⟩, by simp [Event.concernsDisplay]⟩
  | endFrames ticks => exact .machine_bind (.note rfl (.refl m))
  | network change => exact (Passes.onNetwork (changes change rfl)).silent_bind fun _ => .pure (.refl m)

/-- The moves that neither take mail nor connect an inbox. Of the work that they leave to the network only
calls and, if it is asked for, a change matter. -/
theorem move_passes {mv : Move} (mail : mv ≠ .deliverMail) (connect : mv ≠ .connectInbox)
    (calls : ∀ c s, Work s (s.perform c).2) (changes : ∀ c, mv = .network c → ∀ s, Work s (s.change c).2) :
    Passes Work m [] (move mv : Act δ Unit) (fun _ => m.Moves) m.Moves := by
  by_cases step : mv = .step
  · subst step
    exact (step_passes (Or.inr calls)).mono (fun _ _ _ => .stepped) fun _ _ => .broken
  by_cases reset : mv = .reset
  · subst reset
    exact reset_passes.mono (fun _ _ _ => .restarted) fun _ _ => .restarted
  · exact (tend_passes step reset mail connect changes).mono (fun _ _ _ h => .apart h.apart) fun _ _ h => .apart h.apart

end Act

namespace World
variable {δ : Type} [Devices δ]

theorem after_connectInbox (w : World δ) : (Act.move .connectInbox w).2 = (Act.connectInbox w).2 :=
  Act.snd_bind_pure ..

/-- A move that neither carries out an instruction nor starts over tends to the machine, or gives it an inbox. -/
theorem tended_move (w : World δ) {mv : Move} (step : mv ≠ .step) (reset : mv ≠ .reset) :
    ∃ new, (Act.move mv w).2.trace = new ++ w.trace ∧
      (w.machine.Tended (Act.move mv w).2.machine (landmarks new) ∨
        (∃ inbox, (Act.move mv w).2.machine = { w.machine with inbox }) ∧ landmarks new = []) := by
  by_cases mail : mv = .deliverMail
  · subst mail
    have delivers := w.delivers_deliverMail
    change w.Delivers (Act.move .deliverMail w).1 (Act.move .deliverMail w).2 at delivers
    generalize Act.move .deliverMail w = ended at delivers
    obtain ⟨result, after⟩ := ended
    cases delivers with
    | nothing | busy => exact ⟨[], rfl, Or.inl (.refl _)⟩
    | @taken id payload rest es connected idle inbox asides =>
      refine ⟨es ++ [.mailTaken payload], by simp, ?_⟩
      rw [landmarks_append, landmarks_of_asides asides]
      exact Or.inl ⟨⟨_, _, _, _, _, rfl⟩, fun _ h => nomatch h⟩
  by_cases connect : mv = .connectInbox
  · subst connect
    have connects := w.connects_connectInbox
    rw [after_connectInbox]
    generalize Act.connectInbox w = ended at connects
    obtain ⟨result, after⟩ := ended
    cases connects with
    | connected nodes running trace => exact ⟨[_], trace, Or.inr ⟨⟨_, rfl⟩, rfl⟩⟩
    | refused cause => exact ⟨[_], rfl, Or.inl (.refl _)⟩
  · obtain ⟨new, trace, tended⟩ :=
      (Act.tend_passes step reset mail connect fun c _ => Session.change_tidy c).noted (w := w) rfl
    exact ⟨new, trace, Or.inl tended⟩

theorem moves_move (w : World δ) (mv : Move) :
    ∃ new, (Act.move mv w).2.trace = new ++ w.trace ∧
      (w.machine.Moves (Act.move mv w).2.machine (landmarks new) ∨
        (∃ inbox, (Act.move mv w).2.machine = { w.machine with inbox }) ∧ landmarks new = []) := by
  by_cases own : mv = .step ∨ mv = .reset
  · have mail : mv ≠ .deliverMail := by rcases own with rfl | rfl <;> exact Move.noConfusion
    have connect : mv ≠ .connectInbox := by rcases own with rfl | rfl <;> exact Move.noConfusion
    obtain ⟨new, trace, moves⟩ :=
      (Act.move_passes mail connect Session.perform_tidy fun c _ => Session.change_tidy c).noted (w := w) rfl
    exact ⟨new, trace, Or.inl moves⟩
  · obtain ⟨step, reset⟩ := not_or.mp own
    obtain ⟨new, trace, tended | connected⟩ := w.tended_move step reset
    · exact ⟨new, trace, Or.inl (.apart tended.apart)⟩
    · exact ⟨new, trace, Or.inr connected⟩

/-- Nothing that was noted is forgotten. -/
theorem Reaches.trace {w after : World δ} (h : w.Reaches after) : ∃ new, after.trace = new ++ w.trace := by
  obtain ⟨list, rfl⟩ := h
  induction list generalizing w with
  | nil => exact ⟨[], rfl⟩
  | cons mv rest ih =>
    obtain ⟨new, trace, -⟩ := w.moves_move mv
    obtain ⟨later, trace'⟩ := ih (w := (Act.move mv w).2)
    rw [through_cons]
    exact ⟨later ++ new, by rw [trace', trace, List.append_assoc]⟩

end World
end Chip8
