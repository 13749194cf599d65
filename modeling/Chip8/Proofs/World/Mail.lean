import Chip8.Bench
import Chip8.Proofs.World.Frames

/-!
The mail of a machine. Payloads are taken out of the inbox in the order in which it accepted them, each once;
whatever else is done with the machine and with the network around it neither drops one nor brings one in
twice. A frame takes at most one, and what it takes it copies into the text window, where the program can see
it until the next one comes if the frame goes on to carry out an instruction.
-/

namespace Chip8

namespace Event

/-- The payload that the machine takes out of its mail. -/
def taken? : Event → Option String
  | mailTaken payload => some payload
  | _ => none

/-- The payloads that the machine takes out of its mail, the oldest first; of events the latest is first. -/
def takenIn (events : List Event) : List String := events.reverse.filterMap taken?

variable {events later : List Event}

@[simp] theorem takenIn_append : takenIn (later ++ events) = takenIn events ++ takenIn later := by
  simp [takenIn]

theorem takenIn_cons {e : Event} : takenIn (e :: events) = takenIn events ++ e.taken?.toList := by
  cases taken : e.taken? <;> simp [takenIn, taken]

theorem takenIn_eq_nil (h : ∀ e ∈ events, e.isMail = false) : takenIn events = [] := by
  refine List.filterMap_eq_nil_iff.mpr fun e he => ?_
  have other := h e (List.mem_reverse.mp he)
  cases e with
  | mailTaken => cases other
  | _ => rfl

theorem takenIn_of_asides (h : Asides events) : takenIn events = [] :=
  takenIn_eq_nil fun e he => (plain_of_isAside (h e he)).2

theorem acceptedBy_of_asides {id : NodeId} (h : Asides events) : acceptedBy id events = [] :=
  acceptedBy_of_source fun e he => source_of_isAside (h e he)

end Event

open Event

/-! ### The inbox of a machine -/

namespace Machine
variable {m n : Machine} {es : List Event}

theorem Restarts.inbox (h : m.Restarts n es) : n.inbox = m.inbox := by
  cases h with
  | crashed => rfl
  | unloaded cleared =>
    obtain ⟨ram, -, rfl⟩ := Option.map_eq_some_iff.mp cleared
    rfl
  | unshown cleared _ found | running cleared _ found =>
    obtain ⟨ram, -, rfl⟩ := Option.map_eq_some_iff.mp cleared
    obtain ⟨memory, -, rfl⟩ := Option.map_eq_some_iff.mp found
    rfl

theorem Fulfils.inbox {done : Executed} (h : Fulfils done n es) : n.inbox = done.machine.inbox := by
  cases h with
  | kept | shown => rfl
  | restarted _ again => exact again.inbox

theorem Steps.inbox (h : m.Steps n es) : n.inbox = m.inbox := by
  cases h with
  | idle | key | pastEnd => rfl
  | @carried _ done n _ _ executed fulfilled =>
    obtain ⟨pc, status, same⟩ := settled n done.value.flow
    rw [same]
    exact fulfilled.inbox.trans (outward_of_execute executed).inbox

theorem Breaks.inbox (h : m.Breaks n es) : n.inbox = m.inbox := by
  cases h with
  | crashed => rfl
  | failed _ executed _ fulfilled => exact fulfilled.inbox.trans (outward_of_execute executed).inbox

/-- Only connecting an inbox gives the machine another one. -/
theorem Moves.inbox (h : m.Moves n es) : n.inbox = m.inbox := by
  cases h with
  | restarted h => exact h.inbox
  | stepped h => exact h.inbox
  | broken h => exact h.inbox
  | apart h => exact h.inbox

end Machine

/-- Work of the network that takes nothing out of an inbox. -/
def Session.SparesMail (id : NodeId) (s t : Session) : Prop := s.Tidy t ∧ s.Fills id t

/-- A passage fills an inbox as the work of the network does. -/
theorem Session.Passage.fills {Work : Session → Session → Prop} {s t : Session} {es : List Event} {id : NodeId}
    (h : Passage Work s es t) (works : ∀ s t, Work s t → Fills id s t) : Fills id s t := by
  induction h with
  | refl s => exact .of_noted rfl (List.nil_append _).symm rfl
  | trans _ _ ih₁ ih₂ => exact ih₁.trans ih₂
  | @aside s e h =>
    refine .of_noted rfl (List.singleton_append ..).symm (acceptedBy_of_asides ?_)
    simpa using h
  | @landmark s e h =>
    refine .of_noted rfl (List.singleton_append ..).symm (acceptedBy_of_source ?_)
    simp [source_of_isLandmark h]
  | work h => exact works _ _ h

namespace World
variable {δ : Type} {id : NodeId} {start w : World δ}

/-- Since a start, what an inbox has accepted was taken out of it or stands in its queue; unless the machine
has got a newer one meanwhile. -/
structure Accounts (id : NodeId) (start w : World δ) : Prop where
  running : w.network.running = start.network.running
  mail : ∃ es queue, w.trace = es ++ start.trace ∧ w.network.nodes[id]? = some (.inbox queue) ∧
    (w.machine.inbox = some id ∧ acceptedBy id es = takenIn es ++ queue ∨
      ∃ k, w.machine.inbox = some k ∧ id < k)

theorem inbox_move [Devices δ] {mv : Move} (connect : mv ≠ .connectInbox) :
    (Act.move mv w).2.machine.inbox = w.machine.inbox := by
  by_cases mail : mv = .deliverMail
  · subst mail
    have delivers := w.delivers_deliverMail
    change w.Delivers (Act.move .deliverMail w).1 (Act.move .deliverMail w).2 at delivers
    generalize Act.move .deliverMail w = ended at delivers
    obtain ⟨result, after⟩ := ended
    cases delivers <;> rfl
  · obtain ⟨es, passage, moves⟩ :=
      (Act.move_passes mail connect Session.perform_tidy fun c _ => Session.change_tidy c).after (w := w) rfl
    exact moves.inbox

/-- A machine keeps its inbox until it is given another one. -/
theorem ReachesBy.inbox [Devices δ] {later : World δ} (reached : w.ReachesBy (· ≠ .connectInbox) later) :
    later.machine.inbox = w.machine.inbox := by
  obtain ⟨moves, others, rfl⟩ := reached
  induction moves generalizing w with
  | nil => rfl
  | cons mv rest ih =>
    obtain ⟨first, others⟩ := List.forall_mem_cons.mp others
    rw [through_cons]
    exact (ih others).trans (inbox_move first)

namespace Accounts

theorem delivers {result : Except Fault Unit} {after : World δ} (h : Accounts id start w)
    (delivers : w.Delivers result after) : Accounts id start after := by
  cases delivers with
  | nothing | busy => exact h
  | @taken k payload rest new connected idle inbox asides =>
    obtain ⟨es, queue, trace, found, account⟩ := h.mail
    have noted : new ++ .mailTaken payload :: w.trace = (new ++ .mailTaken payload :: es) ++ start.trace := by
      simp [trace]
    rcases account with ⟨mine, account⟩ | ⟨newer, theirs, higher⟩
    · obtain rfl := Option.some.inj (connected.symm.trans mine)
      cases inbox.symm.trans found
      obtain ⟨made, -⟩ := List.getElem?_eq_some_iff.mp found
      refine ⟨h.running, _, rest, noted, List.getElem?_set_self made, Or.inl ⟨connected, ?_⟩⟩
      rw [acceptedBy_append, takenIn_append, acceptedBy_of_asides asides, takenIn_of_asides asides, acceptedBy_cons,
        takenIn_cons, account]
      simp [accepted?, taken?]
    · obtain rfl := Option.some.inj (connected.symm.trans theirs)
      refine ⟨h.running, _, queue, noted, ?_, Or.inr ⟨k, theirs, higher⟩⟩
      exact (List.getElem?_set_ne (Nat.ne_of_gt higher)).trans found

theorem connects {result : Except Fault (Except RouteError Unit)} {after : World δ} (h : Accounts id start w)
    (connects : w.Connects result after) : Accounts id start after := by
  obtain ⟨es, queue, trace, found, account⟩ := h.mail
  obtain ⟨made, -⟩ := List.getElem?_eq_some_iff.mp found
  cases connects with
  | @connected s nodes running noted =>
    have kept : s.network.nodes[id]? = some (.inbox queue) := by
      rw [nodes, List.getElem?_append_left made]
      exact found
    rw [trace] at noted
    exact ⟨running.trans h.running, _ :: es, queue, noted, kept, Or.inr ⟨_, rfl, made⟩⟩
  | refused cause =>
    refine ⟨h.running, .nameTaken w.machine.config.inboxName :: es, queue, by rw [trace]; rfl, found, ?_⟩
    rcases account with ⟨mine, account⟩ | newer
    · refine Or.inl ⟨mine, ?_⟩
      rw [acceptedBy_cons, takenIn_cons, account]
      simp [accepted?, taken?]
    · exact Or.inr newer

theorem fills {after : World δ} {new : List Event} (h : Accounts id start w)
    (running : after.network.running = w.network.running) (inbox : after.machine.inbox = w.machine.inbox)
    (fills : w.session.Fills id after.session) (trace : after.trace = new ++ w.trace)
    (plain : ∀ e ∈ new, e.isMail = false) : Accounts id start after := by
  obtain ⟨es, queue, begun, found, account⟩ := h.mail
  obtain ⟨new', trace', grows⟩ := fills
  obtain rfl := List.append_cancel_right (trace.symm.trans trace')
  refine ⟨running.trans h.running, new ++ es, _, by rw [trace, begun, List.append_assoc], grows queue found, ?_⟩
  rcases account with ⟨mine, account⟩ | ⟨k, theirs, higher⟩
  · refine Or.inl ⟨inbox.trans mine, ?_⟩
    rw [acceptedBy_append, takenIn_append, takenIn_eq_nil plain, account]
    simp
  · exact Or.inr ⟨k, inbox.trans theirs, higher⟩

variable [Devices δ]

/-- Whatever is done, short of taking mail out of the inbox from outside. -/
theorem move (h : Accounts id start w) {mv : Move} (kept : mv ≠ .network (.takeMail id)) :
    Accounts id start (Act.move mv w).2 := by
  by_cases mail : mv = .deliverMail
  · subst mail
    exact h.delivers w.delivers_deliverMail
  by_cases connect : mv = .connectInbox
  · subst connect
    rw [after_connectInbox]
    exact h.connects w.connects_connectInbox
  have calls : ∀ c (s : Session), Session.SparesMail id s (s.perform c).2 := fun c s =>
    ⟨Session.perform_tidy c s, Session.perform_fills c s⟩
  have changes : ∀ c, mv = .network c → ∀ s : Session, Session.SparesMail id s (s.change c).2 := by
    rintro c rfl s
    exact ⟨Session.change_tidy c s, Session.change_fills (fun same => kept (same ▸ rfl)) s⟩
  obtain ⟨es, passage, -⟩ := (Act.move_passes mail connect calls changes).after (w := w) rfl
  obtain ⟨new, trace, -, plain⟩ := passage.trace fun _ _ h => h.1
  exact h.fills (passage.running fun _ _ h => h.1) (inbox_move connect) (passage.fills fun _ _ h => h.2) trace plain

theorem reachesBy {later : World δ} (h : Accounts id start w)
    (reached : w.ReachesBy (· ≠ .network (.takeMail id)) later) : Accounts id start later := by
  obtain ⟨moves, kept, rfl⟩ := reached
  induction moves generalizing w with
  | nil => exact h
  | cons mv rest ih =>
    obtain ⟨first, others⟩ := List.forall_mem_cons.mp kept
    rw [through_cons]
    exact ih (h.move first) others

end Accounts

/-! ### A frame and its message -/

theorem executes_landmarks (events : List Event) : Executes (landmarks events) ↔ Executes events := by
  simp [Executes, landmarks, isLandmark]

section
variable [Devices δ]

/-- What is noted after the message of a frame. -/
theorem afterMail_notes (w : World δ) :
    ∃ frame, (Act.afterMail w).2.trace = frame ++ w.trace ∧ takenIn frame = [] ∧ (Executes frame ↔ w.Attentive) := by
  obtain ⟨_, passage, attentive⟩ := w.afterMail_passage Session.perform_tidy
  obtain ⟨frame, trace, rfl, plain⟩ := passage.trace fun _ _ => id
  exact ⟨frame, trace, takenIn_eq_nil plain, (executes_landmarks frame).symm.trans attentive⟩

/-- A frame takes a message, if there is one, and copies it into the text window. -/
theorem deliverMail_of_rest (rest : w.network.running = []) :
    ∃ delivered notes, Act.deliverMail w = (.ok (), delivered) ∧ Act.runTick w = Act.afterMail delivered ∧
      delivered.trace = notes ++ (w.mail?.map Event.mailTaken).toList ++ w.trace ∧ Asides notes ∧
      delivered.machine = w.mail?.elim w.machine (fun payload => (w.machine.receive payload).value.2) ∧
      (delivered.Attentive ↔ w.Attentive) := by
  have delivers := w.delivers_deliverMail
  have frame : ∀ delivered, Act.deliverMail w = (.ok (), delivered) → Act.runTick w = Act.afterMail delivered := by
    intro delivered h
    rw [Act.runTick_eq_afterMail, Act.bind_of_ok h]
  generalize ended : Act.deliverMail w = answer at delivers frame
  obtain ⟨result, after⟩ := answer
  dsimp only at delivers
  cases delivers with
  | nothing none => exact ⟨_, [], rfl, frame _ rfl, by simp [none], asides_nil, by simp [none], Iff.rfl⟩
  | busy _ busy => simp [Network.isBusy, rest] at busy
  | @taken id payload queue notes connected idle inbox asides =>
    have payload? : w.mail? = some payload := by simp [mail?, connected, Network.takeMail, inbox]
    refine ⟨_, notes, rfl, frame _ rfl, ?_, asides, ?_, Iff.rfl⟩
    · simp [payload?]
    · simp [payload?]

/-- What is noted in a frame: the message that it takes, and what comes after it. -/
theorem runTick_notes (rest : w.network.running = []) :
    ∃ frame, (Act.runTick w).2.trace = frame ++ (w.mail?.map Event.mailTaken).toList ++ w.trace ∧
      takenIn frame = [] ∧ (Executes frame ↔ w.Attentive) := by
  obtain ⟨delivered, notes, -, run, trace, asides, -, attentive⟩ := deliverMail_of_rest rest
  obtain ⟨frame, trace', untaken, executes⟩ := delivered.afterMail_notes
  refine ⟨frame ++ notes, ?_, ?_, ?_⟩
  · rw [run, trace', trace]
    simp
  · rw [takenIn_append, takenIn_of_asides asides, untaken, List.append_nil]
  · rw [← attentive, ← executes]
    constructor
    · rintro ⟨instruction, executed⟩
      rcases List.mem_append.mp executed with executed | executed
      · exact ⟨instruction, executed⟩
      · cases asides _ executed
    · rintro ⟨instruction, executed⟩
      exact ⟨instruction, List.mem_append_left _ executed⟩

theorem keys_of_working {b : Bench} (working : b.broken = none) : (Devices.keys b).value.1 = .ok b.keys := by
  simp [Devices.keys, Bench.attempt, working]

/-- A message that a frame takes is in the text window when the rest of the frame begins. If the keys can be
read then, and the machine runs or gets the key that it waits for and has a step left, an instruction is carried
out before the next message is taken, whatever is done in between. Otherwise the frame carries out none, and the
next frame may take the next message all the same. -/
theorem message_seen_in_attentive_frame {config : Config} (valid : config.validate = .ok ()) (entropy : UInt64)
    (devices : δ) (network : Network) (rest : network.running = []) :
    ∃ m, Machine.build config entropy = .ok m ∧ ∀ operations : List Operation,
      let w := World.after ⟨m, devices, network, []⟩ operations
      ∀ p, w.mail? = some p →
        (∃ delivered, Act.deliverMail w = (.ok (), delivered) ∧ Act.runTick w = Act.afterMail delivered ∧
          delivered.machine = (w.machine.receive p).value.2) ∧
        ∃ frame, (Act.runTick w).2.trace = frame ++ .mailTaken p :: w.trace ∧ takenIn frame = [] ∧
          (Executes frame ↔ w.Attentive) ∧
          (w.Attentive → ∀ later q,
            let u := World.after (Act.runTick w).2 later
            u.mail? = some q → ∃ after between,
              (Act.runTick u).2.trace = after ++ .mailTaken q :: (between ++ .mailTaken p :: w.trace) ∧
                Executes between) := by
  obtain ⟨m, built, sound⟩ := Machine.build_of_validate valid entropy
  refine ⟨m, built, ?_⟩
  intro operations w p waits
  have begun : Safe (⟨m, devices, network, []⟩ : World δ) := ⟨sound, rest, calm_nil⟩
  have safe : w.Safe := begun.after operations
  obtain ⟨delivered, notes, delivers, run, -, -, machine, -⟩ := deliverMail_of_rest safe.rest
  rw [waits] at machine
  refine ⟨⟨delivered, delivers, run, machine⟩, ?_⟩
  obtain ⟨frame, trace, untaken, attentive⟩ := runTick_notes safe.rest
  have ticked : (Act.runTick w).2.trace = frame ++ .mailTaken p :: w.trace := by simp [trace, waits]
  refine ⟨frame, ticked, untaken, attentive, ?_⟩
  intro executes later q u waits'
  have tick : (Act.operate .runTick w).2 = (Act.runTick w).2 := by
    change ((Act.runTick >>= fun _ => pure Result.done) w).2 = _
    rw [Act.bind_apply]
    rcases Act.runTick w with ⟨_ | _, _⟩ <;> rfl
  have safe' : u.Safe := Safe.after (tick ▸ (safe.operate .runTick).1) later
  obtain ⟨between, longer⟩ := (reaches_after (Act.runTick w).2 later).trace
  obtain ⟨after, trace', -, -⟩ := runTick_notes safe'.rest
  refine ⟨after, between ++ frame, ?_, (attentive.mpr executes).append between⟩
  rw [trace', waits', show u.trace = between ++ (Act.runTick w).2.trace from longer, ticked]
  simp

/-- A running program sees the first of two messages before the second one is taken. -/
theorem first_message_seen_while_running :
    let config : Config := { program := some [0x12, 0x00] }
    config.validate = .ok () ∧ ({} : Network).running = [] ∧ ∃ m, Machine.build config 0 = .ok m ∧
      let w := World.after (⟨m, {}, {}, []⟩ : World Bench) [.reset, .connectInbox,
        .network (.call (.data "CHIP8|a")), .network (.call (.data "CHIP8|b"))]
      w.mail? = some "a" ∧ w.Attentive ∧ ∃ after between,
        (Act.runTick (Act.runTick w).2).2.trace =
          after ++ .mailTaken "b" :: (between ++ .mailTaken "a" :: w.trace) ∧ Executes between := by
  intro config
  have valid : config.validate = .ok () := rfl
  obtain ⟨m, built, seen⟩ := message_seen_in_attentive_frame valid 0 ({} : Bench) {} rfl
  have run : (Machine.build config 0).toOption.map (fun m =>
      let w := World.after (⟨m, {}, {}, []⟩ : World Bench) [.reset, .connectInbox,
        .network (.call (.data "CHIP8|a")), .network (.call (.data "CHIP8|b"))]
      decide (w.mail? = some "a" ∧ (Act.runTick w).2.mail? = some "b" ∧ w.devices.broken = none ∧
        w.machine.status = .running ∧ w.machine.pc.toNat + 1 < ramSize ∧
        1 ≤ w.machine.config.clockMultiplier.toNat)) = some true := by
    decide +kernel
  rw [built] at run
  refine ⟨valid, rfl, m, built, ?_⟩
  specialize seen [.reset, .connectInbox, .network (.call (.data "CHIP8|a")), .network (.call (.data "CHIP8|b"))]
  have facts := of_decide_eq_true (Option.some.inj run)
  dsimp only at seen facts ⊢
  generalize World.after (⟨m, {}, {}, []⟩ : World Bench) _ = w at seen facts ⊢
  obtain ⟨waits, next, working, running, inside, clock⟩ := facts
  obtain ⟨-, -, -, -, -, sees⟩ := seen "a" waits
  have attentive : w.Attentive := ⟨_, keys_of_working working, inside, Or.inl ⟨running, clock⟩⟩
  exact ⟨waits, attentive, sees attentive [] "b" next⟩

/-- While the machine waits for a key that nobody presses, each message overwrites the one before it. -/
theorem messages_overwritten_during_key_wait :
    let config : Config := { program := some [0xf0, 0x0a] }
    config.validate = .ok () ∧ ∃ m, Machine.build config 0 = .ok m ∧
      let w := World.after (⟨m, {}, {}, []⟩ : World Bench) [.reset, .connectInbox,
        .network (.call (.data "CHIP8|a")), .network (.call (.data "CHIP8|b")),
        .network (.call (.data "CHIP8|c")), .runTick]
      let u := (Act.runTick w).2
      ∃ after between, (Act.runTick u).2.trace =
          after ++ .mailTaken "c" :: (between ++ .mailTaken "b" :: w.trace) ∧
        takenIn between = [] ∧ ¬Executes between := by
  intro config
  have valid : config.validate = .ok () := rfl
  obtain ⟨m, built, -⟩ := Machine.build_of_validate valid 0
  have run : (Machine.build config 0).toOption.map (fun m =>
      let w := World.after (⟨m, {}, {}, []⟩ : World Bench) [.reset, .connectInbox,
        .network (.call (.data "CHIP8|a")), .network (.call (.data "CHIP8|b")),
        .network (.call (.data "CHIP8|c")), .runTick]
      let u := (Act.runTick w).2
      decide (w.network.running = [] ∧ w.mail? = some "b" ∧ w.machine.status = .waiting 0 ∧
        w.devices.broken = none ∧ w.devices.keys = .none ∧
        u.network.running = [] ∧ u.mail? = some "c")) = some true := by
    decide +kernel
  rw [built] at run
  refine ⟨valid, m, built, ?_⟩
  have facts := of_decide_eq_true (Option.some.inj run)
  dsimp only at facts ⊢
  generalize World.after (⟨m, {}, {}, []⟩ : World Bench) _ = w at facts ⊢
  obtain ⟨rest, waits, waiting, working, released, rest', waits'⟩ := facts
  have blind : ¬w.Attentive := by
    rw [attentive_iff (keys_of_working working), released]
    exact Machine.not_proceeds_of_idle (by simp [waiting]) (fun _ _ => rfl) _
  obtain ⟨between, trace, untaken, executes⟩ := runTick_notes rest
  obtain ⟨after, trace', -⟩ := runTick_notes rest'
  refine ⟨after, between, ?_, untaken, mt executes.mp blind⟩
  rw [trace', waits', trace, waits]
  simp

end
end World
end Chip8
