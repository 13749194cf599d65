import Chip8.Proofs.Network.Broadcast
import Chip8.Proofs.World.Display
import Chip8.Proofs.World.Pairs
import Chip8.Proofs.World.PowerOn

/-!
A reset that the program asks for is a reset from outside, and then a broadcast of it if it has succeeded. The
step that it is part of has nothing more to do: the machine runs again from its first instruction, and a program
that has come to ask for anything has room for that.
-/

namespace Chip8

/-- The word that asks for a reset. -/
def Opcode.reset : UInt16 := 0x0efd

namespace Machine

/-- A program that begins where no instruction lies inside memory never begins. -/
def Begins (m : Machine) : Prop :=
  m.config.bootAddress.toNat ≤ lastPlace ∨
    (∀ register, m.status ≠ .waiting register) ∧ (m.status = .running → m.pc = m.config.bootAddress)

namespace Begins
variable {m n : Machine}

theorem of_next? {instruction : Instruction} (h : m.Begins) (next : m.next? = some instruction) :
    m.config.bootAddress.toNat ≤ lastPlace := by
  have inside : m.pc.toNat + 1 < ramSize := pc_of_next? next
  obtain ⟨running, -⟩ := next?_eq_some_iff.mp next
  rcases h with room | ⟨-, start⟩
  · exact room
  · rw [← start running]
    simp only [lastPlace, ramSize] at inside ⊢
    omega

theorem of_stopped (stopped : m.isActive = false) : m.Begins := by
  refine Or.inr ⟨fun register waiting => ?_, fun running => ?_⟩
  · simp [isActive, Status.isActive, waiting] at stopped
  · simp [isActive, Status.isActive, running] at stopped

theorem of_same (h : m.Begins) (boot : n.config.bootAddress = m.config.bootAddress) (status : n.status = m.status)
    (pc : n.pc = m.pc) : n.Begins := by
  unfold Begins
  rw [boot, status, pc]
  exact h

theorem of_room (room : m.config.bootAddress.toNat ≤ lastPlace) (boot : n.config.bootAddress = m.config.bootAddress) :
    n.Begins := Or.inl (boot ▸ room)

theorem restarted (h : m.Begins) (again : Restarted m n) : n.Begins := by
  have off : ∀ {n : Machine}, m.cleared? = some n → n.isActive = false ∧ n.pc = n.config.bootAddress := by
    intro n cleared
    obtain ⟨ram, -, rfl⟩ := Option.map_eq_some_iff.mp cleared
    exact ⟨rfl, rfl⟩
  cases again with
  | crashed => exact h
  | cleared cleared => exact of_stopped (off cleared).1
  | loaded cleared found =>
    obtain ⟨memory, -, rfl⟩ := Option.map_eq_some_iff.mp found
    exact of_stopped (off cleared).1
  | running cleared found =>
    obtain ⟨memory, -, rfl⟩ := Option.map_eq_some_iff.mp found
    exact Or.inr ⟨by simp, fun _ => (off cleared).2⟩

theorem turned (h : m.Begins) (turn : Turned m n) : n.Begins := by
  have boot : n.config.bootAddress = m.config.bootAddress := by
    have configured : m.Configured m.config := ⟨m.config.logging, m.config.clockMultiplier, rfl⟩
    obtain ⟨logging, clock, kept⟩ := configured.turned turn
    rw [kept]
  cases turn with
  | restarted again => exact h.restarted again
  | stepped step =>
    cases step with
    | idle => exact h
    | key waiting _ =>
      rcases h with room | ⟨unasked, -⟩
      · exact of_room room boot
      · exact absurd waiting (unasked _)
    | pastEnd => exact of_stopped rfl
    | carried next => exact of_room (h.of_next? next) boot
  | broken step =>
    cases step with
    | crashed next => exact of_room (h.of_next? next) boot
    | failed next => exact of_room (h.of_next? next) boot
  | same | ticked | received | written | connected | polled => exact h.of_same rfl rfl rfl

end Begins

/-- The instruction only asks. -/
theorem execute_reset (m : Machine) :
    ∃ done, m.execute (.extension 0xfd) = some done ∧
      done.value = { machine := m, flow := .stay, request := .reset } := ⟨_, rfl, rfl⟩

end Machine

namespace Act
variable {δ : Type}

theorem settle_stay {w : World δ} (inside : w.machine.isPastEnd = false) : settle .stay w = (.ok (), w) := by
  have kept : w.machine.checkEnd = pure w.machine := by
    unfold Machine.checkEnd
    rw [inside, Bool.and_false]
    rfl
  change (Act.noted w.machine.checkEnd >>= fun m => setMachine m) w = (.ok (), w)
  rw [kept]
  rfl

variable [Devices δ]

/-- A step with a reset in it, from the moment at which the instruction has asked for it. -/
theorem step_guest_reset {w : World δ} (running : w.machine.status = .running)
    (extended : w.machine.config.compatibility = false)
    (word : w.machine.ram.word? w.machine.pc = some Opcode.reset) :
    ∃ notes, step w =
      (fulfil .reset >>= fun _ => settle .stay)
        { w with machine := w.machine.counted, trace := notes ++ w.trace } := by
  have next : w.machine.next? = some (.extension 0xfd) := by
    refine Machine.next?_eq_some_iff.mpr ⟨running, Opcode.reset, word, ?_⟩
    rw [extended]
    rfl
  obtain ⟨done, executed, asked⟩ := w.machine.counted.execute_reset
  obtain ⟨notes, stepped, -⟩ := step_of_execute next executed
  rw [asked] at stepped
  exact ⟨notes, stepped⟩

theorem fulfil_reset : (fulfil .reset : Act δ Unit) = reset >>= fun _ => call .broadcastReset := rfl

/-- The end of such a step, once the reset has succeeded. -/
theorem settle_guest_reset {v u : World δ} (run : reset v = (.ok (), u)) (inside : u.machine.isPastEnd = false) :
    (fulfil .reset >>= fun _ => settle .stay) v = call .broadcastReset u := by
  have told : fulfil .reset v = call .broadcastReset u := by rw [fulfil_reset, bind_of_ok run]
  rw [call_apply] at told ⊢
  rw [bind_of_ok told]
  exact settle_stay inside

theorem settle_guest_reset_failed {v u : World δ} {fault : Fault} (run : reset v = (.error fault, u)) :
    (fulfil .reset >>= fun _ => settle .stay) v = (.error fault, u) := by
  have told : fulfil .reset v = (.error fault, u) := by rw [fulfil_reset, bind_of_error run]
  rw [bind_of_error told]

/-- A reset has nothing to do with the nodes. -/
theorem network_reset (w : World δ) :
    (reset w).2.network = w.network ∧ ∃ notes, (reset w).2.trace = notes ++ w.trace := by
  have passes : Passes (fun _ _ => False) w.machine [] (reset : Act δ Unit) (fun _ => w.machine.Restarts)
      w.machine.Restarts := reset_passes
  obtain ⟨es, passage, -⟩ := passes.after (w := w) rfl
  obtain ⟨network, notes, trace, -⟩ := passage.alone
  exact ⟨network, notes, trace⟩

/-- A reset leaves the settings and the inbox. -/
theorem settings_reset (w : World δ) :
    (reset w).2.machine.config = w.machine.config ∧ (reset w).2.machine.inbox = w.machine.inbox := by
  have restarted : w.machine.Restarted (reset w).2.machine :=
    Ends.answer (P := fun _ after => w.machine.Restarted after.machine) (reset_leaves w rfl)
  rcases restarted.eq_or with same | ⟨ram, status, same⟩
  · rw [same]
    exact ⟨rfl, rfl⟩
  · rw [same]
    exact ⟨rfl, rfl⟩

/-- A reset after an instruction was counted and some events were noted is the reset that it would have been
before. -/
theorem reset_counted {w : World δ} {n : Machine} (cleared : w.machine.cleared? = some n) (notes : List Event) :
    let v : World δ := { w with machine := w.machine.counted, trace := notes ++ w.trace }
    (reset v).1 = (reset w).1 ∧ (reset v).2.machine = (reset w).2.machine ∧
      (reset v).2.devices = (reset w).2.devices := by
  intro v
  have alike : Option.Rel Machine.Agrees w.machine.cleared? v.machine.cleared? := by
    rw [show v.machine.cleared? = w.machine.cleared? from rfl, cleared]
    exact .some (.refl n)
  have crashed : w.machine.cleared? = none → w.machine.Agrees v.machine := by
    intro nothing
    rw [cleared] at nothing
    cases nothing
  have ended := reset_pairs alike crashed w v rfl rfl rfl
  obtain ⟨config, inbox⟩ := settings_reset w
  obtain ⟨config', inbox'⟩ := settings_reset v
  generalize reset w = here, reset v = there at ended config inbox config' inbox' ⊢
  cases ended with
  | ok agree same => exact ⟨rfl, agree.eq (by rw [config, config']; rfl) (inbox'.trans inbox.symm), same⟩
  | failed fault agree same => exact ⟨rfl, agree.eq (by rw [config, config']; rfl) (inbox'.trans inbox.symm), same⟩

end Act

/-- What is left of an inbox after some events: its queue and what it has accepted meanwhile, and those of its
names that no handler has asked to be forgotten. -/
def Session.KeepsInbox (id : NodeId) (es : List Event) (s t : Session) : Prop :=
  ∀ queue, s.network.nodes[id]? = some (.inbox queue) →
    t.network.nodes[id]? = some (.inbox (queue ++ Event.acceptedBy id es)) ∧
    ∀ name, s.network.find? name = some id →
      t.network.find? name = some id ∨ ∃ running c, .asked running c ∈ es ∧ c.Removes name

theorem Session.broadcast_inbox (s : Session) :
    ∃ es, (s.perform .broadcastReset).2.trace = es ++ s.trace ∧
      ∀ id, KeepsInbox id es s (s.perform .broadcastReset).2 := by
  have spares := Session.performWith_spares (Session.sparing_enter _) (Session.performWith_idle .broadcastReset s)
  obtain ⟨es, trace⟩ := spares.trace
  refine ⟨es, trace, ?_⟩
  intro id queue found
  obtain ⟨fs, trace', fills⟩ : Session.Fills id s (s.perform .broadcastReset).2 := Session.perform_fills .broadcastReset s
  obtain rfl := List.append_cancel_right (trace.symm.trans trace')
  refine ⟨fills queue found, ?_⟩
  intro name bound
  have spared : s.Spared id := Or.inr (by simp [Network.goesOnReset, found, Node.goesOnReset])
  rcases spares.names name id spared bound not_false with kept | ⟨fs, trace', asked⟩
  · exact Or.inl kept
  · obtain rfl := List.append_cancel_right (trace.symm.trans trace')
    exact Or.inr asked

namespace World
variable {δ : Type} [Devices δ]

theorem Reachable.begins {config : Config} {w : World δ} (h : w.Reachable config) : w.machine.Begins := by
  obtain ⟨entropy, m, devices, network, built, reached⟩ := h
  have off : m.isActive = false := by rw [Machine.isActive, Machine.status_of_build built]; rfl
  exact reached.keeps (fun _ _ turn h => h.turned turn) (.of_stopped off)

theorem Reachable.cleared {config : Config} {w : World δ} (h : w.Reachable config) :
    ∃ n, w.machine.cleared? = some n := by
  obtain ⟨valid, lettered, -⟩ := h.settings
  obtain ⟨ram, clear, -⟩ := Ram.showsFont_clear (lettered.inside valid)
  exact ⟨_, by rw [Machine.cleared?, clear]; rfl⟩

/-- A machine that comes to an instruction has room for the first one of its program. -/
theorem Reachable.room {config : Config} {w : World δ} (h : w.Reachable config) {instruction : Instruction}
    (next : w.machine.next? = some instruction) : config.bootAddress.toNat ≤ Machine.lastPlace := by
  obtain ⟨-, lettered, -⟩ := h.settings
  rw [← lettered.boot]
  exact h.begins.of_next? next

/-- A machine that comes to an instruction can go on after a reset. -/
theorem Reachable.anew {config : Config} {w after : World δ} (h : w.Reachable config) {instruction : Instruction}
    (next : w.machine.next? = some instruction) (run : Act.reset w = (.ok (), after)) :
    after.machine.status = .running ∧ after.machine.pc = config.bootAddress ∧ after.machine.isPastEnd = false := by
  have room := h.room next
  obtain ⟨program, -, start⟩ := h.powerOn run
  refine ⟨start.status, start.pc, ?_⟩
  rw [Machine.isPastEnd, start.pc]
  simp only [Machine.lastPlace, ramSize] at room ⊢
  exact decide_eq_false (by omega)

/-- A step that carries out a reset which the program asks for ends with the same result as a reset from outside
would, and leaves the same machine and the same devices. If that reset fails, the network is left alone. If it
succeeds, the machine runs from the first instruction of its program, which lies inside memory, and the network
is as a reset broadcast leaves it: the machine's inbox still has its queue, with what was sent to it meanwhile, and
those of its names that no handler has asked to be forgotten. -/
theorem guest_reset_resets_and_broadcasts {config : Config} {w : World δ} (reached : w.Reachable config)
    (running : w.machine.status = .running) (extended : w.machine.config.compatibility = false)
    (word : w.machine.ram.word? w.machine.pc = some Opcode.reset) :
    (Act.step w).1 = (Act.reset w).1 ∧ (Act.step w).2.machine = (Act.reset w).2.machine ∧
    (Act.step w).2.devices = (Act.reset w).2.devices ∧
    ((Act.reset w).1 ≠ .ok () → (Act.step w).2.network = w.network) ∧
    ((Act.reset w).1 = .ok () →
      (Act.step w).2.machine.status = .running ∧ (Act.step w).2.machine.pc = config.bootAddress ∧
      (Act.step w).2.machine.isPastEnd = false ∧
      ∃ notes es, (Act.step w).2.session = (Session.perform ⟨w.network, notes ++ w.trace⟩ .broadcastReset).2 ∧
        (Act.step w).2.trace = es ++ notes ++ w.trace ∧
        ∀ id, w.machine.inbox = some id → (Act.step w).2.machine.inbox = some id ∧
          Session.KeepsInbox id es w.session (Act.step w).2.session) := by
  have next : w.machine.next? = some (Instruction.decode ⟨Opcode.reset⟩ w.machine.config.compatibility) :=
    Machine.next?_eq_some_iff.mpr ⟨running, Opcode.reset, word, rfl⟩
  obtain ⟨n, cleared⟩ := reached.cleared
  obtain ⟨noted, stepped⟩ := Act.step_guest_reset running extended word
  obtain ⟨result, machine, devices⟩ := Act.reset_counted cleared noted
  obtain ⟨network, notes, trace⟩ := Act.network_reset
    ({ w with machine := w.machine.counted, trace := noted ++ w.trace } : World δ)
  rw [stepped]
  rcases run : Act.reset { w with machine := w.machine.counted, trace := noted ++ w.trace } with ⟨fault | _, u⟩
  · rw [run] at result machine devices network
    rw [Act.settle_guest_reset_failed run, ← result]
    refine ⟨rfl, machine, devices, fun _ => network, ?_⟩
    intro done
    cases done
  · rw [run] at result machine devices network trace
    dsimp only at result machine devices network trace
    have again : Act.reset w = (.ok (), (Act.reset w).2) := Prod.ext result.symm rfl
    obtain ⟨status, pc, inside⟩ := reached.anew next again
    rw [← machine] at status pc inside
    have kept : u.machine.inbox = w.machine.inbox := by
      rw [machine]
      exact (Act.settings_reset w).2
    have session : u.session = ⟨w.network, notes ++ noted ++ w.trace⟩ := by
      rw [World.session, network, trace, List.append_assoc]
    obtain ⟨es, heard, left⟩ := Session.broadcast_inbox ⟨w.network, notes ++ noted ++ w.trace⟩
    rw [Act.settle_guest_reset run inside, Act.call_apply, session, ← result]
    refine ⟨rfl, machine, devices, fun failed => absurd rfl failed, ?_⟩
    intro _
    refine ⟨status, pc, inside, notes ++ noted, es, rfl, ?_, ?_⟩
    · rw [heard, List.append_assoc es]
    · intro id own
      exact ⟨kept.trans own, left id⟩

/-- A door that does not outlast a reset. -/
def doorway : Network where
  nodes := [.log { name := "door", persistent := false }]
  bindings := [("door", 0)]

/-- A program that starts itself anew loses the door and keeps the letter. -/
theorem letter_outlasts_reset :
    let config : Config := { compatibility := false, program := some [0x60, 0x01, 0x0e, 0xfd] }
    ∃ m, Machine.build config 0 = .ok m ∧
      let w := World.after (⟨m, {}, doorway, []⟩ : World Bench)
        [.reset, .connectInbox, .network (.call (.dispatch (.data ⟨"CHIP8", "letter"⟩))), .step]
      (w.machine.pc = 0x202 ∧ w.mail? = some "letter" ∧ w.network.find? "door" = some 0) ∧
        (Act.step w).1 = (Act.reset w).1 ∧ (Act.reset w).1.isOk = true ∧
        (Act.step w).2.machine = (Act.reset w).2.machine ∧ (Act.step w).2.machine.pc = 0x200 ∧
        (Act.step w).2.mail? = some "letter" ∧ (Act.step w).2.network.find? "door" = none := by
  intro config
  obtain ⟨m, built, ⟨running, extended, word⟩, before, done, anew, kept, gone⟩ := exists_after config 0
    ({} : Bench) doorway
    [.reset, .connectInbox, .network (.call (.dispatch (.data ⟨"CHIP8", "letter"⟩))), .step]
    (fun w => (w.machine.status = .running ∧ w.machine.config.compatibility = false ∧
        w.machine.ram.word? w.machine.pc = some Opcode.reset) ∧
      (w.machine.pc = 0x202 ∧ w.mail? = some "letter" ∧ w.network.find? "door" = some 0) ∧
      (Act.reset w).1.isOk = true ∧ (Act.step w).2.machine.pc = 0x200 ∧
      (Act.step w).2.mail? = some "letter" ∧ (Act.step w).2.network.find? "door" = none)
    (by decide +kernel)
  have reached := reachable_after built ({} : Bench) doorway
    [.reset, .connectInbox, .network (.call (.dispatch (.data ⟨"CHIP8", "letter"⟩))), .step]
  obtain ⟨result, machine, -⟩ := guest_reset_resets_and_broadcasts reached running extended word
  exact ⟨m, built, before, result, done, machine, anew, kept, gone⟩

end World
end Chip8
