import Chip8.Bench
import Chip8.Proofs.World.Frames
import Chip8.Proofs.World.PowerOn
import Chip8.Proofs.World.Tone

/-!
A machine that is switched off or has halted stays as it is until it is reset, so that it can be looked at. Of all
that can be done with it only texts still reach its memory: messages the text window, and other texts the place
that they are written to. No device is called.
-/

namespace Chip8

/-- Whether an address lies in the window. -/
def TextWindow.Covers (window : TextWindow) (addr : Nat) : Prop := window.address.toNat ≤ addr ∧ addr < window.stop

namespace Machine
variable {m : Machine} {k : Nat}

/-- A message changes nothing outside the window. -/
theorem covers_of_receive (inside : m.config.window.stop ≤ ramSize) (hk : k < ramSize) {text : String}
    (changed : (m.receive text).value.2.ram.read k ≠ m.ram.read k) : m.config.window.Covers k := by
  obtain ⟨start, -, stop⟩ := Ram.covers_of_writeAscii (fun _ => inside) hk changed
  exact ⟨start, stop⟩

/-- A text that is written anywhere changes nothing but its place. -/
theorem covers_of_written (hk : k < ramSize) {addr : UInt16} {text : String}
    (changed : (m.writeAscii addr text).value.2.ram.read k ≠ m.ram.read k) :
    addr.toNat ≤ k ∧ k ≤ addr.toNat + (m.writeAscii addr text).value.1 := by
  have room : 0 < ramSize - addr.toNat → addr.toNat + (ramSize - addr.toNat) ≤ ramSize := by omega
  obtain ⟨start, stop, -⟩ := Ram.covers_of_writeAscii room hk changed
  exact ⟨start, stop⟩

end Machine

namespace World
variable {δ : Type}

/-- What an operation with a result leaves of a world whose machine is stopped. -/
structure Untouched (w : World δ) (o : Operation) (result : Result) (after : World δ) : Prop where
  machine : after.machine = { w.machine with ram := after.machine.ram, inbox := after.machine.inbox }
  devices : after.devices = w.devices
  calls : after.calls = w.calls
  running : after.network.running = w.network.running
  ram : ∀ k < ramSize, after.machine.ram.read k ≠ w.machine.ram.read k →
    w.machine.config.window.Covers k ∨
      ∃ addr text n, o = .writeAscii addr text ∧ result = .count n ∧ addr.toNat ≤ k ∧ k ≤ addr.toNat + n

namespace Untouched
variable {w after : World δ} {o : Operation} {result : Result} {es : List Event}

/-- Something that leaves the memory alone. -/
theorem of_ram (machine : after.machine = { w.machine with inbox := after.machine.inbox })
    (devices : after.devices = w.devices) (running : after.network.running = w.network.running)
    (trace : after.trace = es ++ w.trace) (silent : NoCalls es) : w.Untouched o result after := by
  have ram : after.machine.ram = w.machine.ram := by rw [machine]
  refine ⟨?_, devices, calls_of_noCalls trace silent, running, fun k _ changed => absurd (by rw [ram]) changed⟩
  rw [ram]
  exact machine

theorem refl (w : World δ) : w.Untouched o result w := of_ram rfl rfl rfl rfl noCalls_nil

theorem received (inside : w.machine.config.window.stop ≤ ramSize) {text : String}
    (machine : after.machine = (w.machine.receive text).value.2) (devices : after.devices = w.devices)
    (running : after.network.running = w.network.running) (trace : after.trace = es ++ w.trace)
    (silent : NoCalls es) : w.Untouched o result after := by
  refine ⟨?_, devices, calls_of_noCalls trace silent, running, fun k hk changed => ?_⟩
  · rw [machine]
    rfl
  · rw [machine] at changed
    exact Or.inl (Machine.covers_of_receive inside hk changed)

end Untouched
end World

namespace Act
variable {δ : Type}

/-- The message of a frame is taken out of the mail in any case. -/
theorem ends_deliverMail {w : World δ} (o : Operation) (result : Result) (rest : w.network.running = [])
    (inside : w.machine.config.window.stop ≤ ramSize) :
    deliverMail.Ends w (fun _ after => w.Untouched o result after) fun _ _ => False := by
  have idle : ∀ id, w.network.isBusy id = false := by simp [Network.isBusy, rest]
  have delivers := w.delivers_deliverMail
  unfold Ends
  generalize deliverMail w = ended at delivers ⊢
  obtain ⟨answer, after⟩ := ended
  cases delivers with
  | nothing => exact .refl _
  | busy _ busy => simp [idle] at busy
  | @taken id payload queue es connected idle inbox asides =>
    have silent : NoCalls (es ++ [.mailTaken payload]) := noCalls_append.mpr ⟨noCalls_of_asides asides, by simp⟩
    exact .received inside rfl rfl rfl (by simp) silent

variable [Devices δ] {w : World δ}

theorem step_of_inactive (inactive : w.machine.isActive = false) : step w = (.ok (), w) := by
  unfold step
  rw [bind_apply]
  rcases status : w.machine.status with _ | _ | register | reason <;>
    simp [Machine.isActive, Status.isActive, status] at inactive
  · simp only [machine, status, pure_apply]
  · simp only [machine, status, pure_apply]

theorem afterMail_of_inactive (inactive : w.machine.isActive = false) : afterMail w = (.ok (), w) := by
  change whenever w.machine.isActive _ w = _
  rw [inactive]
  rfl

theorem mainLoop_of_inactive (inactive : w.machine.isActive = false) (budget : Option Nat) :
    mainLoop budget w = (.ok 0, { w with trace := .stopped 0 w.machine.status :: w.trace }) := by
  have none : ∀ budget, runFrames budget 0 w = (.ok 0, w) := by
    intro budget
    cases budget with
    | zero => rfl
    | succ budget =>
      change (if w.machine.isActive && !Devices.quitRequested w.devices then _ else _ : Act δ Nat) w = _
      rw [inactive]
      rfl
  unfold mainLoop
  rw [bind_of_ok (none _)]
  rfl

/-- An operation that is no reset has a result if the machine is stopped, and leaves the machine alone. -/
theorem operate_of_inactive (inactive : w.machine.isActive = false) (rest : w.network.running = [])
    (inside : w.machine.config.window.stop ≤ ramSize) {o : Operation} (other : o ≠ .reset) :
    (operate o).Ends w (fun result after => w.Untouched o result after) fun _ _ => False := by
  cases o with
  | reset => exact absurd rfl other
  | step =>
    refine ends_of_eq (bind_of_ok (step_of_inactive inactive) _) ?_
    exact .refl w
  | tickTimers =>
    refine ends_of_eq (bind_of_ok (tickTimers_of_inactive inactive) _) ?_
    exact .refl w
  | runTick =>
    simp only [operate, runTick_eq_afterMail, ends_bind, ends_pure]
    refine (ends_deliverMail .runTick .done rest inside).imp fun _ after untouched => ?_
    have still : after.machine.isActive = false := by
      rw [untouched.machine]
      exact inactive
    exact ends_of_eq (afterMail_of_inactive still) untouched
  | mainLoop budget =>
    refine ends_of_eq (bind_of_ok (mainLoop_of_inactive inactive budget) _) ?_
    have silent : NoCalls [.stopped 0 w.machine.status] := by simp
    exact .of_ram rfl rfl rfl rfl silent
  | receive text =>
    have silent : NoCalls (w.machine.receive text).notes.reverse := fun e he =>
      noCalls_of_asides (Machine.asides_receive text) e (List.mem_reverse.mp he)
    exact .received inside rfl rfl rfl rfl silent
  | writeAscii addr text =>
    have silent : NoCalls (w.machine.writeAscii addr text).notes.reverse := fun e he =>
      noCalls_of_asides (Machine.asides_writeAscii addr text) e (List.mem_reverse.mp he)
    refine ⟨rfl, rfl, World.calls_of_noCalls rfl silent, rfl, fun k hk changed => ?_⟩
    exact Or.inr ⟨addr, text, _, rfl, rfl, Machine.covers_of_written hk changed⟩
  | connectInbox =>
    have connects := w.connects_connectInbox
    simp only [operate, ends_bind, ends_pure]
    unfold Ends
    generalize connectInbox w = ended at connects ⊢
    obtain ⟨answer, after⟩ := ended
    cases connects with
    | connected nodes running trace =>
      have silent : NoCalls [.registered w.machine.config.inboxName w.network.nodes.length] := by simp
      exact .of_ram rfl rfl running trace silent
    | refused cause =>
      have silent : NoCalls [.nameTaken w.machine.config.inboxName] := by simp
      exact .of_ram rfl rfl rfl rfl silent
  | network change =>
    obtain ⟨running, es, trace, source⟩ := Session.change_tidy change w.session
    have silent : NoCalls es := noCalls_of_source fun e he => by rcases source e he with h | h <;> simp [h]
    exact .of_ram rfl rfl running trace silent

end Act

namespace World
variable {δ : Type} [Devices δ]

/-- A machine that is switched off or has halted stays as it is through all operations but a reset: only its memory
and its inbox can be other ones afterwards. No device is called, every operation has a result, and of the memory only
the text window changes and the places of the texts that were written to it. -/
theorem stopped_until_reset {config : Config} {w : World δ} (reached : w.Reachable config)
    (rest : w.network.running = []) (stopped : w.machine.isActive = false) (operations : List Operation)
    (noReset : ∀ o ∈ operations, o ≠ .reset) :
    let after := w.after operations
    after.machine = { w.machine with ram := after.machine.ram, inbox := after.machine.inbox } ∧
    after.devices = w.devices ∧ after.calls = w.calls ∧
    (∀ before o later, operations = before ++ o :: later →
      ∃ result, (Act.operate o (w.after before)).1 = .ok result) ∧
    ∀ k < ramSize, after.machine.ram.read k ≠ w.machine.ram.read k →
      config.window.Covers k ∨ ∃ before addr text later n, operations = before ++ .writeAscii addr text :: later ∧
        (Act.operate (.writeAscii addr text) (w.after before)).1 = .ok (.count n) ∧
        addr.toNat ≤ k ∧ k ≤ addr.toNat + n := by
  obtain ⟨valid, -, logging, clock, configured⟩ := reached.settings
  have window : w.machine.config.window = config.window := by rw [configured]
  have inside : w.machine.config.window.stop ≤ ramSize := window ▸ valid.window
  clear reached configured
  induction operations generalizing w with
  | nil => exact ⟨rfl, rfl, rfl, by simp, fun k _ changed => absurd rfl changed⟩
  | cons o later ih =>
    obtain ⟨other, noReset⟩ := List.forall_mem_cons.mp noReset
    obtain ⟨result, between, run, untouched⟩ := (Act.operate_of_inactive stopped rest inside other).result
    have still : between.machine.isActive = false := by
      rw [untouched.machine]
      exact stopped
    have settings : between.machine.config = w.machine.config := by rw [untouched.machine]
    obtain ⟨machine, devices, calls, succeeds, ram⟩ := ih (untouched.running.trans rest) still noReset
      (settings ▸ window) (settings ▸ inside)
    have first : ∀ before, w.after (o :: before) = between.after before := by
      intro before
      rw [after_cons, run]
    dsimp only at machine devices calls succeeds ram ⊢
    rw [first]
    refine ⟨?_, devices.trans untouched.devices, calls.trans untouched.calls, ?_, ?_⟩
    · generalize between.after later = after at machine
      rw [machine, untouched.machine]
    · intro before o' later' split
      rcases List.cons_eq_append_iff.mp split with ⟨rfl, here⟩ | ⟨before', rfl, behind⟩
      · obtain ⟨rfl, rfl⟩ := List.cons.inj here
        exact ⟨result, congrArg Prod.fst run⟩
      · rw [first]
        exact succeeds before' o' later' behind
    · intro k hk changed
      by_cases same : between.machine.ram.read k = w.machine.ram.read k
      · rcases ram k hk (same ▸ changed) with covered | ⟨before, addr, text, later', n, rfl, written, place⟩
        · exact Or.inl covered
        · refine Or.inr ⟨o :: before, addr, text, later', n, rfl, ?_, place⟩
          rw [first]
          exact written
      · rcases untouched.ram k hk same with covered | ⟨addr, text, n, rfl, rfl, place⟩
        · exact Or.inl (window ▸ covered)
        · exact Or.inr ⟨[], addr, text, later, n, rfl, congrArg Prod.fst run, place⟩

/-- A program that has halted keeps its registers, while a letter arrives and a text is written. -/
theorem halted_program_can_be_read :
    let config : Config := { compatibility := false, program := some [0x60, 0x2a, 0x00, 0xee] }
    let operations : List Operation := [.connectInbox, .network (.call (.dispatch (.data ⟨"CHIP8", "letter"⟩))),
      .runTick, .step, .tickTimers, .mainLoop (some 2), .writeAscii 0x300 "hi"]
    ∃ m, Machine.build config 0 = .ok m ∧
      let w := World.after (⟨m, {}, {}, []⟩ : World Bench) [.reset, .step, .step]
      let after := w.after operations
      (w.machine.status = .halted (.stackUnderflow 0x202) ∧ w.machine.v[(0 : Register)] = 0x2a) ∧
        w.Reachable config ∧ w.network.running = [] ∧ w.machine.isActive = false ∧ (∀ o ∈ operations, o ≠ .reset) ∧
        after.machine = { w.machine with ram := after.machine.ram, inbox := after.machine.inbox } ∧
        after.devices = w.devices ∧ after.calls = w.calls ∧
        after.machine.ram.read 0x1a0 = 0x6c ∧ after.machine.ram.read 0x300 = 0x68 := by
  intro config operations
  obtain ⟨m, built, halted, rest, stopped, letter, text⟩ := exists_after config 0 ({} : Bench) {}
    [.reset, .step, .step]
    (fun w => (w.machine.status = .halted (.stackUnderflow 0x202) ∧ w.machine.v[(0 : Register)] = 0x2a) ∧
      w.network.running = [] ∧ w.machine.isActive = false ∧
      (w.after operations).machine.ram.read 0x1a0 = 0x6c ∧ (w.after operations).machine.ram.read 0x300 = 0x68)
    (by decide +kernel)
  have reached := reachable_after built ({} : Bench) {} [.reset, .step, .step]
  have noReset : ∀ o ∈ operations, o ≠ .reset := by simp [operations]
  obtain ⟨machine, devices, calls, -⟩ := stopped_until_reset reached rest stopped operations noReset
  exact ⟨m, built, halted, reached, rest, stopped, noReset, machine, devices, calls, letter, text⟩

end World
end Chip8
