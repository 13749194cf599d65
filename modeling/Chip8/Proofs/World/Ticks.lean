import Chip8.Proofs.World.Failures

/-!
What a tick of the timers comes to when the sound fails. A tone that cannot be stopped leaves the machine as it was, and
the tick can be made again. A tone that cannot be started does not: the delay timer is counted down by then, and the
sound timer is not, so that the next try counts the one of them again.
-/

namespace Chip8

/-- Whether the beep is among the calls and has failed. -/
def lostBeep (made : List (DeviceCall × Option Fault)) : Bool := made.any fun c => c.1 = .beep && c.2.isSome

@[simp] theorem lostBeep_succeeded (calls : List DeviceCall) : lostBeep (succeeded calls) = false := by
  simp [lostBeep, succeeded]

@[simp] theorem lostBeep_append (made later : List (DeviceCall × Option Fault)) :
    lostBeep (made ++ later) = (lostBeep made || lostBeep later) := List.any_append

@[simp] theorem lostBeep_failed (c : DeviceCall) (fault : Fault) : lostBeep [(c, some fault)] = decide (c = .beep) := by
  simp [lostBeep]

namespace World
variable {δ : Type} [Devices δ]

theorem calls_move (w : World δ) (mv : Move) :
    (Act.move mv w).2.calls = w.calls ++ Act.callsOf (Act.move mv) w := by
  obtain ⟨new, trace, -⟩ := w.moves_move mv
  rw [Act.callsOf_eq rfl (calls_of_noted trace), calls_of_noted trace]

/-- Whether the timers tick without a failure. -/
def ticksOver (w : World δ) : Bool := (Act.tickTimers w).1.isOk

/-- Whether the tone that is due cannot be started when the timers tick. -/
def losesBeep (w : World δ) : Bool := lostBeep (Act.callsOf Act.tickTimers w)

/-- How many of some ticks that are made one after another are of a kind, which the world tells before each. -/
def countTicks (kind : World δ → Bool) : (count : Nat) → World δ → Nat
  | 0, _ => 0
  | count + 1, w => (kind w).toNat + countTicks kind count (Act.tickTimers w).2

/-- A tick is all or nothing: it counts both timers down, each unless it is at zero, or it fails and leaves both. -/
def TicksWhole (w : World δ) : Prop :=
  match Act.tickTimers w with
  | (.ok _, after) =>
    after.machine.dt.toNat = w.machine.dt.toNat - 1 ∧ after.machine.st.toNat = w.machine.st.toNat - 1
  | (.error _, after) => after.machine.dt = w.machine.dt ∧ after.machine.st = w.machine.st

section
variable {w : World δ}

/-- A tick counts the sound timer down if it succeeds, and the delay timer also if it is the beep that fails. -/
theorem timers_after_tick (active : w.machine.isActive = true) :
    (Act.tickTimers w).2.machine.isActive = true ∧
    (Act.tickTimers w).2.machine.st.toNat = w.machine.st.toNat - w.ticksOver.toNat ∧
    (Act.tickTimers w).2.machine.dt.toNat = w.machine.dt.toNat - (w.ticksOver.toNat + w.losesBeep.toNat) := by
  have ticks := Act.tickTimers_ticks active
  refine ⟨ticks.isActive.trans active, ?_⟩
  unfold ticksOver losesBeep
  generalize (Act.tickTimers w).1 = answer, (Act.tickTimers w).2.machine = n, Act.callsOf Act.tickTimers w = made
    at ticks ⊢
  cases ticks with
  | counted =>
    rw [lostBeep_succeeded]
    exact ⟨Act.toNat_countDown _, Act.toNat_countDown _⟩
  | unstopped on => exact ⟨rfl, rfl⟩
  | unstarted due =>
    rw [lostBeep_append, lostBeep_succeeded, lostBeep_failed]
    exact ⟨rfl, Act.toNat_countDown _⟩

theorem timers_after_ticks (active : w.machine.isActive = true) (count : Nat) :
    (w.after (List.replicate count .tickTimers)).machine.st.toNat =
        w.machine.st.toNat - countTicks ticksOver count w ∧
      (w.after (List.replicate count .tickTimers)).machine.dt.toNat =
        w.machine.dt.toNat - (countTicks ticksOver count w + countTicks losesBeep count w) := by
  induction count generalizing w with
  | zero => exact ⟨rfl, rfl⟩
  | succ count ih =>
    obtain ⟨still, sound, delay⟩ := timers_after_tick active
    obtain ⟨sounds, delays⟩ := ih still
    have tick : (Act.operate .tickTimers w).2 = (Act.tickTimers w).2 := Act.snd_bind_pure ..
    rw [List.replicate_succ, after_cons, tick, sounds, delays, sound, delay]
    simp only [countTicks]
    omega

/-- A tick is not all or nothing if and only if the beep fails while the delay timer runs. -/
theorem ticksWhole_iff (active : w.machine.isActive = true) :
    w.TicksWhole ↔ (w.losesBeep = true → w.machine.dt = 0) := by
  have ticks := Act.tickTimers_ticks active
  unfold TicksWhole losesBeep
  rcases run : Act.tickTimers w with ⟨fault | _, after⟩
  all_goals
    rw [run] at ticks
    dsimp only at ticks ⊢
    generalize Act.callsOf Act.tickTimers w = made, after.machine = n at ticks ⊢
  · cases ticks with
    | unstopped on => simp
    | unstarted due => simp [Machine.tickedInPart, Act.countDown_eq_self_iff]
  · cases ticks with
    | counted => simp [Machine.ticked, Act.toNat_countDown]

theorem machine_after_tick (active : w.machine.isActive = true) :
    (Act.tickTimers w).2.machine =
      if w.ticksOver then w.machine.ticked else if w.losesBeep then w.machine.tickedInPart else w.machine := by
  have ticks := Act.tickTimers_ticks active
  unfold ticksOver losesBeep
  generalize (Act.tickTimers w).1 = answer, (Act.tickTimers w).2.machine = n, Act.callsOf Act.tickTimers w = made
    at ticks ⊢
  cases ticks <;> simp [Except.isOk, Except.toBool]

end

/-- Whatever the sound does, a tick of an active machine is all or nothing, with one exception: a beep that fails while
the delay timer runs. Then the delay timer is counted down and the sound timer is not. So a driver that makes a tick
again after a failure counts the sound timer down once for each tick that succeeds, and the delay timer once more for
each beep that has failed. -/
theorem tick_whole_unless_beep_fails (w : World δ) (active : w.machine.isActive = true) :
    (w.TicksWhole ↔ (w.losesBeep = true → w.machine.dt = 0)) ∧
    (Act.tickTimers w).2.machine =
      (if w.ticksOver then w.machine.ticked else if w.losesBeep then w.machine.tickedInPart else w.machine) ∧
    ∀ count, let after := w.after (List.replicate count .tickTimers)
      after.machine.st.toNat = w.machine.st.toNat - countTicks ticksOver count w ∧
      after.machine.dt.toNat = w.machine.dt.toNat - (countTicks ticksOver count w + countTicks losesBeep count w) :=
  ⟨ticksWhole_iff active, machine_after_tick active, timers_after_ticks active⟩

/-- Three ticks that start and stop a tone count a delay timer of five down to two. -/
theorem ticks_whole_while_sound_works :
    ∃ m, Machine.build { program := some [0x61, 0x05, 0xf1, 0x15, 0x61, 0x01, 0xf1, 0x18] } 0 = .ok m ∧
      let w := World.after (⟨m, {}, {}, []⟩ : World Bench) [.reset, .step, .step, .step, .step]
      w.machine.isActive = true ∧ w.TicksWhole ∧
        (w.after (List.replicate 3 .tickTimers)).machine.dt.toNat = 2 := by
  obtain ⟨m, built, active, kept, delay, good, lost⟩ := exists_after
    { program := some [0x61, 0x05, 0xf1, 0x15, 0x61, 0x01, 0xf1, 0x18] } 0 ({} : Bench) {}
    [.reset, .step, .step, .step, .step]
    (fun w => w.machine.isActive = true ∧ w.losesBeep = false ∧ w.machine.dt.toNat = 5 ∧
      countTicks ticksOver 3 w = 3 ∧ countTicks losesBeep 3 w = 0)
    (by decide +kernel)
  obtain ⟨whole, -, ticks⟩ := tick_whole_unless_beep_fails _ active
  refine ⟨m, built, active, whole.mpr (by simp [kept]), ?_⟩
  rw [(ticks 3).2, delay, good, lost]

/-- A beep that fails while the delay timer is at five counts it down to four and leaves the sound timer at one. -/
theorem tick_torn_by_broken_beep :
    ∃ m, Machine.build { program := some [0x61, 0x05, 0xf1, 0x15, 0x61, 0x01, 0xf1, 0x18] } 0 = .ok m ∧
      let w := World.after (⟨m, { broken := some .beep }, {}, []⟩ : World Bench) [.reset, .step, .step, .step, .step]
      w.machine.isActive = true ∧ w.ticksOver = false ∧ w.machine.dt = 5 ∧ w.machine.st = 1 ∧
        (Act.tickTimers w).2.machine.dt = 4 ∧ (Act.tickTimers w).2.machine.st = 1 ∧ ¬w.TicksWhole := by
  obtain ⟨m, built, active, failed, delay, due, delay', due', lost⟩ := exists_after
    { program := some [0x61, 0x05, 0xf1, 0x15, 0x61, 0x01, 0xf1, 0x18] } 0 ({ broken := some .beep } : Bench) {}
    [.reset, .step, .step, .step, .step]
    (fun w => w.machine.isActive = true ∧ w.ticksOver = false ∧ w.machine.dt = 5 ∧ w.machine.st = 1 ∧
      (Act.tickTimers w).2.machine.dt = 4 ∧ (Act.tickTimers w).2.machine.st = 1 ∧ w.losesBeep = true)
    (by decide +kernel)
  refine ⟨m, built, active, failed, delay, due, delay', due', ?_⟩
  rw [ticksWhole_iff active, delay]
  simp [lost]

end World
end Chip8
