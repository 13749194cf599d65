import Chip8.Proofs.World.DeviceCalls

/-!
How the timers tick. A tone that is on is stopped first, and then the one that is due is started; between the two the
delay timer is counted down, and after them the sound timer. Either call may fail, and then the rest is left undone.
-/

namespace Chip8

namespace Machine

/-- After a tick: both timers are lower, unless they are at zero, and a tone sounds if it was due. -/
def ticked (m : Machine) : Machine :=
  { m with dt := Act.countDown m.dt, st := Act.countDown m.st, toneOn := decide (m.st = 1) }

/-- After a tick that has got no further than to the tone that was due. -/
def tickedInPart (m : Machine) : Machine := { m with dt := Act.countDown m.dt, toneOn := false }

/-- The calls by which the timers of a machine end the tone that is on. -/
def stops (m : Machine) : List DeviceCall := if m.toneOn then [.stop] else []

/-- The calls by which the timers of a machine start the tone that is due. -/
def beeps (m : Machine) : List DeviceCall := if m.st = 1 then [.beep] else []

/-- How the timers of an active machine tick: what they answer, the machine that they leave, and their calls. -/
inductive Ticks (m : Machine) : Except Fault Unit → Machine → List (DeviceCall × Option Fault) → Prop
  | counted : Ticks m (.ok ()) m.ticked (succeeded (m.stops ++ m.beeps))
  | unstopped {fault : Fault} (on : m.toneOn = true) : Ticks m (.error fault) m [(.stop, some fault)]
  | unstarted {fault : Fault} (due : m.st = 1) :
      Ticks m (.error fault) m.tickedInPart (succeeded m.stops ++ [(.beep, some fault)])

theorem Ticks.isActive {m n : Machine} {answer : Except Fault Unit} {made : List (DeviceCall × Option Fault)}
    (h : m.Ticks answer n made) : n.isActive = m.isActive := by
  cases h <;> rfl

end Machine

theorem Act.toNat_countDown (timer : UInt8) : (countDown timer).toNat = timer.toNat - 1 := by
  unfold countDown
  split
  · next zero => simp [zero]
  · next other =>
    have positive : timer.toNat ≠ 0 := fun zero => other (UInt8.toNat_inj.mp zero)
    have le : 1 ≤ timer := UInt8.le_iff_toNat_le.mpr (Nat.one_le_iff_ne_zero.mpr positive)
    rw [UInt8.toNat_sub_of_le _ _ le, UInt8.toNat_one]

/-- A timer that a tick does not change has run out. -/
theorem Act.countDown_eq_self_iff {timer : UInt8} : countDown timer = timer ↔ timer = 0 := by
  rw [← UInt8.toNat_inj, toNat_countDown, ← UInt8.toNat_inj, UInt8.toNat_zero]
  omega

namespace Act
variable {δ : Type}

theorem callDevice_ends {α ε : Type} (c : DeviceCall) (wrap : ε → Fault) (f : δ → Noted (Except ε α × δ))
    (w : World δ) :
    (callDevice c wrap f).Ends w
      (fun _ after => after.machine = w.machine ∧ after.calls = w.calls ++ succeeded [c])
      (fun fault after => after.machine = w.machine ∧ after.calls = w.calls ++ [(c, some fault)]) := by
  refine (ends_callDevice c wrap f w).mono ?_ ?_
  · rintro _ after ⟨same, -, notes, trace, own⟩
    exact ⟨same, World.calls_of_called trace own⟩
  · rintro fault after ⟨-, same, -, notes, trace, own⟩
    exact ⟨same, World.calls_of_called trace own⟩

variable [Devices δ]

theorem silence_ends (w : World δ) :
    (silence : Act δ Unit).Ends w
      (fun _ after => after.machine = { w.machine with toneOn := false } ∧
        after.calls = w.calls ++ succeeded w.machine.stops)
      (fun fault after => w.machine.toneOn = true ∧ after.machine = w.machine ∧
        after.calls = w.calls ++ [(.stop, some fault)]) := by
  change (whenever w.machine.toneOn _).Ends w _ _
  cases on : w.machine.toneOn with
  | false =>
    have same : w.machine = { w.machine with toneOn := false } := by rw [← on]
    exact ⟨same, by simp [Machine.stops, on, succeeded]⟩
  | true =>
    have made : w.machine.stops = [.stop] := by simp [Machine.stops, on]
    rw [made]
    refine ends_bind.mpr ((callDevice_ends .stop .sound Devices.stop w).mono ?_ ?_)
    · rintro _ after ⟨-, new⟩
      exact ⟨rfl, new⟩
    · rintro fault after ⟨same, new⟩
      exact ⟨rfl, same, new⟩

theorem soundTone_ends (w : World δ) :
    (soundTone : Act δ Unit).Ends w
      (fun _ after => after.machine = { w.machine with toneOn := w.machine.toneOn || w.machine.st = 1 } ∧
        after.calls = w.calls ++ succeeded w.machine.beeps)
      (fun fault after => w.machine.st = 1 ∧ after.machine = w.machine ∧
        after.calls = w.calls ++ [(.beep, some fault)]) := by
  change (whenever (decide (w.machine.st = 1)) _).Ends w _ _
  by_cases due : w.machine.st = 1
  · have made : w.machine.beeps = [.beep] := if_pos due
    rw [decide_eq_true due, made]
    refine ends_bind.mpr ((callDevice_ends .beep .sound Devices.beep w).mono ?_ ?_)
    · rintro _ after ⟨-, new⟩
      exact ⟨by simp, new⟩
    · rintro fault after ⟨same, new⟩
      exact ⟨due, same, new⟩
  · rw [decide_eq_false due]
    exact ⟨by simp, by simp [Machine.beeps, due, succeeded]⟩

theorem tickTimers_of_inactive {w : World δ} (inactive : w.machine.isActive = false) :
    tickTimers w = (.ok (), w) := by
  change whenever w.machine.isActive _ w = _
  rw [inactive]
  rfl

theorem tickTimers_ends {w : World δ} (active : w.machine.isActive = true) :
    (tickTimers : Act δ Unit).Ends w
      (fun _ after => ∃ made, after.calls = w.calls ++ made ∧ w.machine.Ticks (.ok ()) after.machine made)
      (fun fault after => ∃ made, after.calls = w.calls ++ made ∧ w.machine.Ticks (.error fault) after.machine made) := by
  change (whenever w.machine.isActive _).Ends w _ _
  rw [active]
  refine ends_bind.mpr ((silence_ends w).mono ?_ ?_)
  · rintro _ ⟨silent, devices, network, trace⟩ ⟨same, stopped⟩
    obtain rfl : silent = { w.machine with toneOn := false } := same
    -- The delay timer is counted down before the tone that is due is started, the sound timer after it.
    have tone := soundTone_ends ⟨w.machine.tickedInPart, devices, network, trace⟩
    refine ends_bind.mpr (ends_bind.mpr (ends_bind.mpr (tone.mono ?_ ?_)))
    · rintro _ ⟨sounding, devices, network, trace⟩ ⟨sounds, new⟩
      obtain rfl : sounding = { w.machine.tickedInPart with toneOn := decide (w.machine.st = 1) } := sounds
      have made : World.calls ⟨w.machine.ticked, devices, network, trace⟩ =
          w.calls ++ succeeded (w.machine.stops ++ w.machine.beeps) := by
        rw [succeeded_append, ← List.append_assoc, ← stopped]
        exact new
      exact ⟨_, made, .counted⟩
    · rintro fault after ⟨due, left, new⟩
      have made : after.calls = w.calls ++ (succeeded w.machine.stops ++ [(.beep, some fault)]) := by
        rw [← List.append_assoc, ← stopped]
        exact new
      rw [left]
      exact ⟨_, made, .unstarted due⟩
  · rintro fault after ⟨on, same, new⟩
    rw [same]
    exact ⟨_, new, .unstopped on⟩

theorem tickTimers_ticks {w : World δ} (active : w.machine.isActive = true) :
    w.machine.Ticks (tickTimers w).1 (tickTimers w).2.machine (callsOf tickTimers w) := by
  obtain ⟨made, new, ticks⟩ := Ends.answer (P := fun answer after =>
    ∃ made, after.calls = w.calls ++ made ∧ w.machine.Ticks answer after.machine made) (tickTimers_ends active)
  rwa [callsOf_eq rfl new]

theorem tickTimers_calls {m : Machine} (active : m.isActive = true) :
    Calls m (tickTimers : Act δ Unit) fun _ n made => n = m.ticked ∧ made = m.stops ++ m.beeps := by
  rintro w rfl
  refine (tickTimers_ends active).mono ?_ ?_
  · rintro _ after ⟨made, new, ticks⟩
    generalize after.machine = n at ticks ⊢
    cases ticks
    exact ⟨_, new, rfl, rfl⟩
  · rintro fault after ⟨made, new, ticks⟩
    refine ⟨made, new, ?_⟩
    generalize after.machine = n at ticks
    cases ticks with
    | unstopped => exact ⟨[], Or.inr ⟨.stop, rfl⟩⟩
    | unstarted => exact ⟨w.machine.stops, Or.inr ⟨.beep, rfl⟩⟩

end Act

end Chip8
