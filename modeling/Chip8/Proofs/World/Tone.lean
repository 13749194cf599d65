import Chip8.Bench
import Chip8.Proofs.World.Safety
import Chip8.Proofs.World.Timers
import Chip8.Proofs.World.Turns

/-!
When a tone ends. It is stopped by the timers, and so in the first frame that counts them down. A frame
does not count them down while the machine waits for a key, and not after the machine has stopped; a tone
that sounds then sounds on.
-/

namespace Chip8

namespace Machine
variable {m n : Machine}

theorem Restarted.toneOn (again : Restarted m n) : n.toneOn = m.toneOn := by
  rcases again.eq_or with rfl | ⟨ram, status, rfl⟩ <;> rfl

theorem Stepped.toneOn (step : Stepped m n) : n.toneOn = m.toneOn := by
  cases step with
  | idle _ => rfl
  | key _ _ => rfl
  | pastEnd _ _ => rfl
  | @carried _ done k _ executed fulfilled =>
    obtain ⟨pc, status, settled⟩ := k.settled done.value.flow
    have same : done.value.machine.toneOn = m.toneOn := (effect_of_execute executed).toneOn
    rw [settled]
    cases fulfilled with
    | kept _ => exact same
    | restarted _ again => exact again.toneOn.trans same

end Machine

namespace Act
variable {δ : Type} [Devices δ]

/-! ### The frame up to its timers -/

/-- A frame up to its timers, and whether it counts them down. -/
def untilTimers : Act δ Bool := do
  deliverMail
  if (← machine).isActive then
    pollKeys
    let going ← takeSteps (← machine).config.clockMultiplier.toNat
    return going && (← machine).isActive
  else
    return false

theorem runTick_eq_untilTimers :
    (runTick : Act δ Unit) = (do whenever (← untilTimers) tickTimers) := by
  -- The timers look at the status themselves, so that it does no harm to look at it before.
  have timers : ∀ going : Bool, whenever going (tickTimers : Act δ Unit) =
      (do whenever (going && (← machine).isActive) tickTimers) := by
    intro going
    funext w
    cases going with
    | false => rfl
    | true =>
      change tickTimers w = whenever w.machine.isActive tickTimers w
      cases active : w.machine.isActive with
      | true => rfl
      | false => exact tickTimers_of_inactive active
  rw [runTick_eq, untilTimers, bind_assoc]
  refine congrArg (deliverMail >>= ·) (funext fun _ => ?_)
  rw [bind_assoc]
  refine congrArg (machine >>= ·) (funext fun m => ?_)
  cases m.isActive with
  | false => rfl
  | true =>
    simp only [if_true, bind_assoc, pure_bind, ← timers]
    rfl

section
variable {m : Machine}

theorem takeSteps_leaves (count : Nat) :
    Leaves m (takeSteps count : Act δ Bool)
      (fun going n => n.toneOn = m.toneOn ∧ (going = false → ∃ register, n.status = .waiting register))
      fun _ => True := by
  induction count generalizing m with
  | zero => exact .pure ⟨rfl, nofun⟩
  | succ count ih =>
    refine .machine_bind ((step_leaves.mono (fun _ _ => id) fun _ _ => trivial).bind fun _ n stepped => ?_)
    have same := stepped.toneOn
    refine .machine_bind ?_
    split
    · next waiting => exact .pure ⟨same, fun _ => ⟨_, waiting⟩⟩
    · exact ih.imp fun _ _ ⟨later, waits⟩ => ⟨later.trans same, waits⟩
    · exact ih.imp fun _ _ ⟨later, waits⟩ => ⟨later.trans same, waits⟩
    · exact .pure ⟨same, nofun⟩
    · exact .pure ⟨same, nofun⟩

/-- A frame that runs on after its steps counts its timers down. -/
theorem untilTimers_leaves :
    Leaves m (untilTimers : Act δ Bool)
      (fun counts n => n.toneOn = m.toneOn ∧ if counts then n.isActive = true else n.status ≠ .running)
      fun _ => True := by
  have mail : Leaves m (deliverMail : Act δ Unit) (fun _ n => n.toneOn = m.toneOn) fun _ => True := by
    refine (deliverMail_leaves trivial).imp ?_
    rintro _ _ (rfl | ⟨text, rfl⟩) <;> rfl
  refine mail.bind fun _ n same => .machine_bind ?_
  split
  · refine (pollKeys_leaves trivial).bind ?_
    rintro _ _ ⟨keys, rfl⟩
    refine .machine_bind ((takeSteps_leaves _).bind fun going k ⟨later, waits⟩ => .machine_bind (.pure ?_))
    refine ⟨later.trans same, ?_⟩
    cases going with
    | false =>
      obtain ⟨register, waiting⟩ := waits rfl
      simp [waiting]
    | true =>
      cases active : k.isActive with
      | true => exact rfl
      | false =>
        change k.status ≠ .running
        intro running
        simp [Machine.isActive, Status.isActive, running] at active
  · next inactive => exact .pure ⟨same, fun running => inactive (by simp [Machine.isActive, Status.isActive, running])⟩

theorem untilTimers_calls : Calls m (untilTimers : Act δ Bool) fun _ _ => Toneless := by
  refine deliverMail_calls.toneless_bind fun _ n => .machine_bind ?_
  split
  · refine pollKeys_calls.toneless_bind fun _ _ => .machine_bind ?_
    exact (takeSteps_calls _).toneless_bind fun _ _ => .machine_bind (.pure toneless_nil)
  · exact .pure toneless_nil

/-! ### The whole frame -/

theorem runTick_calls : Calls m (runTick : Act δ Unit) fun _ _ _ => True := by
  rw [runTick_eq_untilTimers]
  refine untilTimers_calls.bind fun counts n _ _ => .whenever (fun _ => ?_) fun _ => trivial
  cases active : n.isActive with
  | true => exact (tickTimers_calls active).imp fun _ _ _ _ => trivial
  | false =>
    refine .machine_bind ?_
    rw [active]
    exact .pure trivial

end
end Act

namespace World
variable {δ : Type} [Devices δ] {w : World δ}

/-- The calls that have to do with the tone. -/
def soundCalls (made : List (DeviceCall × Option Fault)) : List DeviceCall :=
  (made.map Prod.fst).filter DeviceCall.isSound

theorem soundCalls_of_toneless {made : List DeviceCall} (h : Act.Toneless made) (later : List DeviceCall) :
    soundCalls (succeeded (made ++ later)) = later.filter DeviceCall.isSound := by
  have firsts : (succeeded (made ++ later)).map Prod.fst = made ++ later := by
    rw [succeeded, List.map_map]
    exact List.map_id' _
  have nothing : made.filter DeviceCall.isSound = [] :=
    List.filter_eq_nil_iff.mpr fun c hc sound => by simp [h c hc] at sound
  rw [soundCalls, firsts, List.filter_append, nothing, List.nil_append]

/-- A frame whose calls succeed has a result. -/
theorem Safe.runTick_ok (safe : w.Safe) (fine : ∀ c ∈ Act.callsOf Act.runTick w, c.2 = none) :
    ∃ after, Act.runTick w = (.ok (), after) := by
  have crash : (Act.runTick w).1 ≠ .error .crash := by
    have ended := Act.runTick_safely safe.sound w rfl safe
    unfold Act.Ends at ended
    intro crashed
    split at ended
    · next ran => simp [ran] at crashed
    · next ran => exact ended.1 (by simpa [ran] using crashed)
  obtain ⟨_, after, -, ran, -, -⟩ := Act.runTick_calls.result crash fine
  exact ⟨after, ran⟩

/-- In a frame whose calls succeed, a tone that is on is stopped once, before another one is started, if the
frame counts the timers down. If it does not, it leaves the tone on. -/
theorem runTick_of_tone (safe : w.Safe) (tone : w.machine.toneOn = true)
    (fine : ∀ c ∈ Act.callsOf Act.runTick w, c.2 = none) :
    ∃ counts between after, Act.untilTimers w = (.ok counts, between) ∧ Act.runTick w = (.ok (), after) ∧
      soundCalls (Act.callsOf Act.runTick w) =
        (if counts then .stop :: (if between.machine.st = 1 then [.beep] else []) else []) ∧
      (counts = false → after.machine.toneOn = true) ∧ (after.machine.status = .running → counts = true) := by
  obtain ⟨after, ran⟩ := safe.runTick_ok fine
  have begun := Act.untilTimers_leaves (m := w.machine) w rfl
  have silent := Act.untilTimers_calls (m := w.machine) w rfl
  unfold Act.Ends at begun silent
  have whole := ran
  rw [Act.runTick_eq_untilTimers] at ran
  rcases first : Act.untilTimers w with ⟨fault | counts, between⟩
  · rw [Act.bind_of_error first] at ran
    cases ran
  rw [first] at begun silent
  rw [Act.bind_of_ok first] at ran
  obtain ⟨same, going⟩ := begun
  obtain ⟨made, new, toneless⟩ := silent
  cases counts with
  | false =>
    -- The frame is over, and none of its calls has to do with the tone.
    obtain rfl : between = after := congrArg Prod.snd ran
    rw [← List.append_nil made] at new
    refine ⟨false, between, between, rfl, whole, ?_, fun _ => same.trans tone, fun running => absurd running going⟩
    rw [Act.callsOf_eq (congrArg Prod.snd whole) new, soundCalls_of_toneless toneless]
    rfl
  | true =>
    -- The first call of the timers is the one that stops the tone.
    have timers := Act.tickTimers_calls (m := between.machine) going between rfl
    unfold Act.Ends at timers
    rw [show Act.tickTimers between = (.ok (), after) from ran] at timers
    obtain ⟨later, new', -, rfl⟩ := timers
    rw [new, List.append_assoc, ← succeeded_append] at new'
    refine ⟨true, between, after, rfl, whole, ?_, by simp, fun _ => rfl⟩
    rw [Act.callsOf_eq (congrArg Prod.snd whole) new', soundCalls_of_toneless toneless, Machine.stops, Machine.beeps,
      same, tone]
    by_cases one : between.machine.st = 1 <;> simp [one, DeviceCall.isSound]

/-- Whatever the program is and whatever was done before, a frame of which no call fails stops a tone that is
on once, before it starts another one, if it comes to count the timers down. It does so if the machine is
running after it. A frame that does not makes no call that has to do with the tone. -/
theorem tone_stops_with_timers {config : Config} (valid : config.validate = .ok ()) (entropy : UInt64)
    (devices : δ) (network : Network) (rest : network.running = []) :
    ∃ m, Machine.build config entropy = .ok m ∧ ∀ operations : List Operation,
      let w := World.after ⟨m, devices, network, []⟩ operations
      w.machine.toneOn = true → (∀ c ∈ Act.callsOf Act.runTick w, c.2 = none) →
      ∃ counts between after, Act.untilTimers w = (.ok counts, between) ∧ Act.runTick w = (.ok (), after) ∧
        soundCalls (Act.callsOf Act.runTick w) =
          (if counts then .stop :: (if between.machine.st = 1 then [.beep] else []) else []) ∧
        (counts = false → after.machine.toneOn = true) ∧ (after.machine.status = .running → counts = true) := by
  obtain ⟨m, built, sound⟩ := Machine.build_of_validate valid entropy
  refine ⟨m, built, fun operations => ?_⟩
  have begun : Safe (⟨m, devices, network, []⟩ : World δ) := ⟨sound, rest, calm_nil⟩
  exact runTick_of_tone (begun.after operations)

/-- The tone of the first frame is stopped in the second one. -/
theorem tone_stops_while_running :
    let config : Config := { program := some [0x61, 0x01, 0xf1, 0x18, 0x12, 0x04], clockMultiplier := 2 }
    config.validate = .ok () ∧ ({} : Network).running = [] ∧ ∃ m, Machine.build config 0 = .ok m ∧
      let w := World.after (⟨m, {}, {}, []⟩ : World Bench) [.reset, .runTick]
      w.machine.toneOn = true ∧ (∀ c ∈ Act.callsOf Act.runTick w, c.2 = none) ∧
        soundCalls (Act.callsOf Act.runTick w) = [.stop] := by
  intro config
  have valid : config.validate = .ok () := rfl
  obtain ⟨m, built, stops⟩ := tone_stops_with_timers valid 0 ({} : Bench) {} rfl
  have run : (Machine.build config 0).toOption.map (fun m =>
      let w := World.after (⟨m, {}, {}, []⟩ : World Bench) [.reset, .runTick]
      decide (w.machine.toneOn = true ∧ (Act.callsOf Act.runTick w).map Prod.snd = [none, none] ∧
        (Act.runTick w).2.machine.status = .running ∧ (Act.untilTimers w).2.machine.st ≠ 1)) = some true := by
    decide +kernel
  rw [built] at run
  obtain ⟨tone, answers, running, still⟩ := of_decide_eq_true (Option.some.inj run)
  have fine : ∀ c ∈ Act.callsOf Act.runTick (World.after (⟨m, {}, {}, []⟩ : World Bench) [.reset, .runTick]),
      c.2 = none := by
    intro c hc
    have answer := List.mem_map_of_mem (f := Prod.snd) hc
    rw [answers] at answer
    simpa using answer
  obtain ⟨counts, between, after, first, ran, sounds, -, goes⟩ := stops [.reset, .runTick] tone fine
  rw [ran] at running
  rw [first] at still
  refine ⟨valid, rfl, m, built, tone, fine, ?_⟩
  rw [sounds, goes running, if_pos rfl, if_neg still]

/-- A tone that is on when the program halts sounds on: the frame only looks at the keys. -/
theorem tone_outlasts_halt :
    let config : Config :=
      { program := some [0x61, 0x01, 0xf1, 0x18, 0x00, 0xee], clockMultiplier := 2, compatibility := false }
    config.validate = .ok () ∧ ∃ m, Machine.build config 0 = .ok m ∧
      let w := World.after (⟨m, {}, {}, []⟩ : World Bench) [.reset, .runTick]
      w.machine.toneOn = true ∧ Act.callsOf Act.runTick w = [(.keys, none)] ∧
        (Act.runTick w).2.machine.toneOn = true ∧ Act.callsOf Act.runTick (Act.runTick w).2 = [] := by
  intro config
  have valid : config.validate = .ok () := rfl
  obtain ⟨m, built, -⟩ := Machine.build_of_validate valid 0
  have run : (Machine.build config 0).toOption.map (fun m =>
      let w := World.after (⟨m, {}, {}, []⟩ : World Bench) [.reset, .runTick]
      decide (w.machine.toneOn = true ∧ Act.callsOf Act.runTick w = [(.keys, none)] ∧
        (Act.runTick w).2.machine.toneOn = true ∧ Act.callsOf Act.runTick (Act.runTick w).2 = [])) = some true := by
    decide +kernel
  rw [built] at run
  exact ⟨valid, m, built, of_decide_eq_true (Option.some.inj run)⟩

end World
end Chip8
