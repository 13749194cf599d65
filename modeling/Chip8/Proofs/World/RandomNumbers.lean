import Chip8.Bench
import Chip8.Proofs.World.Words

/-!
The random numbers of a machine. They come from one stream, which is never taken back. The only thing that takes a
number out of it is the instruction that puts one into a register, and it takes one each time.
-/

namespace Chip8

/-- Whether the event is that of an instruction that takes a random number. -/
def Event.isRoll : Event → Bool
  | executed (.random ..) => true
  | _ => false

namespace Event
variable {e : Event}

theorem not_isRoll_of_unconcerned (h : e.concernsDisplay = false) : e.isRoll = false := by
  cases e with
  | executed => cases h
  | _ => rfl

theorem not_isRoll_of_isLoad (h : e.isLoad = true) : e.isRoll = false := by
  cases e with
  | executed => cases h
  | _ => rfl

theorem isLandmark_of_isRoll (h : e.isRoll = true) : e.isLandmark = true := by
  cases e with
  | executed => rfl
  | _ => cases h

end Event

/-- How many random numbers were taken. -/
def rolls (events : List Event) : Nat := events.countP Event.isRoll

theorem rolls_append (events later : List Event) : rolls (events ++ later) = rolls events + rolls later :=
  List.countP_append

theorem rolls_eq_zero_iff {events : List Event} : rolls events = 0 ↔ ∀ e ∈ events, e.isRoll = false := by
  simp only [rolls, List.countP_eq_zero, Bool.not_eq_true]

theorem rolls_landmarks (events : List Event) : rolls (landmarks events) = rolls events := by
  rw [rolls, rolls, landmarks, List.countP_filter]
  refine List.countP_congr fun e _ => ?_
  simp only [Bool.and_eq_true]
  exact ⟨And.left, fun roll => ⟨roll, Event.isLandmark_of_isRoll roll⟩⟩

namespace Machine
variable {m n : Machine} {es : List Event} {instruction : Instruction}

/-- No random number is taken. -/
structure RollFree (m n : Machine) (es : List Event) : Prop where
  random : n.random = m.random
  none : rolls es = 0

theorem Restarts.rollFree (again : m.Restarts n es) : m.RollFree n es := by
  refine ⟨?_, rolls_eq_zero_iff.mpr ?_⟩
  · rcases again.restarted.eq_or with rfl | ⟨ram, status, rfl⟩ <;> rfl
  have loads : ∀ {loads : List Event}, (∀ e ∈ loads, e.isLoad = true) → ∀ e ∈ loads, e.isRoll = false :=
    fun loading e he => Event.not_isRoll_of_isLoad (loading e he)
  cases again with
  | crashed => exact List.forall_mem_nil _
  | unloaded _ loading => exact loads loading
  | unshown _ loading => exact List.forall_mem_cons.mpr ⟨rfl, loads loading⟩
  | running _ loading => exact List.forall_mem_cons.mpr ⟨rfl, List.forall_mem_cons.mpr ⟨rfl, loads loading⟩⟩

theorem Fulfils.rollFree {done : Executed} (fulfilled : Fulfils done n es) : done.machine.RollFree n es := by
  cases fulfilled with
  | kept | shown => exact ⟨rfl, rfl⟩
  | restarted _ again => exact again.rollFree

theorem Tended.rollFree (tended : m.Tended n es) : m.RollFree n es := by
  obtain ⟨⟨_, _, _, _, _, rfl⟩, events⟩ := tended
  exact ⟨rfl, rolls_eq_zero_iff.mpr fun e he => Event.not_isRoll_of_unconcerned (events e he)⟩

/-- All other instructions leave the stream alone. -/
theorem random_of_execute {done : Noted Executed} (h : m.execute instruction = some done)
    (other : rolls [.executed instruction] = 0) : done.value.machine.random = m.random := by
  cases instruction with
  | random x nn =>
    have one : rolls [.executed (.random x nn)] = 1 := rfl
    omega
  | extension code =>
    cases h
    unfold extend
    rw [Noted.value_bind]
    split
    · rfl
    · next control _ => cases control <;> rfl
    · rfl
  | ret =>
    simp only [execute, ret] at h
    split at h
    · cases h
      rfl
    · obtain ⟨sp, -, rest⟩ := Option.bind_eq_some_iff.mp h
      obtain ⟨addr, -, rest⟩ := Option.bind_eq_some_iff.mp rest
      cases rest
      rfl
  | call addr =>
    simp only [execute, call] at h
    split at h
    · obtain ⟨sp, -, rfl⟩ := Option.map_eq_some_iff.mp h
      rfl
    · cases h
      rfl
  | jumpOffset addr =>
    simp only [execute] at h
    split at h
    · cases h
      rfl
    · cases h
  | loadGlyph x =>
    obtain ⟨addr, -, rfl⟩ := Option.map_eq_some_iff.mp h
    rfl
  | loadRegs x =>
    have kept : (m.loadRegisters x).random = m.random := by
      unfold loadRegisters
      rfl
    cases h
    exact kept
  | _ =>
    cases h
    rfl

theorem rollFree_of_fulfils {done : Executed} (random : done.machine.random = m.random)
    (other : rolls [.executed instruction] = 0) (fulfilled : Fulfils done n es) :
    m.RollFree n (es ++ [.executed instruction]) where
  random := fulfilled.rollFree.random.trans random
  none := by rw [rolls_append, fulfilled.rollFree.none, other]

/-- The instruction that the machine comes to, if it comes to one, takes no random number. -/
def NoRollNext (m : Machine) : Prop := ∀ x nn, m.next? ≠ some (.random x nn)

theorem NoRollNext.rolls (h : m.NoRollNext) (next : m.next? = some instruction) : rolls [.executed instruction] = 0 := by
  cases instruction with
  | random x nn => exact absurd next (h x nn)
  | _ => rfl

theorem Steps.rollFree (step : m.Steps n es) (other : m.NoRollNext) : m.RollFree n es := by
  cases step with
  | idle | key | pastEnd => exact ⟨rfl, rfl⟩
  | @carried _ done k _ next executed fulfilled =>
    obtain ⟨pc, status, settled⟩ := k.settled done.value.flow
    obtain ⟨random, none⟩ :=
      rollFree_of_fulfils (random_of_execute executed (other.rolls next)) (other.rolls next) fulfilled
    rw [settled]
    exact ⟨random, none⟩

/-- A step that fails takes no number, since nothing can fail in the one that takes one. -/
theorem Breaks.rollFree (step : m.Breaks n es) : m.RollFree n es := by
  cases step with
  | @crashed instruction _ crash =>
    refine ⟨rfl, ?_⟩
    cases instruction with
    | random => cases crash
    | _ => rfl
  | @failed instruction done _ _ _ executed wish fulfilled =>
    have other : rolls [.executed instruction] = 0 := by
      cases instruction with
      | random =>
        cases executed
        rcases wish with shown | reset
        · cases shown
        · cases reset
      | _ => rfl
    have kept : done.value.machine.random = m.counted.random := random_of_execute executed other
    exact rollFree_of_fulfils kept other fulfilled

theorem Steps.rolls_eq_one {x : Register} {nn : UInt8} (step : m.Steps n es) (next : m.next? = some (.random x nn)) :
    rolls es = 1 := by
  obtain ⟨running, word, found, -⟩ := next?_eq_some_iff.mp next
  cases step with
  | idle stopped => exact absurd running stopped
  | key waiting => simp [running] at waiting
  | pastEnd _ outside => simp [found] at outside
  | carried next' _ fulfilled =>
    obtain rfl := Option.some.inj (next.symm.trans next')
    rw [rolls_append, fulfilled.rollFree.none]
    rfl

theorem Breaks.rolls_eq_one {x : Register} {nn : UInt8} (step : m.Breaks n es) (next : m.next? = some (.random x nn)) :
    rolls es = 1 := by
  cases step with
  | crashed next' _ =>
    obtain rfl := Option.some.inj (next.symm.trans next')
    rfl
  | failed next' _ _ fulfilled =>
    obtain rfl := Option.some.inj (next.symm.trans next')
    rw [rolls_append, fulfilled.rollFree.none]
    rfl

theorem random_of_build {config : Config} {entropy : UInt64} (built : build config entropy = .ok m) :
    m.random = .ofSeed (config.seed.getD entropy) := by
  unfold build at built
  split at built
  · cases built
  · split at built
    · cases built
    · cases built
      rfl

end Machine

/-- The numbers that something takes are told by the landmarks that it passes. -/
theorem Act.Passes.rolls {δ α : Type} {x : Act δ α} {w : World δ} {P : Machine → List Event → Prop}
    (h : Act.Passes Session.Tidy w.machine [] x (fun _ => P) P) :
    ∃ es, P (x w).2.machine es ∧ Chip8.rolls (x w).2.trace = Chip8.rolls w.trace + Chip8.rolls es := by
  obtain ⟨new, trace, p⟩ := h.noted rfl
  exact ⟨_, p, by rw [trace, rolls_append, rolls_landmarks, Nat.add_comm]⟩

namespace World
variable {δ : Type} [Devices δ] {w : World δ}

/-- Only an instruction takes a number, and only one that asks for it. -/
theorem rollFree_move {mv : Move} (other : mv = .step → w.machine.NoRollNext) :
    (Act.move mv w).2.machine.random = w.machine.random ∧ rolls (Act.move mv w).2.trace = rolls w.trace := by
  have passed : Act.Passes Session.Tidy w.machine [] (Act.move mv : Act δ Unit)
      (fun _ => w.machine.RollFree) w.machine.RollFree →
      (Act.move mv w).2.machine.random = w.machine.random ∧ rolls (Act.move mv w).2.trace = rolls w.trace := by
    intro passes
    obtain ⟨es, rollFree, counted⟩ := passes.rolls
    exact ⟨rollFree.random, by rw [counted, rollFree.none, Nat.add_zero]⟩
  by_cases step : mv = .step
  · subst step
    exact passed ((Act.step_passes (Or.inr Session.perform_tidy)).mono (fun _ _ _ steps => steps.rollFree (other rfl))
      fun _ _ => Machine.Breaks.rollFree)
  by_cases reset : mv = .reset
  · subst reset
    exact passed (Act.reset_passes.mono (fun _ _ _ => Machine.Restarts.rollFree) fun _ _ => Machine.Restarts.rollFree)
  obtain ⟨new, trace, tended | ⟨⟨inbox, same⟩, none⟩⟩ := w.tended_move step reset
  · have rollFree := tended.rollFree
    refine ⟨rollFree.random, ?_⟩
    rw [trace, rolls_append, ← rolls_landmarks new, rollFree.none, Nat.zero_add]
  · rw [same, trace, rolls_append, ← rolls_landmarks new, none]
    exact ⟨rfl, Nat.zero_add _⟩

/-- An instruction that asks for a number takes the next one, and puts its masked lowest byte into its register. -/
theorem step_rolls {x : Register} {nn : UInt8} (next : w.machine.next? = some (.random x nn)) :
    ∃ after, Act.step w = (.ok (), after) ∧ after.machine.random = w.machine.random.next.2 ∧
      (∀ r : Register, after.machine.v[r] =
        if r = x then w.machine.random.next.1 &&& nn else w.machine.v[r]) ∧
      rolls after.trace = rolls w.trace + 1 := by
  obtain ⟨after, pc, status, run, same⟩ := Act.step_settles next rfl rfl
  have once : Act.Passes Session.Tidy w.machine [] (Act.step : Act δ Unit) (fun _ _ es => rolls es = 1)
      fun _ es => rolls es = 1 :=
    (Act.step_passes (Or.inr Session.perform_tidy)).mono (fun _ _ _ step => step.rolls_eq_one next)
      fun _ _ step => step.rolls_eq_one next
  obtain ⟨es, one, counted⟩ := once.rolls
  rw [run, one] at counted
  refine ⟨after, run, by rw [same]; rfl, fun r => ?_, counted⟩
  rw [same]
  exact Machine.getElem_setRegister ..

/-- Wherever moves lead, the stream has gone on by the numbers that were taken. -/
theorem Reaches.random {w after : World δ} (h : w.Reaches after) {key : Vector UInt32 8}
    (begun : w.machine.random = ⟨key, rolls w.trace⟩) : after.machine.random = ⟨key, rolls after.trace⟩ := by
  obtain ⟨moves, rfl⟩ := h
  induction moves generalizing w with
  | nil => exact begun
  | cons mv rest ih =>
    rw [through_cons]
    apply ih
    by_cases roll : mv = .step ∧ ∃ x nn, w.machine.next? = some (.random x nn)
    · obtain ⟨rfl, x, nn, next⟩ := roll
      obtain ⟨after, run, random, -, count⟩ := step_rolls next
      change (Act.step w).2.machine.random = ⟨key, rolls (Act.step w).2.trace⟩
      rw [run, random, count, begun]
      rfl
    · have other : mv = .step → w.machine.NoRollNext := fun step x nn next => roll ⟨step, x, nn, next⟩
      obtain ⟨random, count⟩ := rollFree_move other
      rw [random, count, begun]

/-- Whatever the program is, whatever is done with a machine and however its devices fail, the numbers that were taken
since the machine was built are the first ones of the stream of its seed, also if it was reset in the meantime. An
instruction that asks for a number takes the next one and puts its lowest byte, masked, into its register. Nothing else
takes a number. This holds after all operations, and also within a frame between two instructions. -/
theorem random_numbers_are_taken_in_order {config : Config} (valid : config.validate = .ok ()) (entropy : UInt64)
    (devices : δ) (network : Network) :
    let key := Random.keyOf (config.seed.getD entropy)
    ∃ m, Machine.build config entropy = .ok m ∧
      let start : World δ := ⟨m, devices, network, []⟩
      (∀ operations, start.Reaches (start.after operations)) ∧
      ∀ w, start.Reaches w →
        w.machine.random = ⟨key, rolls w.trace⟩ ∧
        (∀ op : Opcode, w.machine.status = .running → w.machine.ram.word? w.machine.pc = some op.word →
          op.group = 0xc →
          ∃ after, Act.step w = (.ok (), after) ∧
            (∀ r : Register, after.machine.v[r] =
              if r = op.x then (Random.word key (rolls w.trace)).toUInt8 &&& op.nn else w.machine.v[r]) ∧
            rolls after.trace = rolls w.trace + 1) ∧
        ∀ mv, (mv = .step → ∀ x nn, w.machine.next? ≠ some (.random x nn)) →
          (Act.move mv w).2.machine.random = w.machine.random ∧
          rolls (Act.move mv w).2.trace = rolls w.trace := by
  intro key
  obtain ⟨m, built, -⟩ := Machine.build_of_validate valid entropy
  refine ⟨m, built, reaches_after _, fun w reached => ?_⟩
  have seeded : m.random = ⟨key, 0⟩ := Machine.random_of_build built
  have random := reached.random seeded
  refine ⟨random, fun op running found group => ?_, fun mv => rollFree_move⟩
  have decoded : Instruction.decode op w.machine.config.compatibility = .random op.x op.nn :=
    Instruction.decode_eq_iff.mpr (.random group)
  obtain ⟨after, run, -, registers, count⟩ := step_rolls (decoded ▸ Machine.next?_of_word running found)
  rw [random] at registers
  exact ⟨after, run, registers, count⟩

/-- The third number, after a program that has taken two and waits for a key was reset. -/
theorem third_random_number_after_reset :
    let config : Config := { seed := some 7, program := some [0xc0, 0xff, 0xc1, 0x0f, 0xf2, 0x0a] }
    config.validate = .ok () ∧ ∃ m, Machine.build config 0 = .ok m ∧
      let w := World.after (⟨m, {}, {}, []⟩ : World Bench) [.reset, .step, .step, .step, .runTick, .reset]
      rolls w.trace = 2 ∧ w.machine.status = .running ∧ w.machine.ram.word? w.machine.pc = some 0xc0ff ∧
        Opcode.group ⟨0xc0ff⟩ = 0xc ∧ ∃ after, Act.step w = (.ok (), after) ∧
          after.machine.v[(0 : Register)] = 134 ∧ rolls after.trace = 3 := by
  intro config
  have valid : config.validate = .ok () := rfl
  obtain ⟨m, built, reaches, taken⟩ := random_numbers_are_taken_in_order valid 0 ({} : Bench) {}
  obtain ⟨m', built', count, running, word⟩ := exists_after config 0 ({} : Bench) {}
    [.reset, .step, .step, .step, .runTick, .reset]
    (fun w => rolls w.trace = 2 ∧ w.machine.status = .running ∧ w.machine.ram.word? w.machine.pc = some 0xc0ff)
    (by decide +kernel)
  obtain rfl : m = m' := Except.ok.inj (built.symm.trans built')
  have found : (World.after (⟨m, {}, {}, []⟩ : World Bench)
      [.reset, .step, .step, .step, .runTick, .reset]).machine.ram.word? _ = some (Opcode.word ⟨0xc0ff⟩) := word
  have group : Opcode.group ⟨0xc0ff⟩ = 0xc := by decide
  obtain ⟨after, run, registers, next⟩ := (taken _ (reaches _)).2.1 _ running found group
  have byte : (Random.word (Random.keyOf 7) 2).toUInt8 &&& Opcode.nn ⟨0xc0ff⟩ = 134 := by decide +kernel
  have third := registers 0
  rw [count] at third next
  exact ⟨valid, m, built, count, running, word, group, after, run, third.trans byte, next⟩

end World
end Chip8
