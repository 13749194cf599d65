import Chip8.Bench
import Chip8.Proofs.Machine.Modes
import Chip8.Proofs.World.Display
import Chip8.Proofs.World.PowerOn

/-!
In compatibility mode a program is alone with its machine. Whatever it does, and whatever is done with the machine from
outside, no step of it is noticed by the network, its settings stay those that were given, and it neither switches the
machine off nor asks for a halt. The words that would be extension requests do nothing.
-/

namespace Chip8

namespace Machine
variable {m n : Machine}

/-- The instructions that a machine comes to in compatibility mode are confined to it. -/
theorem confined_of_next (compatible : m.config.compatibility = true) {instruction : Instruction}
    {done : Noted Executed} (next : m.next? = some instruction)
    (executed : m.counted.execute instruction = some done) : m.counted.Confined done.value := by
  refine confined_of_execute executed ?_
  rintro code rfl
  exact next?_ne_extension compatible next

theorem secluded_of_compatible (compatible : m.config.compatibility = true) : m.Secluded :=
  fun _ _ next executed => (confined_of_next compatible next executed).wish

theorem held_of_fulfilled (compatible : m.config.compatibility = true) {instruction : Instruction}
    {done : Noted Executed} (next : m.next? = some instruction) (executed : m.counted.execute instruction = some done)
    (fulfilled : Fulfilled done.value n) : m.Held n := by
  have confined := confined_of_next compatible next executed
  cases fulfilled with
  | kept _ => exact ⟨confined.config, confined.status⟩
  | restarted wish _ =>
    have asks := confined.wish
    rw [wish] at asks
    cases asks

theorem Held.settled (h : m.Held n) (flow : Flow) : m.Held (n.follow flow).value.checkEnd.value := by
  obtain ⟨_, _, same⟩ := n.settled flow
  refine ⟨by rw [same]; exact h.config, ?_⟩
  rcases n.settled_status flow with kept | plain
  · rw [kept]
    exact h.status
  · exact Or.inr plain

theorem Stepped.held (step : m.Stepped n) (compatible : m.config.compatibility = true) : m.Held n := by
  cases step with
  | idle _ => exact ⟨rfl, Or.inl rfl⟩
  | key _ _ => exact ⟨rfl, Or.inr rfl⟩
  | pastEnd _ _ => exact ⟨rfl, Or.inr rfl⟩
  | carried next executed fulfilled => exact (held_of_fulfilled compatible next executed fulfilled).settled _

theorem Broken.held (step : m.Broken n) (compatible : m.config.compatibility = true) : m.Held n := by
  cases step with
  | crashed _ _ => exact ⟨rfl, Or.inl rfl⟩
  | failed next executed _ fulfilled => exact held_of_fulfilled compatible next executed fulfilled

/-- Starting over switches the machine off, and in the end on. -/
theorem Restarted.status (again : Restarted m n) : n.status = m.status ∨ n.status = .off ∨ n.status = .running := by
  cases again with
  | crashed _ => exact Or.inl rfl
  | cleared cleared =>
    obtain ⟨ram, -, rfl⟩ := Option.map_eq_some_iff.mp cleared
    exact Or.inr (Or.inl rfl)
  | loaded cleared found =>
    obtain ⟨ram, -, rfl⟩ := Option.map_eq_some_iff.mp cleared
    obtain ⟨memory, -, rfl⟩ := Option.map_eq_some_iff.mp found
    exact Or.inr (Or.inl rfl)
  | running _ _ => exact Or.inr (Or.inr rfl)

/-- A machine whose settings are as they were given, and which was not asked to halt. -/
structure Untold (config : Config) (m : Machine) : Prop where
  config : m.config = config
  status : m.status ≠ .halted .requested

theorem Untold.of_held {config : Config} (h : m.Untold config) (held : m.Held n) : n.Untold config := by
  refine ⟨held.config.trans h.config, ?_⟩
  rcases held.status with kept | plain
  · rw [kept]
    exact h.status
  · intro halted
    rw [halted] at plain
    cases plain

theorem Untold.turned {config : Config} (h : m.Untold config) (compatible : config.compatibility = true)
    (turn : Turned m n) : n.Untold config := by
  have mode : m.config.compatibility = true := by
    rw [h.config]
    exact compatible
  cases turn with
  | restarted again =>
    constructor
    · rcases again.eq_or with same | ⟨ram, status, same⟩
      · rw [same]
        exact h.config
      · rw [same]
        exact h.config
    · rcases again.status with same | off | running
      · rw [same]
        exact h.status
      · simp [off]
      · simp [running]
  | stepped step => exact h.of_held (step.held mode)
  | broken step => exact h.of_held (step.held mode)
  | same | ticked | received | written | connected | polled => exact ⟨h.config, h.status⟩

end Machine

namespace World
variable {δ : Type} [Devices δ] {config : Config} {w : World δ}

theorem Reachable.untold (reached : w.Reachable config) (compatible : config.compatibility = true) :
    w.machine.Untold config := by
  obtain ⟨entropy, m, devices, network, built, moves⟩ := reached
  refine moves.keeps (fun _ _ turn h => Machine.Untold.turned h compatible turn) ⟨config_of_build built, ?_⟩
  rw [Machine.status_of_build built]
  nofun

theorem held_step (w : World δ) (compatible : w.machine.config.compatibility = true) :
    w.machine.Held (Act.step w).2.machine := by
  have ended := Act.step_leaves (m := w.machine) w rfl
  refine Act.Ends.answer (P := fun _ after => w.machine.Held after.machine) (ended.mono ?_ ?_)
  · intro _ after stepped
    exact stepped.held compatible
  · intro _ after broken
    exact broken.held compatible

/-- A step of a secluded machine is not noticed by the network. -/
theorem network_step (w : World δ) (secluded : w.machine.Secluded) :
    (Act.step w).2.network = w.network ∧
      ∃ notes, (Act.step w).2.trace = notes ++ w.trace ∧ ∀ e ∈ notes, e.source ≠ .network := by
  have steps : Act.Passes (fun _ _ => False) w.machine [] (Act.step : Act δ Unit) (fun _ _ _ => True) fun _ _ => True :=
    (Act.step_passes (Or.inl secluded)).mono (fun _ _ _ _ => trivial) fun _ _ _ => trivial
  obtain ⟨_, passage, -⟩ := steps.after rfl
  exact passage.alone

/-- An extension request does nothing in compatibility mode: the machine counts it and goes on behind it. -/
theorem step_of_isExtension {op : Opcode} (extension : op.IsExtension) (running : w.machine.status = .running)
    (compatible : w.machine.config.compatibility = true) (found : w.machine.ram.word? w.machine.pc = some op.word) :
    ∃ notes, Act.step w = (.ok (), { w with
      machine := { w.machine with
        pc := w.machine.pc + 2
        instructions := w.machine.instructions + 1
        status :=
          if ramSize ≤ (w.machine.pc + 2).toNat + 1 then .halted (.outOfBounds (w.machine.pc + 2)) else .running }
      trace := notes ++ w.trace }) := by
  have next : w.machine.next? = some (.system op.nnn) := by
    refine Machine.next?_eq_some_iff.mpr ⟨running, op.word, found, ?_⟩
    rw [Instruction.decode_of_isExtension extension, compatible]
    rfl
  obtain ⟨before, stepped, -⟩ := Act.step_of_execute next rfl
  obtain ⟨later, settled, -⟩ := Act.settle_notes .next
    ({ w with machine := w.machine.counted, trace := before ++ w.trace } : World δ)
  have onward : (w.machine.counted.follow .next).value.status = .running := running
  rw [Machine.checkEnd_of_running onward] at settled
  refine ⟨later ++ before, ?_⟩
  rw [List.append_assoc]
  exact stepped.trans settled

/-- In compatibility mode a program is alone with its machine. Wherever moves lead, it has not halted the machine, and
the settings are those that were given. A step makes no call of the network and notes nothing in its name, it keeps the
settings, and it does not switch the machine off. An extension word does nothing but that it is counted and passed. -/
theorem compatibility_isolates (compatible : config.compatibility = true) (reached : w.Reachable config) :
    w.machine.status ≠ .halted .requested ∧ w.machine.config = config ∧
    (Act.step w).2.machine.config = config ∧
    ((Act.step w).2.machine.status = .off → w.machine.status = .off) ∧
    (Act.step w).2.network = w.network ∧
    (∃ notes, (Act.step w).2.trace = notes ++ w.trace ∧ ∀ e ∈ notes, e.source ≠ .network) ∧
    ∀ op : Opcode, op.IsExtension → w.machine.status = .running →
      w.machine.ram.word? w.machine.pc = some op.word →
      ∃ notes, Act.step w = (.ok (), { w with
        machine := { w.machine with
          pc := w.machine.pc + 2
          instructions := w.machine.instructions + 1
          status :=
            if ramSize ≤ (w.machine.pc + 2).toNat + 1 then .halted (.outOfBounds (w.machine.pc + 2)) else .running }
        trace := notes ++ w.trace }) := by
  obtain ⟨config', status⟩ := reached.untold compatible
  have mode : w.machine.config.compatibility = true := by
    rw [config']
    exact compatible
  have held := w.held_step mode
  obtain ⟨network, notes⟩ := w.network_step (Machine.secluded_of_compatible mode)
  refine ⟨status, config', held.config.trans config', ?_, network, notes, ?_⟩
  · intro off
    rcases held.status with kept | plain
    · exact kept.symm.trans off
    · rw [off] at plain
      cases plain
  · intro op extension running found
    exact step_of_isExtension extension running mode found

/-- The word that asks for a halt, as the last one in memory: the machine halts because nothing comes after it. -/
theorem halt_word_passed :
    let config : Config := { bootAddress := 0xffe, program := some [0x0e, 0xf3] }
    config.compatibility = true ∧ ∃ m, Machine.build config 0 = .ok m ∧
      let w := World.after (⟨m, {}, {}, []⟩ : World Bench) [.reset]
      w.Reachable config ∧ Opcode.IsExtension ⟨0x0ef3⟩ ∧ w.machine.status = .running ∧
        w.machine.ram.word? w.machine.pc = some 0x0ef3 ∧ (Act.step w).1 = .ok () ∧
        (Act.step w).2.machine =
          { w.machine with pc := 0x1000, instructions := 1, status := .halted (.outOfBounds 0x1000) } ∧
        (Act.step w).2.network = w.network := by
  intro config
  obtain ⟨m, built, running, pc, word, count⟩ := exists_after config 0 ({} : Bench) {} [.reset]
    (fun w => w.machine.status = .running ∧ w.machine.pc = 0xffe ∧
      w.machine.ram.word? w.machine.pc = some 0x0ef3 ∧ w.machine.instructions = 0)
    (by decide +kernel)
  have reached := reachable_after built ({} : Bench) {} [.reset]
  have extension : Opcode.IsExtension ⟨0x0ef3⟩ := by decide
  refine ⟨rfl, m, built, ?_⟩
  dsimp only
  generalize World.after (⟨m, {}, {}, []⟩ : World Bench) [.reset] = w at reached running pc word count ⊢
  obtain ⟨-, -, -, -, network, -, ignored⟩ := compatibility_isolates rfl reached
  obtain ⟨notes, stepped⟩ := ignored ⟨0x0ef3⟩ extension running word
  refine ⟨reached, extension, running, word, by rw [stepped], ?_, network⟩
  rw [stepped, pc, count]
  rfl

end World
end Chip8
