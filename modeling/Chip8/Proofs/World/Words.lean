import Chip8.Bench
import Chip8.Proofs.Machine.Footprint
import Chip8.Proofs.World.Isolation

/-!
What a step does that carries out a word which is no extension request. It changes what the word may change, goes on
where the word leads, and has nothing to do with the nodes.
-/

namespace Chip8

namespace Machine
variable {m n : Machine} {op : Opcode}

theorem pc_checkEnd (m : Machine) : m.checkEnd.value.pc = m.pc := by
  unfold checkEnd
  split <;> rfl

theorem next?_of_word (running : m.status = .running) (found : m.ram.word? m.pc = some op.word) :
    m.next? = some (Instruction.decode op m.config.compatibility) :=
  next?_eq_some_iff.mpr ⟨running, op.word, found, rfl⟩

theorem secluded_of_word (running : m.status = .running) (found : m.ram.word? m.pc = some op.word)
    (plain : op.IsExtension → m.config.compatibility = true) : m.Secluded := by
  intro instruction done next executed
  obtain rfl := Option.some.inj ((next?_of_word running found).symm.trans next)
  refine (confined_of_execute executed fun code asks => ?_).wish
  obtain ⟨extension, extended, -⟩ := Instruction.decode_eq_extension_iff.mp asks
  rw [plain extension] at extended
  cases extended

/-- What is settled at the end of a step is in no footprint. -/
theorem footprint_settled (h : op.Footprint m n) (flow : Flow) :
    op.Footprint m (n.follow flow).value.checkEnd.value := by
  obtain ⟨pc, status, settled⟩ := n.settled flow
  rw [settled]
  exact { h with }

theorem Stepped.footprint (step : m.Stepped n) (running : m.status = .running)
    (found : m.ram.word? m.pc = some op.word) (plain : op.IsExtension → m.config.compatibility = true) :
    op.Footprint m n ∧ op.Leads m n.pc := by
  have next := next?_of_word running found
  obtain ⟨done, k, executed, fulfilled, rfl⟩ := step.of_next next
  have wish := secluded_of_word running found plain _ _ next executed
  have encodes := Instruction.encodes_decode op m.config.compatibility
  cases fulfilled with
  | kept _ =>
    rw [pc_checkEnd]
    exact ⟨footprint_settled (footprint_of_execute encodes plain executed) _, leads_of_execute encodes plain executed⟩
  | restarted reset _ =>
    rw [reset] at wish
    cases wish

end Machine

namespace World
variable {δ : Type} [Devices δ]

/-- A step of a running machine, at a word that is no extension request, changes only what the word may change. In
memory that is the bytes that the word stores at I, and never the font. The program goes on where the word leads, one
more instruction is counted, and the nodes do not notice. -/
theorem step_changes_footprint {config : Config} {w after : World δ} {op : Opcode} (reached : w.Reachable config)
    (running : w.machine.status = .running) (found : w.machine.ram.word? w.machine.pc = some op.word)
    (plain : op.IsExtension → w.machine.config.compatibility = true) (run : Act.step w = (.ok (), after)) :
    op.Footprint w.machine after.machine ∧
    (∀ k, config.fontAddress.toNat ≤ k → k < config.fontStop →
      after.machine.ram.read k = w.machine.ram.read k) ∧
    op.Leads w.machine after.machine.pc ∧
    after.machine.instructions = w.machine.instructions + 1 ∧
    after.network = w.network := by
  have ended := Act.step_leaves (m := w.machine) w rfl
  have noticed := w.network_step (Machine.secluded_of_word running found plain)
  unfold Act.Ends at ended
  rw [run] at ended noticed
  obtain ⟨footprint, leads⟩ := Machine.Stepped.footprint ended running found plain
  obtain ⟨valid, lettered, -⟩ := reached.settings
  refine ⟨footprint, fun k start stop => ?_, leads, footprint.instructions, noticed.1⟩
  have inside : k < ramSize := Nat.lt_trans (Nat.lt_of_lt_of_le stop valid.font) valid.boot
  refine Decidable.byContradiction fun changed => ?_
  have free := (footprint.ram k inside changed).2
  unfold Config.fontStop at stop
  simp [Ram.isProtected, lettered.font, start, stop] at free

/-- Registers that are stored across the end of memory into the font: I stays, and so do the font, the screen and all
registers. -/
theorem wrapped_store_spares_font :
    let config : Config := { fontAddress := 0, program := some [0xaf, 0xff, 0xf2, 0x55] }
    ∃ m, Machine.build config 0 = .ok m ∧
      let w := World.after (⟨m, {}, {}, []⟩ : World Bench) [.reset, .step]
      (w.machine.i = 0xfff ∧ w.machine.ram.read 0 = 0xf0) ∧
        w.Reachable config ∧ w.machine.status = .running ∧ w.machine.ram.word? w.machine.pc = some 0xf255 ∧
        ¬Opcode.IsExtension ⟨0xf255⟩ ∧
        ∃ after, Act.step w = (.ok (), after) ∧ after.machine.ram.read 0 = 0xf0 ∧ after.machine.i = 0xfff ∧
          after.machine.screen = w.machine.screen ∧ (∀ r : Register, after.machine.v[r] = w.machine.v[r]) ∧
          after.machine.instructions = w.machine.instructions + 1 := by
  intro config
  obtain ⟨m, built, start, running, word, done⟩ := exists_after config 0 ({} : Bench) {} [.reset, .step]
    (fun w => (w.machine.i = 0xfff ∧ w.machine.ram.read 0 = 0xf0) ∧ w.machine.status = .running ∧
      w.machine.ram.word? w.machine.pc = some 0xf255 ∧ (Act.step w).1.isOk = true)
    (by decide +kernel)
  have reached := reachable_after built ({} : Bench) {} [.reset, .step]
  have plain : ¬Opcode.IsExtension ⟨0xf255⟩ := by decide
  have sets : ∀ r, ¬Opcode.Sets ⟨0xf255⟩ r := by decide
  refine ⟨m, built, ?_⟩
  dsimp only
  generalize World.after (⟨m, {}, {}, []⟩ : World Bench) [.reset, .step] = w at reached start running word done ⊢
  obtain ⟨after, run⟩ : ∃ after, Act.step w = (.ok (), after) := by
    rcases run : Act.step w with ⟨_ | _, after⟩
    · rw [run] at done
      cases done
    · exact ⟨after, rfl⟩
  have found : w.machine.ram.word? w.machine.pc = some (Opcode.word ⟨0xf255⟩) := word
  obtain ⟨footprint, font, -, count, -⟩ :=
    step_changes_footprint reached running found (fun extension => absurd extension plain) run
  refine ⟨start, reached, running, word, plain, after, run, ?_, ?_, ?_, ?_, count⟩
  · rw [font 0 (by decide) (by decide)]
    exact start.2
  · refine Decidable.byContradiction fun changed => ?_
    have asks := footprint.i (start.1 ▸ changed)
    exact absurd asks (by decide)
  · refine Decidable.byContradiction fun changed => ?_
    exact absurd (footprint.screen changed) (by decide)
  · intro r
    refine Decidable.byContradiction fun changed => ?_
    exact sets r (footprint.v r changed)

end World
end Chip8
