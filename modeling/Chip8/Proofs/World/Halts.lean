import Chip8.Proofs.World.Bounds
import Chip8.Proofs.World.Words

/-!
Where a step halts a machine, and what it has done by then. An instruction that halts the machine does nothing else; a
machine that runs off the end of memory has carried out the whole instruction before; and where no instruction was
found, none has been carried out since the machine was switched on.
-/

namespace Chip8

/-- The code that asks for a halt. -/
theorem Extension.eq_of_decode_halt {code : UInt8} {v : Registers} {i : UInt16} {ram : Ram} {window : TextWindow}
    (h : (decode code v i ram window).value = .control .halt) : code = 0xf3 := by
  rw [decode, Noted.value_bind] at h
  split at h
  · cases h
  · split at h
    · next asked found =>
      cases h
      unfold control? at found
      split at found
      · cases found
      · cases found
      · cases found
      · next same => exact UInt8.toNat_inj.mp same
      · cases found
      · cases found
      · cases found
    · split at h
      · cases h
      · cases h

namespace Machine
variable {m n : Machine} {instruction : Instruction} {reason : HaltReason} {done : Noted Executed}

/-- The instructions that halt a machine, with the reason that they give. -/
inductive Halts (m : Machine) : Instruction → HaltReason → Prop
  | overflow {addr} : 16 ≤ m.sp.toNat → Halts m (.call addr) (.stackOverflow m.pc)
  | underflow : m.sp = 0 → Halts m .ret (.stackUnderflow m.pc)
  | asked : Halts m (.extension 0xf3) .requested

theorem execute_of_halts (h : m.Halts instruction reason) :
    ∃ done, m.execute instruction = some done ∧
      done.value = { machine := { m with status := .halted reason }, flow := .stay } := by
  cases h with
  | overflow full => exact ⟨_, dif_neg (Nat.not_lt.mpr full), rfl⟩
  | underflow empty => exact ⟨_, if_pos empty, rfl⟩
  | asked => exact ⟨_, rfl, rfl⟩

theorem halts_of_extend {code : UInt8} (running : m.status = .running)
    (halted : (m.extend code).value.machine.status = .halted reason) : m.Halts (.extension code) reason := by
  have going : m.status ≠ .halted reason := by simp [running]
  unfold extend at halted
  rw [Noted.value_bind] at halted
  split at halted
  · exact absurd halted going
  · next control asked =>
    cases control with
    | halt =>
      cases halted
      obtain rfl := Extension.eq_of_decode_halt asked
      exact .asked
    | powerDown => cases halted
    | logging | clockMultiplier | reset => exact absurd halted going
  · exact absurd halted going

/-- No other instruction halts a machine. -/
theorem halts_of_execute (running : m.status = .running) (executed : m.execute instruction = some done)
    (halted : done.value.machine.status = .halted reason) : m.Halts instruction reason := by
  have kept : done.value.machine.status ≠ m.status := by simp [running, halted]
  cases instruction with
  | extension code =>
    cases executed
    exact halts_of_extend running halted
  | ret =>
    by_cases empty : m.sp = 0
    · rw [execute, ret, if_pos empty] at executed
      cases executed
      cases halted
      exact .underflow empty
    · simp only [execute, ret, if_neg empty] at executed
      obtain ⟨sp, -, rest⟩ := Option.bind_eq_some_iff.mp executed
      obtain ⟨addr, -, rest⟩ := Option.bind_eq_some_iff.mp rest
      cases rest
      exact absurd rfl kept
  | call addr =>
    by_cases room : m.sp.toNat < 16
    · rw [execute, call_of_room room] at executed
      cases executed
      exact absurd rfl kept
    · rw [execute, call, dif_neg room] at executed
      cases executed
      cases halted
      exact .overflow (Nat.not_lt.mp room)
  | waitKey x =>
    cases executed
    cases halted
  | jumpOffset addr =>
    simp only [execute] at executed
    split at executed
    · cases executed
      exact absurd rfl kept
    · cases executed
  | loadGlyph x =>
    obtain ⟨addr, -, rfl⟩ := Option.map_eq_some_iff.mp executed
    exact absurd rfl kept
  | loadRegs x =>
    have same : (m.loadRegisters x).status = m.status := by
      unfold loadRegisters
      rfl
    cases executed
    exact absurd same kept
  | _ =>
    cases executed
    exact absurd rfl kept

/-- So a machine that an instruction has halted is otherwise as it was. -/
theorem halted_of_execute (running : m.status = .running) (executed : m.execute instruction = some done)
    (halted : done.value.machine.status = .halted reason) :
    m.Halts instruction reason ∧ done.value = { machine := { m with status := .halted reason }, flow := .stay } := by
  have halts := halts_of_execute running executed halted
  obtain ⟨done', executed', told⟩ := execute_of_halts halts
  obtain rfl := Option.some.inj (executed.symm.trans executed')
  exact ⟨halts, told⟩

/-! ### Steps -/

/-- How a step comes to halt a machine that runs, and what it leaves then. -/
inductive HaltedBy (m : Machine) : HaltReason → Machine → Prop
  /-- A call with the stack full. -/
  | overflow (op : Opcode) : m.ram.word? m.pc = some op.word → op.group = 2 → m.sp = 16 →
      HaltedBy m (.stackOverflow m.pc)
        { m with instructions := m.instructions + 1, status := .halted (.stackOverflow m.pc) }
  /-- A return with the stack empty. -/
  | underflow (op : Opcode) : m.ram.word? m.pc = some op.word → op.IsReturn → m.sp = 0 →
      HaltedBy m (.stackUnderflow m.pc)
        { m with instructions := m.instructions + 1, status := .halted (.stackUnderflow m.pc) }
  | requested (op : Opcode) : m.ram.word? m.pc = some op.word → op.IsExtension → op.nn = 0xf3 →
      m.config.compatibility = false →
      HaltedBy m .requested { m with instructions := m.instructions + 1, status := .halted .requested }
  /-- The program begins where no instruction lies inside memory. -/
  | nowhere : m.pc.toNat = 4095 → m.config.bootAddress.toNat = 4095 → m.instructions = 0 →
      HaltedBy m (.outOfBounds m.pc) { m with status := .halted (.outOfBounds m.pc) }
  /-- A whole instruction was carried out, and no other one comes after it. -/
  | ranOff {instruction : Instruction} {done : Noted Executed} {n : Machine} : m.next? = some instruction →
      m.counted.execute instruction = some done → (done.value.machine.follow done.value.flow).value = n →
      n.isActive = true → 4095 ≤ n.pc.toNat →
      HaltedBy m (.outOfBounds n.pc) { n with status := .halted (.outOfBounds n.pc) }

/-- Instructions that halt a machine, by the words that stand for them. -/
theorem Sound.haltedBy (h : m.Sound) (next : m.next? = some instruction) (halts : m.counted.Halts instruction reason) :
    m.HaltedBy reason { m.counted with status := .halted reason } := by
  obtain ⟨-, word, found, decoded⟩ := next?_eq_some_iff.mp next
  have encodes := Instruction.decode_eq_iff.mp decoded
  cases halts with
  | overflow full =>
    cases encodes with
    | call group => exact .overflow ⟨word⟩ found group (UInt8.toNat_inj.mp (Nat.le_antisymm h.sp full))
  | underflow empty =>
    cases encodes with
    | ret ret => exact .underflow ⟨word⟩ found ret empty
  | asked =>
    obtain ⟨extension, extended, code⟩ := Instruction.decode_eq_extension_iff.mp decoded
    exact .requested ⟨word⟩ found extension code extended

theorem checkEnd_cases (m : Machine) :
    m.checkEnd.value = m ∨
      m.isActive = true ∧ 4095 ≤ m.pc.toNat ∧ m.checkEnd.value = { m with status := .halted (.outOfBounds m.pc) } := by
  unfold checkEnd
  split
  · next ended =>
    obtain ⟨active, past⟩ := Bool.and_eq_true_iff.mp ended
    refine Or.inr ⟨active, ?_, rfl⟩
    simpa [isPastEnd, ramSize] using past
  · exact Or.inl rfl

theorem status_follow (m : Machine) (flow : Flow) : (m.follow flow).value.status = m.status := by
  cases flow <;> rfl

/-- An instruction that wants something done outside the machine does not halt it, and neither does what is done. -/
theorem Fulfilled.not_halted (fulfilled : Fulfilled done.value n) (running : m.status = .running)
    (executed : m.execute instruction = some done) (wish : done.value.request ≠ .none) : n.status ≠ .halted reason := by
  have going : ∀ reason, done.value.machine.status ≠ .halted reason := by
    intro reason halted
    obtain ⟨-, told⟩ := halted_of_execute running executed halted
    exact wish (by rw [told])
  cases fulfilled with
  | kept _ => exact going reason
  | restarted _ again =>
    rcases again.status with kept | off | runs
    · rw [kept]
      exact going reason
    · simp [off]
    · simp [runs]

/-- After a reset the program counter is where a program begins, or where it was. -/
theorem Sound.pc_of_restarted (h : m.Sound) (begins : m.Begins) (next : m.next? = some instruction)
    (executed : m.counted.execute instruction = some done) (again : Restarted done.value.machine n) :
    n.pc.toNat ≤ lastPlace := by
  obtain ⟨-, -, inside⟩ := h.executed next executed
  rcases again.eq_or with rfl | ⟨ram, status, rfl⟩
  · exact inside
  · obtain ⟨logging, clock, config⟩ := (effect_of_execute executed).config
    change done.value.machine.config.bootAddress.toNat ≤ lastPlace
    rw [config]
    exact begins.of_next? next

theorem Stepped.haltedBy (step : m.Stepped n) (h : m.Sound) (begins : m.Begins) (running : m.status = .running)
    (halted : n.status = .halted reason) : m.HaltedBy reason n := by
  cases step with
  | idle stopped => exact absurd running stopped
  | key waiting => simp [running] at waiting
  | pastEnd _ outside =>
    have active : m.isActive = true := by simp [isActive, Status.isActive, running]
    rcases h.pc active with inside | ⟨boot, place, none⟩
    · have room : m.pc.toNat + 1 < ramSize := by
        simp only [lastPlace, ramSize] at inside ⊢
        omega
      simp [Ram.word?, room] at outside
    · cases halted
      exact .nowhere place (boot ▸ place) none
  | @carried _ done k next executed fulfilled =>
    have counted : m.counted.status = .running := running
    cases fulfilled with
    | restarted wish again =>
      -- It starts over with its first instruction inside memory, so that the check at the end of the step passes.
      obtain ⟨-, keeps, -⟩ := h.executed next executed
      have place := h.pc_of_restarted begins next executed again
      have going : k.status ≠ .halted reason :=
        Fulfilled.not_halted (.restarted wish again) counted executed (by simp [wish])
      rw [keeps.stay wish] at halted
      rcases Machine.checkEnd_cases _ with same | ⟨-, past, -⟩
      · rw [same] at halted
        exact absurd halted going
      · change 4095 ≤ _ at past
        simp only [lastPlace, ramSize] at place
        exact absurd (Nat.le_trans past place) (by decide)
    | kept _ =>
      -- Either the instruction itself has halted it, or the check has.
      rcases (done.value.machine.follow done.value.flow).value.checkEnd_cases with same | ⟨active, past, same⟩
      · rw [same, status_follow] at halted
        obtain ⟨halts, told⟩ := halted_of_execute counted executed halted
        rw [same, told]
        exact h.haltedBy next halts
      · rw [same] at halted ⊢
        cases halted
        exact .ranOff next executed rfl active past

/-- A step that fails has not halted the machine. -/
theorem Broken.not_halted (step : m.Broken n) (running : m.status = .running) : n.status ≠ .halted reason := by
  cases step with
  | crashed next executed => simp [counted, running]
  | failed next executed wish fulfilled =>
    have counted : m.counted.status = .running := running
    exact fulfilled.not_halted counted executed (by rcases wish with wish | wish <;> simp [wish])

/-- A step leaves a machine active only if a program has room for its first instruction. -/
theorem Stepped.room (step : m.Stepped n) (begins : m.Begins) (active : n.isActive = true) :
    m.config.bootAddress.toNat ≤ lastPlace := by
  cases step with
  | idle stopped =>
    rcases begins with room | ⟨unasked, -⟩
    · exact room
    · rcases status : m.status with _ | _ | register | reason
      · simp [isActive, Status.isActive, status] at active
      · exact absurd status stopped
      · exact absurd status (unasked register)
      · simp [isActive, Status.isActive, status] at active
  | key waiting _ =>
    rcases begins with room | ⟨unasked, -⟩
    · exact room
    · exact absurd waiting (unasked _)
  | pastEnd => cases active
  | carried next => exact begins.of_next? next

theorem Broken.room (step : m.Broken n) (begins : m.Begins) : m.config.bootAddress.toNat ≤ lastPlace := by
  cases step with
  | crashed next => exact begins.of_next? next
  | failed next => exact begins.of_next? next

end Machine

namespace World
variable {δ : Type} [Devices δ] {config : Config} {w : World δ}

theorem Reachable.stepped (h : w.Reachable config) : (Act.step w).2.Reachable config :=
  h.reaches ⟨[.step], by rw [through_cons]; rfl⟩

/-- After a step an active machine has an instruction to carry out next. -/
theorem Reachable.pc_of_step (h : w.Reachable config) (active : (Act.step w).2.machine.isActive = true) :
    (Act.step w).2.machine.pc.toNat < 4095 := by
  refine Nat.lt_of_not_le fun past => ?_
  obtain ⟨-, -, last, -⟩ := h.stepped.at_end active past
  obtain ⟨-, lettered, -⟩ := h.settings
  have room : w.machine.config.bootAddress.toNat ≤ Machine.lastPlace := by
    have ended := Act.step_leaves (m := w.machine) w rfl
    unfold Act.Ends at ended
    split at ended
    · next run =>
      rw [run] at active
      exact ended.room h.begins active
    · exact ended.room h.begins
  rw [lettered.boot, last] at room
  exact absurd room (by decide)

theorem halts_of_step {instruction : Instruction} {reason : HaltReason}
    (next : w.machine.next? = some instruction) (halts : w.machine.counted.Halts instruction reason) :
    (Act.step w).2.machine.status = .halted reason := by
  obtain ⟨done, executed, told⟩ := Machine.execute_of_halts halts
  obtain ⟨after, run, left⟩ := Act.step_of_next next executed (by rw [told])
  rw [run, left, told]
  rfl

/-- A step of a running machine halts it in one of five ways, each of which says all that the step has done. A call
with the stack full, a return with the stack empty and a request halt it where it is, with nothing else changed but the
number of instructions, and only these words do. Past the end of memory it is halted with its last instruction done, or
with none done if its program begins there. And a machine that is active after a step has a next instruction. -/
theorem halts_are_precise (reached : w.Reachable config) :
    let after := (Act.step w).2
    (w.machine.status = .running →
      (∀ reason, after.machine.status = .halted reason →
        (Act.step w).1 = .ok () ∧ w.machine.HaltedBy reason after.machine) ∧
      ((∃ pc, after.machine.status = .halted (.stackOverflow pc)) ↔
        ∃ op : Opcode, w.machine.ram.word? w.machine.pc = some op.word ∧ op.group = 2 ∧ w.machine.sp = 16) ∧
      ((∃ pc, after.machine.status = .halted (.stackUnderflow pc)) ↔
        ∃ op : Opcode, w.machine.ram.word? w.machine.pc = some op.word ∧ op.IsReturn ∧ w.machine.sp = 0)) ∧
    (after.machine.isActive = true → after.machine.pc.toNat < 4095) := by
  refine ⟨fun running => ?_, reached.pc_of_step⟩
  have precise : ∀ reason, (Act.step w).2.machine.status = .halted reason →
      (Act.step w).1 = .ok () ∧ w.machine.HaltedBy reason (Act.step w).2.machine := by
    intro reason halted
    have ended := Act.step_leaves (m := w.machine) w rfl
    unfold Act.Ends at ended
    split at ended
    · next run =>
      rw [run] at halted ⊢
      exact ⟨rfl, ended.haltedBy reached.sound reached.begins running halted⟩
    · next run =>
      rw [run] at halted
      exact absurd halted (ended.not_halted running)
  refine ⟨precise, ⟨?_, ?_⟩, ⟨?_, ?_⟩⟩
  · rintro ⟨pc, halted⟩
    obtain ⟨-, by'⟩ := precise _ halted
    generalize (Act.step w).2.machine = n at by'
    cases by' with
    | overflow op found group full => exact ⟨op, found, group, full⟩
  · rintro ⟨op, found, group, full⟩
    refine ⟨w.machine.pc, halts_of_step (Machine.next?_of_word running found) ?_⟩
    rw [Instruction.decode_eq_iff.mpr (.call group)]
    exact .overflow (by rw [show w.machine.counted.sp = 16 from full]; decide)
  · rintro ⟨pc, halted⟩
    obtain ⟨-, by'⟩ := precise _ halted
    generalize (Act.step w).2.machine = n at by'
    cases by' with
    | underflow op found ret empty => exact ⟨op, found, ret, empty⟩
  · rintro ⟨op, found, ret, empty⟩
    refine ⟨w.machine.pc, halts_of_step (Machine.next?_of_word running found) ?_⟩
    rw [Instruction.decode_eq_iff.mpr (.ret ret)]
    exact .underflow empty

/-- A wait for a key that is the last instruction in memory: the register is cleared, and the machine does not wait. -/
theorem wait_at_end_halts :
    let config : Config := { bootAddress := 0xffe, program := some [0xf3, 0x0a] }
    ∃ m, Machine.build config 0 = .ok m ∧
      let w := World.after (⟨m, {}, {}, []⟩ : World Bench) [.reset]
      w.Reachable config ∧ w.machine.status = .running ∧ w.machine.next? = some (.waitKey 3) ∧
        (Act.step w).1 = .ok () ∧
        (Act.step w).2.machine = { w.machine with
          v := w.machine.v.setIfInBounds 3 0
          pc := w.machine.pc + 2
          instructions := w.machine.instructions + 1
          status := .halted (.outOfBounds 0x1000) } := by
  intro config
  obtain ⟨m, built, running, next, pc, halted⟩ := exists_after config 0 ({} : Bench) {} [.reset]
    (fun w => w.machine.status = .running ∧ w.machine.next? = some (.waitKey 3) ∧ w.machine.pc = 0xffe ∧
      (Act.step w).2.machine.status = .halted (.outOfBounds 0x1000))
    (by decide +kernel)
  have reached := reachable_after built ({} : Bench) {} [.reset]
  refine ⟨m, built, ?_⟩
  dsimp only
  generalize World.after (⟨m, {}, {}, []⟩ : World Bench) [.reset] = w at reached running next pc halted ⊢
  obtain ⟨precise, -⟩ := (halts_are_precise reached).1 running
  obtain ⟨done, halts⟩ := precise _ halted
  refine ⟨reached, running, next, done, ?_⟩
  generalize (Act.step w).2.machine = after at halts
  generalize ended : HaltReason.outOfBounds 0x1000 = reason at halts
  cases halts with
  | overflow | underflow | requested => cases ended
  | nowhere place => simp [pc] at place
  | ranOff next' executed moved =>
    obtain rfl := Option.some.inj (next.symm.trans next')
    cases executed
    rw [← ended, ← moved]
    rfl

end World
end Chip8
