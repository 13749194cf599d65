import Chip8.Proofs.World.GuestReset

/-!
A machine stays inside its bounds wherever moves lead, whatever the nodes around it are doing. In particular a machine
that is active has an instruction to carry out, but for one whose program starts at the very end of memory, and that one
never carries out any.
-/

namespace Chip8

namespace Machine
variable {m n : Machine}

theorem Sound.restarted (h : m.Sound) (again : Restarted m n) : n.Sound := by
  obtain ⟨fresh, cleared, start, -, -⟩ := h.toFits.cleared
  have begun : ∀ {k : Machine}, m.cleared? = some k → k.Fresh := by
    intro k same
    obtain rfl := Option.some.inj (cleared.symm.trans same)
    exact start
  have loaded : ∀ {k : Machine} {program loaded}, m.cleared? = some k → k.load? program = some loaded →
      loaded.value.2.Fresh := by
    intro k program loaded same found
    obtain ⟨loaded', found', fresh, -⟩ := (begun same).load program
    obtain rfl := Option.some.inj (found.symm.trans found')
    exact fresh
  cases again with
  | crashed _ => exact h
  | cleared same => exact (begun same).sound
  | loaded same found => exact (loaded same found).sound
  | running same found =>
    have fresh := loaded same found
    exact Fresh.sound ⟨⟨fresh.config, fresh.font, fresh.sp, fresh.stack⟩, fresh.pc, fresh.instructions⟩

/-- An instruction is carried out at a place inside memory. -/
theorem Sound.executed (h : m.Sound) {instruction : Instruction} {done : Noted Executed}
    (next : m.next? = some instruction) (executed : m.counted.execute instruction = some done) :
    m.counted.Sound ∧ Keeps m.counted done ∧ done.value.machine.pc.toNat ≤ lastPlace := by
  have inside : m.pc.toNat ≤ lastPlace := by
    have room := pc_of_next? next
    simp only [lastPlace, ramSize] at room ⊢
    omega
  have counted : m.counted.Sound := ⟨⟨h.config, h.font, h.sp, h.stack⟩, fun _ => Or.inl inside⟩
  obtain ⟨-, word, -, decoded⟩ := next?_eq_some_iff.mp next
  have target : ∀ addr, instruction = .jumpOffset addr → addr.toNat < ramSize := fun addr same =>
    Instruction.lt_of_decode_jumpOffset (decoded.trans same)
  obtain ⟨done', executed', keeps⟩ := counted.toFits.execute inside target
  obtain rfl := Option.some.inj (executed.symm.trans executed')
  exact ⟨counted, keeps, keeps.pc ▸ inside⟩

theorem Sound.fulfilled (h : m.Sound) {instruction : Instruction} {done : Noted Executed}
    (next : m.next? = some instruction) (executed : m.counted.execute instruction = some done)
    (fulfilled : Fulfilled done.value n) : n.Sound := by
  obtain ⟨-, keeps, inside⟩ := h.executed next executed
  have carried : done.value.machine.Sound := ⟨keeps.fits, fun _ => Or.inl inside⟩
  cases fulfilled with
  | kept _ => exact carried
  | restarted _ again => exact carried.restarted again

theorem Sound.stepped (h : m.Sound) (step : Stepped m n) : n.Sound := by
  cases step with
  | idle _ => exact h
  | key waiting _ =>
    have active : m.isActive = true := by simp [isActive, Status.isActive, waiting]
    exact ⟨⟨h.config, h.font, h.sp, h.stack⟩, fun _ => h.pc active⟩
  | pastEnd _ _ => exact (h.toFits.halt _).1
  | @carried _ done k next executed fulfilled =>
    obtain ⟨-, keeps, inside⟩ := h.executed next executed
    have place : done.value.flow ≠ .stay → k.pc.toNat ≤ lastPlace := by
      intro moves
      cases fulfilled with
      | kept _ => exact inside
      | restarted reset _ => exact absurd (keeps.stay reset) moves
    exact ((h.fulfilled next executed fulfilled).toFits.follow place).1.checkEnd.1

theorem Sound.broken (h : m.Sound) (step : Broken m n) : n.Sound := by
  cases step with
  | crashed next executed =>
    have room := pc_of_next? next
    refine ⟨⟨h.config, h.font, h.sp, h.stack⟩, fun _ => Or.inl ?_⟩
    simp only [counted, lastPlace, ramSize] at room ⊢
    omega
  | failed next executed _ fulfilled => exact h.fulfilled next executed fulfilled

theorem Sound.turned (h : m.Sound) (turn : Turned m n) : n.Sound := by
  cases turn with
  | same => exact h
  | restarted again => exact h.restarted again
  | stepped step => exact h.stepped step
  | broken step => exact h.broken step
  | received text => exact (h.receive text).1
  | written addr text => exact (h.writeAscii addr text).1
  | ticked | connected | polled => exact ⟨⟨h.config, h.font, h.sp, h.stack⟩, h.pc⟩

end Machine

namespace World
variable {δ : Type} [Devices δ] {config : Config} {w : World δ}

theorem Reachable.sound (h : w.Reachable config) : w.machine.Sound := by
  obtain ⟨entropy, m, devices, network, built, reached⟩ := h
  obtain ⟨m', built', sound⟩ := Machine.build_of_validate (valid_of_build built) entropy
  obtain rfl := Except.ok.inj (built.symm.trans built')
  exact reached.keeps (fun _ _ turn h => h.turned turn) sound

/-- Where no instruction lies inside memory, a machine is only active before it has carried out one. Its program starts
there then, and it has not come to wait for a key. -/
theorem Reachable.at_end (h : w.Reachable config) (active : w.machine.isActive = true)
    (past : 4095 ≤ w.machine.pc.toNat) :
    w.machine.status = .running ∧ w.machine.pc.toNat = 4095 ∧ config.bootAddress.toNat = 4095 ∧
      w.machine.instructions = 0 := by
  obtain ⟨-, lettered, -⟩ := h.settings
  rcases h.sound.pc active with inside | ⟨boot, place, none⟩
  · simp only [Machine.lastPlace, ramSize] at inside
    omega
  · simp only [Machine.lastPlace, ramSize] at place
    have last : config.bootAddress.toNat = 4095 := by rw [← lettered.boot, ← boot, place]
    refine ⟨?_, place, last, none⟩
    rcases h.begins with room | ⟨unasked, -⟩
    · rw [lettered.boot, last] at room
      exact absurd room (by decide)
    · rcases status : w.machine.status with _ | _ | register | reason
      · simp [Machine.isActive, Status.isActive, status] at active
      · rfl
      · exact absurd status (unasked register)
      · simp [Machine.isActive, Status.isActive, status] at active

end World
end Chip8
