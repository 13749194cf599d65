import Chip8.Bench
import Chip8.Proofs.Machine.Strings
import Chip8.Proofs.World.Words

/-!
Blocks of registers in memory. A block that is stored at I comes back when it is loaded from there, also where it goes
around the end of memory. The font refuses its part of the block, and its own bytes are loaded instead.
-/

namespace Chip8

namespace Ram
variable {ram : Ram} {addr j : Nat} {bytes : List UInt8}

theorem wrap_wrap (addr : Nat) : wrap (wrap addr) = wrap addr := wrap_of_lt (wrap_lt addr)

theorem read_wrap (ram : Ram) (addr : Nat) : ram.read (wrap addr) = ram.read addr := by
  simp only [read, wrap_wrap]

/-- Bytes that do not come around to each other are found where they were stored, outside of the font. -/
theorem getElem?_storeAll (short : bytes.length ≤ ramSize) (hj : j < bytes.length)
    (free : ram.isProtected (wrap (addr + j)) = false) :
    bytes[j]? = some ((ram.storeAll addr bytes).value.read (addr + j)) := by
  induction bytes generalizing ram addr j with
  | nil => cases hj
  | cons b rest ih =>
    rw [List.length_cons] at short hj
    cases j with
    | zero =>
      have here : ram.isProtected (wrap addr) = false := free
      have stored : ((ram.store addr b).value.getD ram).read addr = b := by
        rw [store_of_open here, Option.getD_some, read_put, if_pos rfl]
      -- What is stored behind the first byte does not come around to it.
      have kept : (((ram.store addr b).value.getD ram).storeAll (addr + 1) rest).value.read (wrap addr) =
          ((ram.store addr b).value.getD ram).read (wrap addr) := by
        refine Decidable.byContradiction fun changed => ?_
        obtain ⟨⟨i, hi, same⟩, -⟩ := exists_of_storeAll_changed (wrap_lt addr) changed
        rw [Nat.add_assoc, Nat.add_comm 1 i] at same
        exact wrap_add_ne (i := 0) (Nat.succ_pos i) (by omega) same.symm
      rw [read_wrap, read_wrap, stored] at kept
      exact congrArg some kept.symm
    | succ j =>
      have further : addr + 1 + j = addr + (j + 1) := by omega
      have behind : ((ram.store addr b).value.getD ram).isProtected (wrap (addr + 1 + j)) = false := by
        rw [isProtected_of_font (font_getD_store ..), further, free]
      have later := ih (by omega) (Nat.lt_of_succ_lt_succ hj) behind
      rw [further] at later
      exact later

/-- All else stays: the bytes at which nothing is stored, and those of the font. -/
theorem read_storeAll {k : Nat} (hk : k < ramSize)
    (kept : ∀ i < bytes.length, k = wrap (addr + i) → ram.isProtected k = true) :
    (ram.storeAll addr bytes).value.read k = ram.read k := by
  refine Decidable.byContradiction fun changed => ?_
  obtain ⟨⟨i, hi, place⟩, free⟩ := exists_of_storeAll_changed hk changed
  rw [kept i hi place] at free
  cases free

end Ram

namespace Machine
variable (m : Machine) {x r : Register}

theorem length_firstRegisters (x : Register) : (m.firstRegisters x).length = x.val + 1 := by
  have few := x.isLt
  rw [firstRegisters, List.length_take, Vector.length_toList]
  omega

theorem getElem?_firstRegisters (h : r ≤ x) : (m.firstRegisters x)[r.val]? = some m.v[r] := by
  have first : r.val < x.val + 1 := Nat.lt_succ_of_le h
  rw [firstRegisters, List.getElem?_take_of_lt first, Vector.getElem?_toList]
  exact Vector.getElem?_eq_getElem r.isLt

/-- The place of a register in the block at I. -/
def blockPlace (m : Machine) (r : Register) : Nat := Ram.wrap (m.i.toNat + r.val)

/-- Memory with the registers up to VX stored in the block at I. -/
def withBlock (m : Machine) (x : Register) : Ram := (m.ram.storeAll m.i.toNat (m.firstRegisters x)).value

theorem read_withBlock_of_free (h : r ≤ x) (free : m.ram.isProtected (m.blockPlace r) = false) :
    (m.withBlock x).read (m.blockPlace r) = m.v[r] := by
  have length := m.length_firstRegisters x
  have short : (m.firstRegisters x).length ≤ ramSize := length ▸ Nat.le_trans x.isLt (by decide)
  have among : r.val < (m.firstRegisters x).length := length ▸ Nat.lt_succ_of_le h
  have stored := Ram.getElem?_storeAll short among free
  rw [m.getElem?_firstRegisters h] at stored
  rw [blockPlace, Ram.read_wrap]
  exact (Option.some.inj stored).symm

theorem read_withBlock_of_own (own : m.ram.isProtected (m.blockPlace r) = true) :
    (m.withBlock x).read (m.blockPlace r) = m.ram.read (m.blockPlace r) :=
  Ram.read_storeAll (Ram.wrap_lt _) fun _ _ _ => own

theorem read_withBlock_of_outside {k : Nat} (hk : k < ramSize) (outside : ∀ r ≤ x, m.blockPlace r ≠ k) :
    (m.withBlock x).read k = m.ram.read k := by
  refine Ram.read_storeAll hk fun j hj place => ?_
  rw [m.length_firstRegisters] at hj
  have small : j < 16 := Nat.lt_of_lt_of_le hj x.isLt
  exact absurd place.symm (outside ⟨j, small⟩ (Nat.le_of_lt_succ hj))

theorem getElem_loadRegisters_block :
    (m.loadRegisters x).v[r] = if r ≤ x then m.ram.read (m.blockPlace r) else m.v[r] := by
  rw [blockPlace, Ram.read_wrap]
  exact m.getElem_loadRegisters x r

end Machine

namespace World
variable {δ : Type} [Devices δ] {w : World δ} {op : Opcode}

section
variable (running : w.machine.status = .running) (found : w.machine.ram.word? w.machine.pc = some op.word)
include running found

theorem step_stores_bytes {instruction : Instruction} {bytes : List UInt8}
    (decoded : Instruction.decode op w.machine.config.compatibility = instruction)
    (executed : w.machine.counted.execute instruction = some (w.machine.counted.storeAtIndex bytes)) :
    ∃ after, Act.step w = (.ok (), after) ∧ after.machine.v = w.machine.v ∧ after.machine.i = w.machine.i ∧
      after.machine.ram = (w.machine.ram.storeAll w.machine.i.toNat bytes).value := by
  have next : w.machine.next? = some instruction := decoded ▸ Machine.next?_of_word running found
  obtain ⟨after, pc, status, run, same⟩ := Act.step_settles next executed rfl
  exact ⟨after, run, by rw [same]; rfl, by rw [same]; rfl, by rw [same]; rfl⟩

theorem step_stores (stores : op.IsTransfer 0x55) :
    ∃ after, Act.step w = (.ok (), after) ∧ after.machine.v = w.machine.v ∧ after.machine.i = w.machine.i ∧
      after.machine.ram = w.machine.withBlock op.x :=
  step_stores_bytes running found (Instruction.decode_eq_iff.mpr (.storeRegs stores)) rfl

theorem step_loads (loads : op.IsTransfer 0x65) :
    ∃ after, Act.step w = (.ok (), after) ∧ after.machine.i = w.machine.i ∧ after.machine.ram = w.machine.ram ∧
      ∀ r, after.machine.v[r] =
        if r ≤ op.x then w.machine.ram.read (w.machine.blockPlace r) else w.machine.v[r] := by
  have decoded : Instruction.decode op w.machine.config.compatibility = .loadRegs op.x :=
    Instruction.decode_eq_iff.mpr (.loadRegs loads)
  obtain ⟨after, pc, status, run, same⟩ := Act.step_settles (decoded ▸ Machine.next?_of_word running found) rfl rfl
  refine ⟨after, run, by rw [same]; rfl, by rw [same]; rfl, fun r => ?_⟩
  rw [same]
  exact w.machine.counted.getElem_loadRegisters_block

end

/-- Registers that are stored at I come back when they are loaded from there, whatever I is and whatever has become of
the registers in between. In the place of those that the font refuses come the bytes of the font. Neither word changes
I. Storing changes no register and no byte outside of the block, and loading changes no memory and none of the registers
behind VX. -/
theorem registers_come_back {config : Config} (font : w.machine.ram.font = config.fontAddress)
    (running : w.machine.status = .running) (found : w.machine.ram.word? w.machine.pc = some op.word)
    (stores : op.IsTransfer 0x55) :
    let place := w.machine.blockPlace
    ∃ stored, Act.step w = (.ok (), stored) ∧ stored.machine.v = w.machine.v ∧ stored.machine.i = w.machine.i ∧
      (∀ k < ramSize, (∀ r ≤ op.x, place r ≠ k) → stored.machine.ram.read k = w.machine.ram.read k) ∧
      ∀ (u : World δ) (op' : Opcode), u.machine.status = .running →
        u.machine.ram.word? u.machine.pc = some op'.word → op'.IsTransfer 0x65 → op'.x = op.x →
        u.machine.i = w.machine.i →
        (∀ r ≤ op.x, u.machine.ram.read (place r) = stored.machine.ram.read (place r)) →
        ∃ loaded, Act.step u = (.ok (), loaded) ∧ loaded.machine.i = w.machine.i ∧
          loaded.machine.ram = u.machine.ram ∧
          (∀ r, op.x < r → loaded.machine.v[r] = u.machine.v[r]) ∧
          ∀ r ≤ op.x,
            (place r < config.fontAddress.toNat ∨ config.fontStop ≤ place r →
              loaded.machine.v[r] = w.machine.v[r]) ∧
            (config.fontAddress.toNat ≤ place r ∧ place r < config.fontStop →
              loaded.machine.v[r] = w.machine.ram.read (place r) ∧
              (w.machine.ram.ShowsFont →
                Font.table[place r - config.fontAddress.toNat]? = some loaded.machine.v[r])) := by
  intro place
  have own : ∀ k, w.machine.ram.isProtected k = true ↔ config.fontAddress.toNat ≤ k ∧ k < config.fontStop := by
    intro k
    rw [Ram.isProtected_iff, font]
    rfl
  obtain ⟨stored, run, v, i, block⟩ := step_stores running found stores
  refine ⟨stored, run, v, i, fun k hk outside => ?_, ?_⟩
  · rw [block, w.machine.read_withBlock_of_outside hk outside]
  intro u op' running' found' loads x i' same
  obtain ⟨loaded, run', index, ram, taken⟩ := step_loads running' found' loads
  have places : u.machine.blockPlace = place := by
    funext r
    rw [Machine.blockPlace, i']
    rfl
  rw [x, places] at taken
  refine ⟨loaded, run', index.trans i', ram, fun r behind => ?_, fun r within => ?_⟩
  · rw [taken, if_neg (Fin.not_le.mpr behind)]
  have read : loaded.machine.v[r] = (w.machine.withBlock op.x).read (place r) := by
    rw [taken, if_pos within, same r within, block]
  refine ⟨fun outside => ?_, fun inside => ?_⟩
  · have free : w.machine.ram.isProtected (place r) = false := by
      rw [← Bool.not_eq_true, own]
      omega
    rw [read, w.machine.read_withBlock_of_free within free]
  · have kept : loaded.machine.v[r] = w.machine.ram.read (place r) := by
      rw [read, w.machine.read_withBlock_of_own ((own _).mpr inside)]
    refine ⟨kept, fun shows => ?_⟩
    have sprite := shows (place r - config.fontAddress.toNat) (by unfold Config.fontStop at inside; omega)
    rw [kept, sprite, font, Nat.add_sub_cancel' inside.1]

/-- A block that goes around the end of memory into the font: the register in front of it comes back, and the other one
takes the first byte of the font. -/
theorem registers_come_back_around_end :
    let config : Config :=
      { fontAddress := 0, program := some [0x60, 0x11, 0x61, 0x22, 0xaf, 0xff, 0xf1, 0x55, 0xf1, 0x65] }
    ∃ m, Machine.build config 0 = .ok m ∧
      let w := World.after (⟨m, {}, {}, []⟩ : World Bench) [.reset, .step, .step, .step]
      (w.machine.i = 0xfff ∧ w.machine.v[(0 : Register)] = 0x11 ∧ w.machine.v[(1 : Register)] = 0x22) ∧
        w.machine.ram.font = config.fontAddress ∧ w.machine.ram.ShowsFont ∧ w.machine.status = .running ∧
        w.machine.ram.word? w.machine.pc = some 0xf155 ∧ Opcode.IsTransfer ⟨0xf155⟩ 0x55 ∧
        ∃ stored, Act.step w = (.ok (), stored) ∧
          let u := { stored with machine := { stored.machine with v := Vector.replicate 16 0x77 } }
          u.machine.status = .running ∧ u.machine.ram.word? u.machine.pc = some 0xf165 ∧
          ∃ loaded, Act.step u = (.ok (), loaded) ∧ loaded.machine.v[(0 : Register)] = 0x11 ∧
            loaded.machine.v[(1 : Register)] = 0xf0 ∧ loaded.machine.v[(2 : Register)] = 0x77 := by
  intro config
  obtain ⟨m, built, holds, running, word, running', word'⟩ := exists_after config 0 ({} : Bench) {}
    [.reset, .step, .step, .step]
    (fun w => (w.machine.i = 0xfff ∧ w.machine.v[(0 : Register)] = 0x11 ∧ w.machine.v[(1 : Register)] = 0x22) ∧
      w.machine.status = .running ∧ w.machine.ram.word? w.machine.pc = some 0xf155 ∧
      (Act.step w).2.machine.status = .running ∧
      (Act.step w).2.machine.ram.word? (Act.step w).2.machine.pc = some 0xf165)
    (by decide +kernel)
  obtain ⟨-, lettered, -⟩ := (reachable_after built ({} : Bench) {} [.reset, .step, .step, .step]).settings
  have stores : Opcode.IsTransfer ⟨0xf155⟩ 0x55 := by decide
  refine ⟨m, built, ?_⟩
  dsimp only
  generalize World.after (⟨m, {}, {}, []⟩ : World Bench) [.reset, .step, .step, .step] = w
    at holds running word running' word' lettered ⊢
  obtain ⟨i, v0, v1⟩ := holds
  have found : w.machine.ram.word? w.machine.pc = some (Opcode.word ⟨0xf155⟩) := word
  obtain ⟨stored, run, -, index, -, back⟩ := registers_come_back lettered.font running found stores
  rw [run] at running' word'
  have first : w.machine.blockPlace 0 = 0xfff := by rw [Machine.blockPlace, i]; rfl
  have second : w.machine.blockPlace 1 = 0 := by rw [Machine.blockPlace, i]; rfl
  obtain ⟨loaded, run', -, -, behind, within⟩ :=
    back { stored with machine := { stored.machine with v := Vector.replicate 16 0x77 } } ⟨0xf165⟩ running' word'
      (by decide) (by decide) index fun _ _ => rfl
  have sprite := ((within 1 (by decide)).2 (by rw [second]; decide)).2 lettered.shows
  rw [second] at sprite
  refine ⟨⟨i, v0, v1⟩, lettered.font, lettered.shows, running, word, stores, stored, run, running', word', loaded, run',
    ?_, (Option.some.inj sprite).symm, behind 2 (by decide)⟩
  rw [(within 0 (by decide)).1 (by rw [first]; decide), v0]

end World
end Chip8
