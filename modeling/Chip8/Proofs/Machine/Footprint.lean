import Chip8.Proofs.Instruction
import Chip8.Proofs.Machine.Memory
import Chip8.Proofs.Machine.Registers

/-!
What a word may change, and where the program goes on after it. Every word that is no extension request has its place
to write to, next to which all stays as it was.
-/

namespace Chip8

namespace Ram

/-- A store changes at most the byte at its address, and no byte of the font. -/
theorem eq_wrap_of_store_changed {ram : Ram} {addr k : Nat} {value : UInt8} (hk : k < ramSize)
    (changed : ((ram.store addr value).value.getD ram).read k ≠ ram.read k) :
    k = wrap addr ∧ ram.isProtected k = false := by
  constructor
  · refine Decidable.byContradiction fun apart => changed (ram.read_store value fun same => apart ?_)
    rw [same, wrap_of_lt hk]
  · rcases own : ram.isProtected k with _ | _
    · rfl
    · exact absurd ((ram.spares_store addr value).read k hk own) changed

theorem exists_of_storeAll_changed {ram : Ram} {addr k : Nat} {bytes : List UInt8} (hk : k < ramSize)
    (changed : (ram.storeAll addr bytes).value.read k ≠ ram.read k) :
    (∃ j < bytes.length, k = wrap (addr + j)) ∧ ram.isProtected k = false := by
  induction bytes generalizing ram addr with
  | nil => exact absurd rfl changed
  | cons b rest ih =>
    by_cases first : ((ram.store addr b).value.getD ram).read k = ram.read k
    · have later : (((ram.store addr b).value.getD ram).storeAll (addr + 1) rest).value.read k ≠
          ((ram.store addr b).value.getD ram).read k := first ▸ changed
      obtain ⟨⟨j, hj, place⟩, free⟩ := ih later
      refine ⟨⟨j + 1, Nat.succ_lt_succ hj, ?_⟩, ?_⟩
      · rw [place, Nat.add_assoc, Nat.add_comm 1]
      · rwa [isProtected, font_getD_store] at free
    · obtain ⟨place, free⟩ := eq_wrap_of_store_changed hk first
      exact ⟨⟨0, Nat.zero_lt_succ _, place⟩, free⟩

end Ram

namespace Opcode

/-- Whether the word stores at an address when I is `i`: the digits of a number, or the first registers. -/
def Stores (op : Opcode) (i : UInt16) (addr : Nat) : Prop :=
  ∃ j, addr = (i.toNat + j) % 4096 ∧ (op.IsTransfer 0x33 ∧ j < 3 ∨ op.IsTransfer 0x55 ∧ j ≤ op.x.val)

/-- A word that puts a value into VX. -/
def SetsX (op : Opcode) : Prop :=
  op.group = 6 ∨ op.group = 7 ∨ op.group = 8 ∧ (op.n ≤ 7 ∨ op.n = 0xe) ∨ op.group = 0xc ∨
    op.IsTransfer 0x07 ∨ op.IsTransfer 0x0a

/-- A word that leaves a flag in VF. -/
def SetsFlag (op : Opcode) : Prop :=
  op.group = 8 ∧ (op.n = 4 ∨ op.n = 5 ∨ op.n = 6 ∨ op.n = 7 ∨ op.n = 0xe) ∨ op.group = 0xd

/-- Whether the word sets a register: VX, VF as a flag, or all from V0 to VX. -/
def Sets (op : Opcode) (r : Register) : Prop :=
  r = op.x ∧ op.SetsX ∨ r = Machine.flagRegister ∧ op.SetsFlag ∨ r ≤ op.x ∧ op.IsTransfer 0x65

instance (op : Opcode) : Decidable op.SetsX := inferInstanceAs (Decidable (_ ∨ _))

instance (op : Opcode) : Decidable op.SetsFlag := inferInstanceAs (Decidable (_ ∨ _))

instance (op : Opcode) (r : Register) : Decidable (op.Sets r) := inferInstanceAs (Decidable (_ ∨ _))

/-- What a word may change that is no extension request, apart from the program counter and the status. -/
structure Footprint (op : Opcode) (m n : Machine) : Prop where
  instructions : n.instructions = m.instructions + 1
  config : n.config = m.config
  keys : n.keys = m.keys
  toneOn : n.toneOn = m.toneOn
  inbox : n.inbox = m.inbox
  ram : ∀ k < ramSize, n.ram.read k ≠ m.ram.read k → op.Stores m.i k ∧ m.ram.isProtected k = false
  screen : n.screen ≠ m.screen → op.IsClear ∨ op.group = 0xd
  sp : n.sp ≠ m.sp → op.group = 2 ∧ n.sp.toNat = m.sp.toNat + 1 ∨ op.IsReturn ∧ n.sp.toNat + 1 = m.sp.toNat
  stack : ∀ k, n.stack[k]? ≠ m.stack[k]? → op.group = 2 ∧ k = m.sp.toNat ∧ n.stack[k]? = some m.pc
  i : n.i ≠ m.i → op.group = 0xa ∨ op.IsTransfer 0x1e ∨ op.IsTransfer 0x29
  dt : n.dt ≠ m.dt → op.IsTransfer 0x15
  st : n.st ≠ m.st → op.IsTransfer 0x18
  random : n.random ≠ m.random → op.group = 0xc
  v : ∀ r, n.v[r] ≠ m.v[r] → op.Sets r

/-- A word behind which the program simply goes on. -/
def IsPlain (op : Opcode) : Prop := ¬op.IsSkip ∧ op.group ≠ 1 ∧ op.group ≠ 2 ∧ op.group ≠ 0xb ∧ ¬op.IsReturn

/-- Where the program goes on. A call without room and a return without a call halt the machine where it is. -/
inductive Leads (op : Opcode) (m : Machine) : UInt16 → Prop
  | next : op.IsPlain → Leads op m (m.pc + 2)
  | skipNone : op.IsSkip → Leads op m (m.pc + 2)
  | skipOne : op.IsSkip → Leads op m (m.pc + 4)
  | jump : op.group = 1 → Leads op m op.nnn
  | offset : op.group = 0xb → Leads op m (op.nnn + m.v[(0 : Register)].toUInt16)
  | call : op.group = 2 → m.sp.toNat < 16 → Leads op m op.nnn
  | overflow : op.group = 2 → 16 ≤ m.sp.toNat → Leads op m m.pc
  | ret {addr} : op.IsReturn → m.sp ≠ 0 → m.stack[m.sp.toNat - 1]? = some addr → Leads op m (addr + 2)
  | underflow : op.IsReturn → m.sp = 0 → Leads op m m.pc

end Opcode

namespace Machine
open Opcode

variable {op : Opcode} {m n : Machine} {instruction : Instruction} {done : Noted Executed} {mode : Bool}

/-- An instruction is counted before it is carried out. -/
theorem footprint_counted (op : Opcode) (m : Machine) : op.Footprint m m.counted where
  instructions := rfl
  config := rfl
  keys := rfl
  toneOn := rfl
  inbox := rfl
  ram := fun _ _ changed => absurd rfl changed
  screen := fun changed => absurd rfl changed
  sp := fun changed => absurd rfl changed
  stack := fun _ changed => absurd rfl changed
  i := fun changed => absurd rfl changed
  dt := fun changed => absurd rfl changed
  st := fun changed => absurd rfl changed
  random := fun changed => absurd rfl changed
  v := fun _ changed => absurd rfl changed

theorem eq_of_setRegister_changed {x r : Register} {value : UInt8} (changed : (m.setRegister x value).v[r] ≠ m.v[r]) :
    r = x := by
  refine Decidable.byContradiction fun other => changed ?_
  rw [getElem_setRegister, if_neg other]

theorem eq_or_of_setWithFlag_changed {x r : Register} {value flag : UInt8}
    (changed : (m.setWithFlag x value flag).v[r] ≠ m.v[r]) : r = flagRegister ∨ r = x := by
  by_cases flagged : r = flagRegister
  · exact Or.inl flagged
  · refine Or.inr (Decidable.byContradiction fun other => changed ?_)
    rw [getElem_setWithFlag, if_neg flagged, if_neg other]

theorem footprint_setRegister (sets : op.SetsX) (value : UInt8) : op.Footprint m (m.counted.setRegister op.x value) :=
  { footprint_counted op m with v := fun _ changed => Or.inl ⟨eq_of_setRegister_changed changed, sets⟩ }

theorem footprint_setWithFlag (sets : op.SetsX) (flagged : op.SetsFlag) (value flag : UInt8) :
    op.Footprint m (m.counted.setWithFlag op.x value flag) :=
  { footprint_counted op m with
    v := by
      intro r changed
      rcases eq_or_of_setWithFlag_changed changed with flag | x
      · exact Or.inr (Or.inl ⟨flag, flagged⟩)
      · exact Or.inl ⟨x, sets⟩ }

theorem footprint_storeAtIndex {bytes : List UInt8}
    (stores : ∀ j < bytes.length, op.Stores m.i ((m.i.toNat + j) % 4096)) :
    op.Footprint m (m.counted.storeAtIndex bytes).value.machine :=
  { footprint_counted op m with
    ram := by
      intro k hk changed
      obtain ⟨⟨j, hj, rfl⟩, free⟩ := Ram.exists_of_storeAll_changed hk changed
      exact ⟨stores j hj, free⟩ }

theorem footprint_loadRegisters (byte : op.IsTransfer 0x65) : op.Footprint m (m.counted.loadRegisters op.x) := by
  have sets : ∀ r, (m.counted.loadRegisters op.x).v[r] ≠ m.v[r] → op.Sets r := by
    intro r changed
    refine Or.inr (Or.inr ⟨?_, byte⟩)
    refine Decidable.byContradiction fun beyond => changed ?_
    rw [getElem_loadRegisters, if_neg beyond]
    rfl
  -- Unfolded, so that the registers are not compared in any other field.
  unfold loadRegisters at sets ⊢
  exact { footprint_counted op m with v := sets }

theorem footprint_ret (ret : op.IsReturn) (executed : m.counted.ret = some done) :
    op.Footprint m done.value.machine := by
  by_cases empty : m.counted.sp = 0
  · rw [Machine.ret, if_pos empty] at executed
    cases executed
    exact { footprint_counted op m with }
  · have less := toNat_sub_one empty
    simp only [Machine.ret, if_neg empty, decrement?, Option.bind_eq_bind, Option.bind_some] at executed
    obtain ⟨addr, -, rest⟩ := Option.bind_eq_some_iff.mp executed
    cases rest
    exact { footprint_counted op m with sp := fun _ => Or.inr ⟨ret, less⟩ }

theorem footprint_call {addr : UInt16} (call : op.group = 2) (executed : m.counted.call addr = some done) :
    op.Footprint m done.value.machine := by
  by_cases room : m.counted.sp.toNat < 16
  · rw [call_of_room room] at executed
    cases executed
    have more : (m.counted.sp + 1).toNat = m.counted.sp.toNat + 1 := toNat_add_one (by omega)
    exact { footprint_counted op m with
      sp := fun _ => Or.inl ⟨call, more⟩
      stack := by
        intro k changed
        have place : k = m.sp.toNat := by
          refine Decidable.byContradiction fun other => changed ?_
          exact Vector.getElem?_set_ne room (Ne.symm other)
        subst place
        exact ⟨call, rfl, Vector.getElem?_set_self room⟩ }
  · rw [Machine.call, dif_neg room] at executed
    cases executed
    exact { footprint_counted op m with }

theorem footprint_of_execute (encodes : Instruction.Encodes op mode instruction)
    (plain : op.IsExtension → mode = true) (executed : m.counted.execute instruction = some done) :
    op.Footprint m done.value.machine := by
  cases encodes with
  | extension asks extended =>
    rw [plain asks] at extended
    cases extended
  | clearScreen clear =>
    cases executed
    exact { footprint_counted op m with screen := fun _ => Or.inl clear }
  | ret ret => exact footprint_ret ret executed
  | call call => exact footprint_call call executed
  | loadImm group =>
    cases executed
    exact footprint_setRegister (Or.inl group) _
  | addImm group =>
    cases executed
    exact footprint_setRegister (Or.inr (Or.inl group)) _
  | move group n | or group n | and group n | xor group n =>
    cases executed
    exact footprint_setRegister (by simp [SetsX, group, n]) _
  | add group n | sub group n | shiftRight group n | subReverse group n | shiftLeft group n =>
    cases executed
    exact footprint_setWithFlag (by simp [SetsX, group, n]) (by simp [SetsFlag, group, n]) _ _
  | loadIndex group =>
    cases executed
    exact { footprint_counted op m with i := fun _ => Or.inl group }
  | jumpOffset group =>
    simp only [execute] at executed
    split at executed
    · cases executed
      exact footprint_counted op m
    · cases executed
  | random group =>
    cases executed
    have sets : op.SetsX := by simp [SetsX, group]
    exact { footprint_setRegister sets _ with random := fun _ => group }
  | draw group =>
    cases executed
    exact { footprint_counted op m with
      screen := fun _ => Or.inr group
      v := fun _ changed => Or.inr (Or.inl ⟨eq_of_setRegister_changed changed, Or.inr group⟩) }
  | loadDelay byte =>
    cases executed
    exact footprint_setRegister (by simp [SetsX, byte]) _
  | waitKey byte =>
    cases executed
    exact { footprint_setRegister (by simp [SetsX, byte]) _ with }
  | setDelay byte =>
    cases executed
    exact { footprint_counted op m with dt := fun _ => byte }
  | setSound byte =>
    cases executed
    exact { footprint_counted op m with st := fun _ => byte }
  | addIndex byte =>
    cases executed
    exact { footprint_counted op m with i := fun _ => Or.inr (Or.inl byte) }
  | loadGlyph byte =>
    obtain ⟨addr, -, rfl⟩ := Option.map_eq_some_iff.mp executed
    exact { footprint_counted op m with i := fun _ => Or.inr (Or.inr byte) }
  | storeDigits byte =>
    cases executed
    exact footprint_storeAtIndex fun j hj => ⟨j, rfl, Or.inl ⟨byte, hj⟩⟩
  | storeRegs byte =>
    cases executed
    refine footprint_storeAtIndex fun j hj => ⟨j, rfl, Or.inr ⟨byte, ?_⟩⟩
    have count := List.length_take_le (op.x.val + 1) m.counted.v.toList
    unfold firstRegisters at hj
    omega
  | loadRegs byte =>
    cases executed
    exact footprint_loadRegisters byte
  | _ =>
    cases executed
    exact footprint_counted op m

/-! ### Where the program goes on -/

theorem isPlain_of_group {g : Fin 16} (group : op.group = g)
    (other : g ∈ ([6, 7, 8, 0xa, 0xc, 0xd, 0xf] : List (Fin 16))) :
    op.IsPlain := by
  subst group
  simp only [List.mem_cons, List.not_mem_nil, or_false] at other
  unfold IsPlain IsSkip IsReturn
  rcases other with group | group | group | group | group | group | group <;> simp [group]

theorem isPlain_of_zero (group : op.group = 0) (other : op.n ≠ 0xe) : op.IsPlain := by
  simp [IsPlain, IsSkip, IsReturn, group, other]

theorem leads_skipIf (skip : op.IsSkip) (condition : Bool) :
    op.Leads m (m.counted.follow (.skipIf condition)).value.pc := by
  cases condition with
  | true => exact .skipOne skip
  | false => exact .skipNone skip

theorem leads_ret (ret : op.IsReturn) (executed : m.counted.ret = some done) :
    op.Leads m (done.value.machine.follow done.value.flow).value.pc := by
  by_cases empty : m.counted.sp = 0
  · rw [Machine.ret, if_pos empty] at executed
    cases executed
    exact .underflow ret empty
  · have less := toNat_sub_one empty
    simp only [Machine.ret, if_neg empty, decrement?, Option.bind_eq_bind, Option.bind_some] at executed
    obtain ⟨addr, top, rest⟩ := Option.bind_eq_some_iff.mp executed
    cases rest
    rw [show (m.counted.sp - 1).toNat = m.counted.sp.toNat - 1 by omega] at top
    exact .ret ret empty top

theorem leads_call (call : op.group = 2) (executed : m.counted.call op.nnn = some done) :
    op.Leads m (done.value.machine.follow done.value.flow).value.pc := by
  by_cases room : m.counted.sp.toNat < 16
  · rw [call_of_room room] at executed
    cases executed
    exact .call call room
  · rw [Machine.call, dif_neg room] at executed
    cases executed
    exact .overflow call (Nat.le_of_not_lt room)

theorem leads_of_execute (encodes : Instruction.Encodes op mode instruction)
    (plain : op.IsExtension → mode = true) (executed : m.counted.execute instruction = some done) :
    op.Leads m (done.value.machine.follow done.value.flow).value.pc := by
  cases encodes with
  | extension asks extended =>
    rw [plain asks] at extended
    cases extended
  | nop zero =>
    cases executed
    exact .next (isPlain_of_zero (by simp [group, nibble, zero]) (by simp [n, nibble, zero]))
  | clearScreen clear =>
    cases executed
    exact .next (isPlain_of_zero clear.1 (n_ne_of_nn clear.2))
  | system group word clear ret silent =>
    cases executed
    exact .next (isPlain_of_zero group ret)
  | ret ret => exact leads_ret ret executed
  | call call => exact leads_call call executed
  | jump group =>
    cases executed
    exact .jump group
  | jumpOffset group =>
    simp only [execute] at executed
    split at executed
    · next small =>
      cases executed
      have sum : UInt16.ofNat (op.nnn.toNat + m.counted.v[(0 : Register)].toNat) =
          op.nnn + m.v[(0 : Register)].toUInt16 := by
        rw [UInt16.ofNat_add, UInt16.ofNat_toNat, UInt16.ofNat_uInt8ToNat]
        rfl
      exact sum ▸ .offset group
    · cases executed
  | skipEqImm group | skipNeImm group | skipEqReg group | skipNeReg group =>
    cases executed
    exact leads_skipIf (by simp [IsSkip, group]) _
  | skipKeyDown group n | skipKeyUp group n =>
    cases executed
    exact leads_skipIf (by simp [IsSkip, group, n]) _
  | unknownKeys group down up =>
    cases executed
    exact .next (by simp [IsPlain, IsSkip, IsReturn, group, down, up])
  | loadGlyph byte =>
    obtain ⟨addr, -, rfl⟩ := Option.map_eq_some_iff.mp executed
    exact .next (isPlain_of_group byte.1 (by simp))
  | loadDelay byte | waitKey byte | setDelay byte | setSound byte | addIndex byte | storeDigits byte | storeRegs byte =>
    cases executed
    exact .next (isPlain_of_group byte.1 (by simp))
  | loadRegs byte =>
    have kept : (m.counted.loadRegisters op.x).pc = m.pc := by
      unfold loadRegisters
      rfl
    cases executed
    change op.Leads m ((m.counted.loadRegisters op.x).pc + 2)
    rw [kept]
    exact .next (isPlain_of_group byte.1 (by simp))
  | loadImm group | addImm group | loadIndex group | random group | draw group | unknownTransfer group =>
    cases executed
    exact .next (isPlain_of_group group (by simp))
  | move group | or group | and group | xor group | add group | sub group | shiftRight group | subReverse group
  | shiftLeft group | unknownArithmetic group =>
    cases executed
    exact .next (isPlain_of_group group (by simp))

end Machine
end Chip8
