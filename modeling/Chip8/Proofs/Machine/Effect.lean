import Chip8.Machine.Execute

/-!
What an instruction can do to the settings, the memory and the stack. It turns the log and the clock, it
stores bytes at I, and it pushes the place of a call or pops one; all else of these stays as it is. Where
the program goes on is settled after the instruction, so it leaves the program counter alone. The picture is
changed by the two instructions that draw, and the inbox by none.
-/

namespace Chip8

/-- Whether an instruction changes the picture. -/
def Instruction.draws : Instruction → Bool
  | clearScreen | draw .. => true
  | _ => false

/-- Whether a wish has nothing to do with the network. -/
def Request.isLocal : Request → Bool
  | none | present => true
  | dispatch _ | reset => false

namespace Machine

/-- The instruction that the next step carries out, if it carries one out. -/
def next? (m : Machine) : Option Instruction :=
  if m.status = .running then
    (m.ram.word? m.pc).map fun word => Instruction.decode ⟨word⟩ m.config.compatibility
  else none

theorem next?_eq_some_iff {m : Machine} {instruction : Instruction} :
    m.next? = some instruction ↔ m.status = .running ∧ ∃ word, m.ram.word? m.pc = some word ∧
      Instruction.decode ⟨word⟩ m.config.compatibility = instruction := by
  unfold next?
  split
  · next running => simp [running, Option.map_eq_some_iff]
  · next stopped => simp [stopped]

/-- An instruction that is carried out lies inside memory. -/
theorem pc_of_next? {m : Machine} {instruction : Instruction} (h : m.next? = some instruction) :
    m.pc.toNat + 1 < ramSize := by
  obtain ⟨-, word, found, -⟩ := next?_eq_some_iff.mp h
  unfold Ram.word? at found
  split at found
  · next inside => exact inside
  · cases found

/-- The machine that an instruction is carried out on has counted it already. -/
def counted (m : Machine) : Machine := { m with instructions := m.instructions + 1 }

/-- The instruction that the machine comes to, if it comes to one, wants nothing of the network. -/
def Secluded (m : Machine) : Prop := ∀ instruction done, m.next? = some instruction →
  m.counted.execute instruction = some done → done.value.request.isLocal = true

/-- What an instruction does to the stack. -/
inductive Stacks (m n : Machine) : Prop
  | kept (sp : n.sp = m.sp) (stack : n.stack = m.stack)
  | pushed (room : m.sp.toNat < 16) (sp : n.sp.toNat = m.sp.toNat + 1)
      (stack : n.stack = m.stack.set m.sp.toNat m.pc)
  | popped (sp : n.sp.toNat + 1 = m.sp.toNat) (stack : n.stack = m.stack)

/-- What every instruction keeps of a machine. -/
structure Effect (m n : Machine) : Prop where
  pc : n.pc = m.pc
  config : ∃ logging clock, n.config = { m.config with logging, clockMultiplier := clock }
  ram : n.ram = m.ram ∨ ∃ bytes, n.ram = (m.ram.storeAll m.i.toNat bytes).value
  stack : Stacks m n
  toneOn : n.toneOn = m.toneOn

section
variable {m n : Machine}

theorem effect_of_kept (pc : n.pc = m.pc) (config : n.config = m.config) (ram : n.ram = m.ram)
    (sp : n.sp = m.sp) (stack : n.stack = m.stack) (toneOn : n.toneOn = m.toneOn) : Effect m n where
  pc := pc
  config := ⟨m.config.logging, m.config.clockMultiplier, config⟩
  ram := Or.inl ram
  stack := .kept sp stack
  toneOn := toneOn

theorem effect_storeAtIndex (bytes : List UInt8) : Effect m (m.storeAtIndex bytes).value.machine where
  pc := rfl
  config := ⟨_, _, rfl⟩
  ram := Or.inr ⟨bytes, rfl⟩
  stack := .kept rfl rfl
  toneOn := rfl

theorem effect_obey (control : Control) : Effect m (m.obey control).value.machine := by
  cases control with
  | logging on => exact ⟨rfl, ⟨on, _, rfl⟩, Or.inl rfl, .kept rfl rfl, rfl⟩
  | clockMultiplier count => exact ⟨rfl, ⟨_, max count 1, rfl⟩, Or.inl rfl, .kept rfl rfl, rfl⟩
  | _ => exact effect_of_kept rfl rfl rfl rfl rfl rfl

theorem effect_extend (code : UInt8) : Effect m (m.extend code).value.machine := by
  unfold extend
  rw [Noted.value_bind]
  split
  · exact effect_of_kept rfl rfl rfl rfl rfl rfl
  · next control _ => exact effect_obey control
  · exact effect_of_kept rfl rfl rfl rfl rfl rfl

/-! ### Calls and returns -/

theorem toNat_sub_one {b : UInt8} (h : b ≠ 0) : (b - 1).toNat + 1 = b.toNat := by
  have positive : 0 < b.toNat := Nat.pos_of_ne_zero fun zero => h (UInt8.toNat_inj.mp zero)
  have one : (1 : UInt8) ≤ b := UInt8.le_iff_toNat_le.mpr positive
  have less : (b - 1).toNat = b.toNat - 1 := UInt8.toNat_sub_of_le _ _ one
  omega

/-- A return goes behind the call on top of the stack. -/
theorem ret_of_top {d : Nat} (top : m.sp.toNat = d + 1) (used : d < 16) :
    m.ret = some (advance m.stack[d] 2 >>= fun next => { m with sp := m.sp - 1 }.goOn (.jump next)) := by
  have nonzero : m.sp ≠ 0 := fun zero => by simp [zero] at top
  have place : (m.sp - 1).toNat = d := by
    have less := toNat_sub_one nonzero
    omega
  have entry : m.stack[(m.sp - 1).toNat]? = some m.stack[d] := by
    rw [place]
    exact Vector.getElem?_eq_getElem used
  simp only [ret, if_neg nonzero, decrement?, Option.bind_eq_bind, Option.bind_some, entry]
  rfl

theorem call_of_room (room : m.sp.toNat < 16) (addr : UInt16) :
    m.call addr = some ({ m with stack := m.stack.set m.sp.toNat m.pc, sp := m.sp + 1 }.goOn (.jump addr)) := by
  have below : m.sp ≠ 255 := fun full => by simp [full] at room
  simp only [call, room, dite_true, increment?, below, if_false, Option.map_some]

theorem toNat_add_one {b : UInt8} (h : b.toNat < 255) : (b + 1).toNat = b.toNat + 1 := by
  rw [UInt8.toNat_add]
  change (b.toNat + 1) % 256 = b.toNat + 1
  omega

theorem effect_ret {done : Noted Executed} (h : m.ret = some done) : Effect m done.value.machine := by
  by_cases empty : m.sp = 0
  · rw [ret, if_pos empty] at h
    cases h
    exact effect_of_kept rfl rfl rfl rfl rfl rfl
  · have less := toNat_sub_one empty
    simp only [ret, if_neg empty, decrement?, Option.bind_eq_bind, Option.bind_some] at h
    obtain ⟨addr, -, rest⟩ := Option.bind_eq_some_iff.mp h
    cases rest
    exact ⟨rfl, ⟨_, _, rfl⟩, Or.inl rfl, .popped less rfl, rfl⟩

theorem effect_call {addr : UInt16} {done : Noted Executed} (h : m.call addr = some done) :
    Effect m done.value.machine := by
  by_cases room : m.sp.toNat < 16
  · rw [call_of_room room] at h
    cases h
    have higher : (m.sp + 1).toNat = m.sp.toNat + 1 := toNat_add_one (by omega)
    exact ⟨rfl, ⟨_, _, rfl⟩, Or.inl rfl, .pushed room higher rfl, rfl⟩
  · rw [call, dif_neg room] at h
    cases h
    exact effect_of_kept rfl rfl rfl rfl rfl rfl

theorem effect_of_execute {instruction : Instruction} {done : Noted Executed}
    (h : m.execute instruction = some done) : Effect m done.value.machine := by
  cases instruction with
  | ret => exact effect_ret h
  | call addr => exact effect_call h
  | extension code =>
    cases h
    exact effect_extend code
  | storeDigits x =>
    cases h
    exact effect_storeAtIndex _
  | storeRegs x =>
    cases h
    exact effect_storeAtIndex _
  | jumpOffset addr =>
    simp only [execute] at h
    split at h
    · cases h
      exact effect_of_kept rfl rfl rfl rfl rfl rfl
    · cases h
  | loadGlyph x =>
    obtain ⟨addr, -, rfl⟩ := Option.map_eq_some_iff.mp h
    exact effect_of_kept rfl rfl rfl rfl rfl rfl
  | loadRegs x =>
    -- Unfolded first, so that the registers are not compared.
    have kept : Effect m (m.loadRegisters x) := by
      unfold loadRegisters
      exact effect_of_kept rfl rfl rfl rfl rfl rfl
    cases h
    exact kept
  | _ =>
    -- The others change registers, timers and the screen only.
    cases h
    exact effect_of_kept rfl rfl rfl rfl rfl rfl

/-- Only the program counter and the status are settled after an instruction. -/
theorem settled (n : Machine) (flow : Flow) :
    ∃ pc status, (n.follow flow).value.checkEnd.value = { n with pc, status } := by
  have moved : ∃ pc, (n.follow flow).value = { n with pc } := by
    cases flow <;> exact ⟨_, rfl⟩
  obtain ⟨pc, moved⟩ := moved
  rw [moved, checkEnd]
  split
  · exact ⟨pc, _, rfl⟩
  · exact ⟨pc, n.status, rfl⟩

/-- A machine that runs is halted where no instruction lies inside memory any more. -/
theorem checkEnd_of_running (running : m.status = .running) :
    m.checkEnd.value =
      { m with status := if ramSize ≤ m.pc.toNat + 1 then .halted (.outOfBounds m.pc) else .running } := by
  have active : m.isActive = true := by simp [isActive, Status.isActive, running]
  unfold checkEnd isPastEnd
  by_cases past : ramSize ≤ m.pc.toNat + 1
  · simp only [active, past, decide_true, Bool.and_self, if_true]
    rfl
  · simp only [active, past, decide_false, Bool.and_false, Bool.false_eq_true, if_false]
    rw [← running]
    rfl

/-! ### The inbox and the picture -/

/-- What an instruction leaves as it is for others to look at: the inbox, and the picture unless it draws. -/
structure Outward (m : Machine) (instruction : Instruction) (done : Executed) : Prop where
  inbox : done.machine.inbox = m.inbox
  wish : done.request = .present ↔ instruction.draws = true
  screen : instruction.draws = false → done.machine.screen = m.screen

theorem outward_of_kept {instruction : Instruction} {done : Executed} (plain : instruction.draws = false)
    (wish : done.request ≠ .present) (inbox : done.machine.inbox = m.inbox)
    (screen : done.machine.screen = m.screen) : Outward m instruction done :=
  ⟨inbox, by simp [wish, plain], fun _ => screen⟩

theorem outward_of_execute {instruction : Instruction} {done : Noted Executed}
    (h : m.execute instruction = some done) : Outward m instruction done.value := by
  cases instruction with
  | clearScreen | draw =>
    cases h
    exact ⟨rfl, by simp [Instruction.draws, draw], nofun⟩
  | extension code =>
    cases h
    unfold extend
    rw [Noted.value_bind]
    split
    · exact outward_of_kept rfl nofun rfl rfl
    · next control _ => cases control <;> exact outward_of_kept rfl nofun rfl rfl
    · exact outward_of_kept rfl nofun rfl rfl
  | ret =>
    simp only [execute, ret] at h
    split at h
    · cases h
      exact outward_of_kept rfl nofun rfl rfl
    · obtain ⟨sp, -, rest⟩ := Option.bind_eq_some_iff.mp h
      obtain ⟨addr, -, rest⟩ := Option.bind_eq_some_iff.mp rest
      cases rest
      exact outward_of_kept rfl nofun rfl rfl
  | call addr =>
    simp only [execute, call] at h
    split at h
    · obtain ⟨sp, -, rfl⟩ := Option.map_eq_some_iff.mp h
      exact outward_of_kept rfl nofun rfl rfl
    · cases h
      exact outward_of_kept rfl nofun rfl rfl
  | jumpOffset addr =>
    simp only [execute] at h
    split at h
    · cases h
      exact outward_of_kept rfl nofun rfl rfl
    · cases h
  | loadGlyph x =>
    obtain ⟨addr, -, rfl⟩ := Option.map_eq_some_iff.mp h
    exact outward_of_kept rfl nofun rfl rfl
  | loadRegs x =>
    have kept : (m.loadRegisters x).inbox = m.inbox ∧ (m.loadRegisters x).screen = m.screen := by
      unfold loadRegisters
      exact ⟨rfl, rfl⟩
    cases h
    exact outward_of_kept rfl nofun kept.1 kept.2
  | _ =>
    cases h
    exact outward_of_kept rfl nofun rfl rfl

end

end Machine
end Chip8
