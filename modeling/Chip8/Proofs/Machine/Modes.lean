import Chip8.Proofs.Machine.Agreement
import Chip8.Proofs.Machine.Effect

/-!
The two modes of a machine. They differ in what a word of group 0 means whose second nibble is E, and which neither
clears the screen nor returns: it is an extension request, or in compatibility mode a call of machine code. An
instruction that is no extension request is confined to its machine. What an instruction does, once it is decoded, does
not depend on the mode.
-/

namespace Chip8

/-- Whether a word is an extension request outside of compatibility mode. -/
def Opcode.IsExtension (op : Opcode) : Prop := op.group = 0 ∧ op.x = 0xe ∧ op.nn ≠ 0xe0 ∧ op.n ≠ 0xe

instance (op : Opcode) : Decidable op.IsExtension := inferInstanceAs (Decidable (_ ∧ _))

/-- The second nibble is part of the address. -/
theorem Opcode.x_eq_of_nnn {op op' : Opcode} (same : op'.nnn = op.nnn) : op'.x = op.x := by
  have field : ∀ op : Opcode, op.x.val = op.nnn.toNat / 256 := by
    intro op
    have low : op.nnn.toNat = op.word.toNat % 4096 := by
      rw [nnn, UInt16.toNat_and]
      exact Nat.and_two_pow_sub_one_eq_mod op.word.toNat 12
    rw [low]
    change op.word.toNat / 16 ^ 2 % 16 = _
    omega
  exact Fin.ext (by rw [field, field, same])

namespace Instruction
variable {op : Opcode} {code : UInt8}

theorem decode_of_isExtension (h : op.IsExtension) (compatibility : Bool) :
    decode op compatibility = if compatibility then .system op.nnn else .extension op.nn := by
  obtain ⟨group, second, clear, ret⟩ := h
  have word : op.word ≠ 0 := by
    intro zero
    simp [Opcode.x, Opcode.nibble, zero] at second
  have first : decode op compatibility = decodeZero op compatibility := by simp [decode, group]
  rw [first, decodeZero, if_neg word, if_neg clear, if_neg ret]
  cases compatibility <;> simp [second]

/-- All other words mean the same in both modes. -/
theorem decode_of_not_isExtension (h : ¬op.IsExtension) (compatibility compatibility' : Bool) :
    decode op compatibility = decode op compatibility' := by
  by_cases group : op.group = 0
  · have first : ∀ compatibility, decode op compatibility = decodeZero op compatibility := by
      intro compatibility
      simp [decode, group]
    rw [first, first]
    unfold decodeZero
    by_cases clear : op.nn = 0xe0
    · simp [clear]
    by_cases ret : op.n = 0xe
    · simp [ret]
    have second : op.x ≠ 0xe := fun second => h ⟨group, second, clear, ret⟩
    simp [second]
  · have other : op.group.val ≠ 0 := fun zero => group (Fin.ext zero)
    unfold decode
    split
    · next zero => exact absurd zero other
    all_goals rfl

theorem decodeZero_ne_extension : decodeZero op true ≠ .extension code := by
  unfold decodeZero
  repeat' split
  all_goals simp_all

theorem decode_ne_extension : decode op true ≠ .extension code := by
  unfold decode
  split
  · exact decodeZero_ne_extension
  case h_9 => unfold decodeArithmetic; split <;> simp
  case h_15 => unfold decodeKeys; split <;> simp
  case h_16 => unfold decodeTransfer; split <;> simp
  all_goals simp

/-- The words that are extension requests, and when. -/
theorem decode_eq_extension_iff {compatibility : Bool} :
    decode op compatibility = .extension code ↔ op.IsExtension ∧ compatibility = false ∧ op.nn = code := by
  by_cases h : op.IsExtension
  · rw [decode_of_isExtension h]
    cases compatibility <;> simp [h]
  · rw [decode_of_not_isExtension h compatibility true]
    exact iff_of_false decode_ne_extension fun other => h other.1

theorem decodeZero_eq_system {mode : Bool} {addr : UInt16} (h : decodeZero op mode = .system addr) :
    op.nnn = addr ∧ op.nn ≠ 0xe0 ∧ op.n ≠ 0xe := by
  unfold decodeZero at h
  repeat' split at h
  all_goals simp_all

theorem decode_eq_system {mode : Bool} {addr : UInt16} (h : decode op mode = .system addr) :
    op.group = 0 ∧ op.nnn = addr ∧ op.nn ≠ 0xe0 ∧ op.n ≠ 0xe := by
  unfold decode at h
  split at h
  case h_1 zero => exact ⟨Fin.ext zero, decodeZero_eq_system h⟩
  case h_9 => unfold decodeArithmetic at h; split at h <;> cases h
  case h_15 => unfold decodeKeys at h; split at h <;> cases h
  case h_16 => unfold decodeTransfer at h; split at h <;> cases h
  all_goals cases h

/-- What an extension word is decoded to, no other word is. -/
theorem isExtension_of_decode {op' : Opcode} {mode : Bool} (h : op.IsExtension) (same : decode op' mode = decode op mode) :
    op'.IsExtension := by
  rw [decode_of_isExtension h] at same
  cases mode with
  | false => exact (decode_eq_extension_iff.mp same).1
  | true =>
    obtain ⟨group, address, clear, ret⟩ := decode_eq_system same
    exact ⟨group, (Opcode.x_eq_of_nnn address).trans h.2.1, clear, ret⟩

end Instruction

/-- Whether only an extension request brings a machine there that is switched on. -/
def Status.isAsked : Status → Bool
  | off | halted .requested => true
  | _ => false

namespace Machine

/-- Without an extension request the settings stay, and the machine is neither switched off nor asked to halt. -/
structure Held (m n : Machine) : Prop where
  config : n.config = m.config
  status : n.status = m.status ∨ n.status.isAsked = false

/-- What an instruction does that is no extension request. It wants nothing of the network. -/
structure Confined (m : Machine) (done : Executed) : Prop extends Held m done.machine where
  wish : done.request.isLocal = true

section
variable {m : Machine} {done : Executed}

theorem confined_of_kept (config : done.machine.config = m.config) (wish : done.request.isLocal = true)
    (status : done.machine.status = m.status) : m.Confined done := ⟨⟨config, Or.inl status⟩, wish⟩

theorem confined_ret {done : Noted Executed} (h : m.ret = some done) : m.Confined done.value := by
  unfold ret at h
  split at h
  · cases h
    exact ⟨⟨rfl, Or.inr rfl⟩, rfl⟩
  · obtain ⟨sp, -, rest⟩ := Option.bind_eq_some_iff.mp h
    obtain ⟨addr, -, rest⟩ := Option.bind_eq_some_iff.mp rest
    cases rest
    exact confined_of_kept rfl rfl rfl

theorem confined_call {addr : UInt16} {done : Noted Executed} (h : m.call addr = some done) :
    m.Confined done.value := by
  unfold call at h
  split at h
  · obtain ⟨sp, -, rfl⟩ := Option.map_eq_some_iff.mp h
    exact confined_of_kept rfl rfl rfl
  · cases h
    exact ⟨⟨rfl, Or.inr rfl⟩, rfl⟩

theorem confined_of_execute {instruction : Instruction} {done : Noted Executed}
    (h : m.execute instruction = some done) (plain : ∀ code, instruction ≠ .extension code) :
    m.Confined done.value := by
  cases instruction with
  | extension code => exact absurd rfl (plain code)
  | ret => exact confined_ret h
  | call addr => exact confined_call h
  | waitKey x =>
    cases h
    exact ⟨⟨rfl, Or.inr rfl⟩, rfl⟩
  | jumpOffset addr =>
    simp only [execute] at h
    split at h
    · cases h
      exact confined_of_kept rfl rfl rfl
    · cases h
  | loadGlyph x =>
    obtain ⟨addr, -, rfl⟩ := Option.map_eq_some_iff.mp h
    exact confined_of_kept rfl rfl rfl
  | loadRegs x =>
    have kept : (m.loadRegisters x).config = m.config ∧ (m.loadRegisters x).status = m.status := by
      unfold loadRegisters
      exact ⟨rfl, rfl⟩
    cases h
    exact confined_of_kept kept.1 rfl kept.2
  | _ =>
    cases h
    exact confined_of_kept rfl rfl rfl

/-- What is settled after an instruction does not bring the machine where only a request does. -/
theorem settled_status (n : Machine) (flow : Flow) :
    (n.follow flow).value.checkEnd.value.status = n.status ∨
      (n.follow flow).value.checkEnd.value.status.isAsked = false := by
  have moved : (n.follow flow).value.status = n.status := by cases flow <;> rfl
  unfold checkEnd
  split
  · exact Or.inr rfl
  · exact Or.inl moved

end

/-- The instruction that a machine in compatibility mode comes to is no extension request. -/
theorem next?_ne_extension {m : Machine} (compatible : m.config.compatibility = true) {code : UInt8} :
    m.next? ≠ some (.extension code) := by
  intro next
  obtain ⟨-, word, -, decoded⟩ := next?_eq_some_iff.mp next
  rw [compatible] at decoded
  exact Instruction.decode_ne_extension decoded

/-! ### The same machine in another mode -/

/-- The machine with the mode switched. -/
def inMode (m : Machine) (compatibility : Bool) : Machine := { m with config := { m.config with compatibility } }

@[simp] theorem status_inMode (m : Machine) (mode : Bool) : (m.inMode mode).status = m.status := rfl

@[simp] theorem isActive_inMode (m : Machine) (mode : Bool) : (m.inMode mode).isActive = m.isActive := rfl

@[simp] theorem keys_inMode (m : Machine) (mode : Bool) : (m.inMode mode).keys = m.keys := rfl

@[simp] theorem inbox_inMode (m : Machine) (mode : Bool) : (m.inMode mode).inbox = m.inbox := rfl

end Machine

/-- Two values that were come to in the same way, the second one in another mode. -/
structure Noted.InMode {α : Type} (switch : α → α) (done other : Noted α) : Prop where
  value : other.value = switch done.value
  notes : other.notes = done.notes

theorem Noted.InMode.bind {α β : Type} {switch : α → α} {x : Noted β} {f g : β → Noted α}
    (h : Noted.InMode switch (f x.value) (g x.value)) : Noted.InMode switch (x >>= f) (x >>= g) :=
  ⟨h.value, congrArg (x.notes ++ ·) h.notes⟩

def Executed.inMode (done : Executed) (compatibility : Bool) : Executed :=
  { done with machine := done.machine.inMode compatibility }

namespace Machine

variable (m : Machine) (mode : Bool)

theorem cleared_inMode : Option.Rel (fun cleared other => other = cleared.inMode mode) m.cleared? (m.inMode mode).cleared? :=
  rel_map m.ram.clear? fun _ => rfl

theorem load_inMode (program : List UInt8) :
    Option.Rel (Noted.InMode fun loaded => (loaded.1, loaded.2.inMode mode)) (m.load? program)
      ((m.inMode mode).load? program) :=
  rel_map (m.ram.load? program m.config.bootAddress) fun _ => ⟨rfl, rfl⟩

theorem ret_inMode : Option.Rel (Noted.InMode (·.inMode mode)) m.ret (m.inMode mode).ret := by
  refine rel_ite (c := m.sp = 0) (.some ⟨rfl, rfl⟩) ?_
  refine rel_bind (decrement? m.sp) fun sp => ?_
  exact rel_bind m.stack[sp.toNat]? fun addr => .some ⟨rfl, rfl⟩

theorem call_inMode (addr : UInt16) :
    Option.Rel (Noted.InMode (·.inMode mode)) (m.call addr) ((m.inMode mode).call addr) := by
  by_cases room : m.sp.toNat < 16
  · rw [call, call, dif_pos room, dif_pos (show (m.inMode mode).sp.toNat < 16 from room)]
    exact rel_map (increment? m.sp) fun sp => ⟨rfl, rfl⟩
  · rw [call, call, dif_neg room, dif_neg (show ¬(m.inMode mode).sp.toNat < 16 from room)]
    exact .some ⟨rfl, rfl⟩

theorem obey_inMode (control : Control) :
    Noted.InMode (·.inMode mode) (m.obey control) ((m.inMode mode).obey control) := by
  cases control <;> exact ⟨rfl, rfl⟩

theorem extend_inMode (code : UInt8) :
    Noted.InMode (·.inMode mode) (m.extend code) ((m.inMode mode).extend code) := by
  unfold extend
  refine .bind ?_
  rcases (Extension.decode code m.v m.i m.ram m.config.window).value with envelope | control | code
  · exact ⟨rfl, rfl⟩
  · exact m.obey_inMode mode control
  · exact ⟨rfl, rfl⟩

/-- The mode has no influence on an instruction that is already decoded. -/
theorem execute_inMode (instruction : Instruction) :
    Option.Rel (Noted.InMode (·.inMode mode)) (m.execute instruction) ((m.inMode mode).execute instruction) := by
  cases instruction with
  | ret => exact m.ret_inMode mode
  | call addr => exact m.call_inMode mode addr
  | extension code => exact .some (m.extend_inMode mode code)
  | jumpOffset addr =>
    exact rel_ite (c := addr.toNat + m.v[(0 : Register)].toNat < UInt16.size) (.some ⟨rfl, rfl⟩) .none
  | loadGlyph x => exact rel_map (m.ram.glyphAddress? m.v[x]) fun addr => ⟨rfl, rfl⟩
  | _ => exact .some ⟨rfl, rfl⟩

theorem follow_inMode (flow : Flow) : Noted.InMode (·.inMode mode) (m.follow flow) ((m.inMode mode).follow flow) := by
  cases flow <;> exact ⟨rfl, rfl⟩

theorem halt_inMode (reason : HaltReason) :
    Noted.InMode (·.inMode mode) (m.halt reason) ((m.inMode mode).halt reason) := ⟨rfl, rfl⟩

theorem checkEnd_inMode : Noted.InMode (·.inMode mode) m.checkEnd (m.inMode mode).checkEnd := by
  unfold checkEnd
  change Noted.InMode _ _ (if m.isActive && m.isPastEnd then _ else _)
  split
  · exact ⟨rfl, rfl⟩
  · exact ⟨rfl, rfl⟩

theorem receive_inMode (text : String) :
    Noted.InMode (fun done => (done.1, done.2.inMode mode)) (m.receive text) ((m.inMode mode).receive text) := ⟨rfl, rfl⟩

theorem writeAscii_inMode (addr : UInt16) (text : String) :
    Noted.InMode (fun done => (done.1, done.2.inMode mode)) (m.writeAscii addr text)
      ((m.inMode mode).writeAscii addr text) := ⟨rfl, rfl⟩

end Machine
end Chip8
