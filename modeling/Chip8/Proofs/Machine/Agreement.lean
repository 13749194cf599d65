import Chip8.Machine.Execute

/-!
Machines that agree on everything but two things: whether the registers are logged, and from which node the mail
is taken. No instruction makes a difference between them.
-/

namespace Chip8

section
variable {α β γ : Type} {R : β → γ → Prop}

theorem rel_map {f : α → β} {g : α → γ} (o : Option α) (h : ∀ a, R (f a) (g a)) :
    Option.Rel R (o.map f) (o.map g) := by
  rcases o with _ | a
  · exact .none
  · exact .some (h a)

theorem rel_bind {f : α → Option β} {g : α → Option γ} (o : Option α) (h : ∀ a, Option.Rel R (f a) (g a)) :
    Option.Rel R (o >>= f) (o >>= g) := by
  rcases o with _ | a
  · exact .none
  · exact h a

theorem rel_ite {c : Prop} [Decidable c] {a a' : Option β} {b b' : Option γ} (h : Option.Rel R a b)
    (h' : Option.Rel R a' b') : Option.Rel R (if c then a else a') (if c then b else b') := by
  split
  · exact h
  · exact h'

end

namespace Machine

/-- The machine with the log switched another way and another inbox. -/
def retuned (m : Machine) (logging : Bool) (inbox : Option NodeId) : Machine :=
  { m with config := { m.config with logging }, inbox }

/-- Two machines agree on everything but the log switch and the inbox. -/
structure Agrees (m n : Machine) : Prop where
  config : n.config = { m.config with logging := n.config.logging }
  ram : n.ram = m.ram
  screen : n.screen = m.screen
  v : n.v = m.v
  i : n.i = m.i
  pc : n.pc = m.pc
  dt : n.dt = m.dt
  st : n.st = m.st
  sp : n.sp = m.sp
  stack : n.stack = m.stack
  keys : n.keys = m.keys
  status : n.status = m.status
  instructions : n.instructions = m.instructions
  toneOn : n.toneOn = m.toneOn
  random : n.random = m.random

end Machine

/-- Of two machines that agree the same instruction was carried out: they agree afterwards, go on at the same
place and want the same done. -/
structure Executed.Agrees (done other : Executed) : Prop where
  machine : done.machine.Agrees other.machine
  flow : other.flow = done.flow
  request : other.request = done.request

namespace Machine.Agrees
variable {m n : Machine}

theorem retuned (m : Machine) (logging : Bool) (inbox : Option NodeId) : m.Agrees (m.retuned logging inbox) := by
  constructor <;> rfl

theorem eq_retuned (agree : m.Agrees n) : n = m.retuned n.config.logging n.inbox := by
  rw [Machine.retuned, ← agree.config, ← agree.ram, ← agree.screen, ← agree.v, ← agree.i, ← agree.pc, ← agree.dt,
    ← agree.st, ← agree.sp, ← agree.stack, ← agree.keys, ← agree.status, ← agree.instructions, ← agree.toneOn,
    ← agree.random]

theorem refl (m : Machine) : m.Agrees m := retuned m m.config.logging m.inbox

theorem exists_retuned (agree : m.Agrees n) : ∃ logging inbox, n = m.retuned logging inbox :=
  ⟨_, _, agree.eq_retuned⟩

theorem eq (agree : m.Agrees n) (logging : n.config.logging = m.config.logging) (inbox : n.inbox = m.inbox) :
    n = m := by
  rw [agree.eq_retuned, logging, inbox]
  rfl

theorem isActive (agree : m.Agrees n) : n.isActive = m.isActive := congrArg Status.isActive agree.status

/-- Two machines that agree do so after the same change, if it looks neither at the log switch nor at the inbox. -/
theorem map (f : Machine → Machine)
    (commutes : ∀ m logging inbox, f (m.retuned logging inbox) = (f m).retuned logging inbox) (agree : m.Agrees n) :
    (f m).Agrees (f n) := by
  obtain ⟨logging, inbox, rfl⟩ := agree.exists_retuned
  rw [commutes]
  exact retuned _ logging inbox

theorem cleared (agree : m.Agrees n) : Option.Rel Agrees m.cleared? n.cleared? := by
  obtain ⟨logging, inbox, rfl⟩ := agree.exists_retuned
  exact rel_map m.ram.clear? fun ram => .retuned _ logging inbox

theorem loaded (agree : m.Agrees n) (program : List UInt8) :
    Option.Rel (fun done other => other.value.1 = done.value.1 ∧ Agrees done.value.2 other.value.2)
      (m.load? program) (n.load? program) := by
  obtain ⟨logging, inbox, rfl⟩ := agree.exists_retuned
  exact rel_map (m.ram.load? program m.config.bootAddress) fun loaded => ⟨rfl, .retuned _ logging inbox⟩

theorem received (agree : m.Agrees n) (text : String) :
    Agrees (m.receive text).value.2 (n.receive text).value.2 :=
  agree.map (fun m => (m.receive text).value.2) fun _ _ _ => rfl

/-! ### Instructions -/

theorem ret (agree : m.Agrees n) :
    Option.Rel (fun done other => Executed.Agrees done.value other.value) m.ret n.ret := by
  obtain ⟨logging, inbox, rfl⟩ := agree.exists_retuned
  refine rel_ite (c := m.sp = 0) (.some ⟨.retuned _ logging inbox, rfl, rfl⟩) ?_
  refine rel_bind (decrement? m.sp) fun sp => ?_
  exact rel_bind m.stack[sp.toNat]? fun addr => .some ⟨.retuned _ logging inbox, rfl, rfl⟩

theorem call (agree : m.Agrees n) (addr : UInt16) :
    Option.Rel (fun done other => Executed.Agrees done.value other.value) (m.call addr) (n.call addr) := by
  obtain ⟨logging, inbox, rfl⟩ := agree.exists_retuned
  by_cases room : m.sp.toNat < 16
  · rw [Machine.call, Machine.call, dif_pos room, dif_pos (show (m.retuned logging inbox).sp.toNat < 16 from room)]
    exact rel_map (increment? m.sp) fun sp => ⟨.retuned _ logging inbox, rfl, rfl⟩
  · rw [Machine.call, Machine.call, dif_neg room, dif_neg (show ¬(m.retuned logging inbox).sp.toNat < 16 from room)]
    exact .some ⟨.retuned _ logging inbox, rfl, rfl⟩

theorem obey (agree : m.Agrees n) (control : Control) :
    Executed.Agrees (m.obey control).value (n.obey control).value := by
  obtain ⟨logging, inbox, rfl⟩ := agree.exists_retuned
  cases control with
  | logging on => exact ⟨.retuned _ on inbox, rfl, rfl⟩
  | clockMultiplier | halt | reset | powerDown => exact ⟨.retuned _ logging inbox, rfl, rfl⟩

theorem extend (agree : m.Agrees n) (code : UInt8) :
    Executed.Agrees (m.extend code).value (n.extend code).value := by
  obtain ⟨logging, inbox, same⟩ := agree.exists_retuned
  have read : Extension.decode code n.v n.i n.ram n.config.window =
      Extension.decode code m.v m.i m.ram m.config.window := by
    rw [same]
    rfl
  unfold Machine.extend
  rw [Noted.value_bind, Noted.value_bind, read]
  rcases (Extension.decode code m.v m.i m.ram m.config.window).value with envelope | control | code
  · exact ⟨agree, rfl, rfl⟩
  · exact agree.obey control
  · exact ⟨agree, rfl, rfl⟩

theorem execute (agree : m.Agrees n) (instruction : Instruction) :
    Option.Rel (fun done other => Executed.Agrees done.value other.value)
      (m.execute instruction) (n.execute instruction) := by
  obtain ⟨logging, inbox, rfl⟩ := agree.exists_retuned
  cases instruction with
  | ret => exact agree.ret
  | call addr => exact agree.call addr
  | extension code => exact .some (agree.extend code)
  | jumpOffset addr =>
    exact rel_ite (c := addr.toNat + m.v[(0 : Register)].toNat < UInt16.size)
      (.some ⟨.retuned _ logging inbox, rfl, rfl⟩) .none
  | loadGlyph x => exact rel_map (m.ram.glyphAddress? m.v[x]) fun addr => ⟨.retuned _ logging inbox, rfl, rfl⟩
  | _ => exact .some ⟨.retuned _ logging inbox, rfl, rfl⟩

theorem follow (agree : m.Agrees n) (flow : Flow) : Agrees (m.follow flow).value (n.follow flow).value := by
  refine agree.map (fun m => (m.follow flow).value) fun _ _ _ => ?_
  cases flow <;> rfl

theorem checkEnd (agree : m.Agrees n) : Agrees m.checkEnd.value n.checkEnd.value := by
  obtain ⟨logging, inbox, rfl⟩ := agree.exists_retuned
  unfold Machine.checkEnd
  change Agrees _ (if m.isActive && m.isPastEnd then _ else _ : Noted Machine).value
  split
  · exact .retuned _ logging inbox
  · exact .retuned _ logging inbox

end Machine.Agrees
end Chip8
