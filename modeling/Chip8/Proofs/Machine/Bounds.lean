import Chip8.Proofs.Machine.Notes

/-!
The machine stays inside its bounds. Its settings keep fitting together and the font stays where they
put it; the stack holds places of calls, which lie inside memory; and while the machine is active, an
instruction at its program counter lies inside memory, except at the start of a program at the very end
of it. Under these conditions every instruction can be carried out, and no sum of addresses wraps.
-/

namespace Chip8

namespace Machine

/-- The last address at which an instruction lies inside memory. -/
def lastPlace : Nat := ramSize - 2

/-- What holds of a machine at all times, whatever its program counter. -/
structure Fits (m : Machine) : Prop where
  config : m.config.Valid
  font : m.ram.font = m.config.fontAddress
  sp : m.sp.toNat ≤ 16
  stack : ∀ a ∈ m.stack.toList, a.toNat ≤ lastPlace

/-- A machine inside its bounds. -/
structure Sound (m : Machine) : Prop extends Fits m where
  pc : m.isActive = true → m.pc.toNat ≤ lastPlace ∨
    m.pc = m.config.bootAddress ∧ m.pc.toNat = lastPlace + 1 ∧ m.instructions = 0

/-- A machine that is to start from the beginning. -/
structure Fresh (m : Machine) : Prop extends Fits m where
  pc : m.pc = m.config.bootAddress
  instructions : m.instructions = 0

theorem Fresh.sound {m : Machine} (h : m.Fresh) : m.Sound where
  toFits := h.toFits
  pc := fun _ => by
    have boot := h.config.boot
    rw [← h.pc] at boot
    by_cases inside : m.pc.toNat ≤ lastPlace
    · exact Or.inl inside
    · refine Or.inr ⟨h.pc, ?_, h.instructions⟩
      simp only [lastPlace, ramSize] at inside boot ⊢
      omega

theorem Fits.font_le {m : Machine} (h : m.Fits) : m.ram.font.toNat + Font.size ≤ ramSize := by
  have stop : m.config.fontStop ≤ ramSize := Nat.le_of_lt (Nat.lt_of_le_of_lt h.config.font h.config.boot)
  rw [h.font]
  exact stop

/-! ### Instructions -/

/-- What carrying out an instruction keeps. The program counter is moved later, and a machine that has
started over keeps it. -/
structure Keeps (m : Machine) (done : Noted Executed) : Prop where
  fits : done.value.machine.Fits
  pc : done.value.machine.pc = m.pc
  stay : done.value.request = .reset → done.value.flow = .stay
  calm : Calm done.notes

theorem keeps_goOn (m : Machine) {n : Machine} (h : n.Fits) (pc : n.pc = m.pc) (flow : Flow) : Keeps m (n.goOn flow) where
  fits := h
  pc := pc
  stay := nofun
  calm := calm_nil

theorem keeps_ask (m : Machine) {n : Machine} (h : n.Fits) (pc : n.pc = m.pc) {request : Request}
    (other : request ≠ .reset) : Keeps m (pure { machine := n, request }) where
  fits := h
  pc := pc
  stay := fun reset => absurd reset other
  calm := calm_nil

/-- Events that are noted before an instruction takes its course. -/
theorem Keeps.after {α : Type} {m : Machine} {before : Noted α} {rest : α → Noted Executed}
    (h : Keeps m (rest before.value)) (calm : Calm before.notes) : Keeps m (before >>= rest) where
  fits := h.fits
  pc := h.pc
  stay := h.stay
  calm := calm_append.mpr ⟨calm, h.calm⟩

theorem advance_of_lt {addr count : UInt16} (h : addr.toNat + count.toNat < UInt16.size) :
    advance addr count = pure (addr + count) := by
  have within : decide (UInt16.size ≤ addr.toNat + count.toNat) = false := decide_eq_false (Nat.not_le_of_lt h)
  rw [advance, within]
  rfl

theorem clock_ne_zero (count : UInt32) : max count 1 ≠ 0 := by
  change (if count ≤ 1 then 1 else count) ≠ 0
  split
  · decide
  · next more =>
    rintro rfl
    exact more (by decide)

section
variable {m : Machine} (h : m.Fits)
include h

theorem Fits.haltHere (reason : HaltReason) : Keeps m (m.haltHere reason) where
  fits := ⟨h.config, h.font, h.sp, h.stack⟩
  pc := rfl
  stay := nofun
  calm := by simp [Machine.haltHere, Machine.halt, Machine.goOn]

theorem Fits.ret : ∃ done, m.ret = some done ∧ Keeps m done := by
  unfold Machine.ret
  split
  · exact ⟨_, rfl, h.haltHere _⟩
  · next used =>
    have positive : 0 < m.sp.toNat := by
      rw [Nat.pos_iff_ne_zero]
      exact fun zero => used (UInt8.toNat_inj.mp zero)
    have lower : (m.sp - 1).toNat = m.sp.toNat - 1 := by
      have one : (1 : UInt8) ≤ m.sp := UInt8.le_iff_toNat_le.mpr positive
      rw [UInt8.toNat_sub_of_le _ _ one]
      rfl
    have top : (m.sp - 1).toNat < 16 := by
      have := h.sp
      omega
    have place : m.stack[(m.sp - 1).toNat].toNat ≤ lastPlace :=
      h.stack _ (Vector.mem_toList_iff.mpr (Vector.getElem_mem top))
    have sum : m.stack[(m.sp - 1).toNat].toNat + (2 : UInt16).toNat < 2 ^ 16 := by
      simp only [lastPlace, ramSize] at place
      change _ + 2 < _
      omega
    simp only [decrement?, used, if_false, Option.bind_eq_bind, Option.bind_some,
      Vector.getElem?_eq_getElem top, advance_of_lt sum]
    have fits : Fits { m with sp := m.sp - 1 } := ⟨h.config, h.font, Nat.le_of_lt top, h.stack⟩
    exact ⟨_, rfl, keeps_goOn m fits rfl _⟩

theorem Fits.call (pc : m.pc.toNat ≤ lastPlace) (addr : UInt16) : ∃ done, m.call addr = some done ∧ Keeps m done := by
  unfold Machine.call
  split
  · next room =>
    have below : m.sp ≠ 255 := fun full => by simp [full] at room
    have higher : (m.sp + 1).toNat = m.sp.toNat + 1 := by
      rw [UInt8.toNat_add]
      change (m.sp.toNat + 1) % 256 = m.sp.toNat + 1
      omega
    simp only [increment?, below, if_false, Option.map_some]
    have fits : Fits { m with stack := m.stack.set m.sp.toNat m.pc, sp := m.sp + 1 } := by
      refine ⟨h.config, h.font, ?_, ?_⟩
      · rw [higher]
        exact room
      · intro a ha
        rw [Vector.toList_set] at ha
        rcases List.mem_or_eq_of_mem_set ha with ha | rfl
        · exact h.stack a ha
        · exact pc
    exact ⟨_, rfl, keeps_goOn m fits rfl _⟩
  · exact ⟨_, rfl, h.haltHere _⟩

theorem Fits.storeAtIndex (bytes : List UInt8) : Keeps m (m.storeAtIndex bytes) where
  fits := ⟨h.config, (Ram.font_storeAll ..).trans h.font, h.sp, h.stack⟩
  pc := rfl
  stay := nofun
  calm := by
    have stores : Calm (m.ram.storeAll m.i.toNat bytes).notes := calm_of_source fun e he => by
      simp [Ram.source_of_mem_notes_storeAll he]
    simpa [Machine.storeAtIndex, Machine.goOn] using stores

theorem Fits.obey (control : Control) : Keeps m (m.obey control) := by
  have noted : Calm (Noted.note (.controlled control)).notes := by simp
  cases control with
  | logging on =>
    have config : Config.Valid { m.config with logging := on } := { h.config with }
    have fits : Fits { m with config := { m.config with logging := on } } := ⟨config, h.font, h.sp, h.stack⟩
    exact (keeps_goOn m fits rfl .next).after noted
  | clockMultiplier count =>
    have config : Config.Valid { m.config with clockMultiplier := max count 1 } :=
      { h.config with clock := clock_ne_zero count }
    have fits : Fits { m with config := { m.config with clockMultiplier := max count 1 } } :=
      ⟨config, h.font, h.sp, h.stack⟩
    exact (keeps_goOn m fits rfl .next).after noted
  | halt => exact (h.haltHere .requested).after noted
  | reset =>
    have again : Keeps m (pure { machine := m, flow := .stay, request := .reset }) :=
      ⟨h, rfl, fun _ => rfl, calm_nil⟩
    exact again.after noted
  | powerDown =>
    have off : Fits { m with status := .off } := ⟨h.config, h.font, h.sp, h.stack⟩
    have down : Keeps m (Noted.note .poweredDown >>= fun _ => goOn { m with status := .off } .stay) :=
      (keeps_goOn m off rfl .stay).after (by simp)
    exact down.after noted

theorem Fits.extend (code : UInt8) : Keeps m (m.extend code) := by
  refine Keeps.after ?_ (Extension.calm_decode code m.v m.i m.ram m.config.window)
  split
  · next envelope _ => exact (keeps_ask m h rfl (by simp)).after (by simp)
  · next control _ => exact h.obey control
  · next unassigned _ => exact (keeps_goOn m h rfl .next).after (by simp)

theorem Fits.loadGlyph (x : Register) : ∃ addr, m.ram.glyphAddress? m.v[x] = some addr := by
  have font := h.font_le
  have digit : m.v[x].toNat % 16 < 16 := Nat.mod_lt _ (by decide)
  have small : m.ram.font.toNat + m.v[x].toNat % 16 * Font.glyphBytes < 2 ^ 16 := by
    simp only [Font.size, Font.glyphBytes, ramSize] at font ⊢
    omega
  exact ⟨_, if_pos small⟩

/-- Whatever a word stands for can be carried out at a place inside memory. Only the jump by V0 minds the
size of the address that it is given. -/
theorem Fits.execute (pc : m.pc.toNat ≤ lastPlace) {instruction : Instruction}
    (target : ∀ addr, instruction = .jumpOffset addr → addr.toNat < ramSize) :
    ∃ done, m.execute instruction = some done ∧ Keeps m done := by
  cases instruction with
  | clearScreen =>
    have fits : Fits { m with screen := .blank } := ⟨h.config, h.font, h.sp, h.stack⟩
    exact ⟨_, rfl, keeps_ask m fits rfl (by simp)⟩
  | ret => exact h.ret
  | extension code => exact ⟨_, rfl, h.extend code⟩
  | system addr => exact ⟨_, rfl, (keeps_goOn m h rfl .next).after (by simp)⟩
  | call addr => exact h.call pc addr
  | jumpOffset addr =>
    have small := target addr rfl
    have offset : m.v[0].toNat < 256 := m.v[0].toNat_lt
    have sum : addr.toNat + m.v[0].toNat < 2 ^ 16 := by
      simp only [ramSize] at small
      omega
    exact ⟨_, if_pos sum, keeps_goOn m h rfl _⟩
  | draw x y n =>
    have fits : Fits ({ m with screen := (m.screen.draw m.v[x] m.v[y] (m.ram.readAll m.i.toNat n.val)).2 }.setRegister
        flagRegister (bit (m.screen.draw m.v[x] m.v[y] (m.ram.readAll m.i.toNat n.val)).1)) :=
      ⟨h.config, h.font, h.sp, h.stack⟩
    exact ⟨_, rfl, keeps_ask m fits rfl (by simp)⟩
  | loadGlyph x =>
    obtain ⟨addr, glyph⟩ := h.loadGlyph x
    have fits : Fits { m with i := addr } := ⟨h.config, h.font, h.sp, h.stack⟩
    exact ⟨_, by simp only [Machine.execute, glyph, Option.map_some], keeps_goOn m fits rfl .next⟩
  | storeDigits x => exact ⟨_, rfl, h.storeAtIndex _⟩
  | storeRegs x => exact ⟨_, rfl, h.storeAtIndex _⟩
  | unknown word => exact ⟨_, rfl, (keeps_goOn m h rfl .next).after (by simp)⟩
  | loadRegs x =>
    -- Unfolded first, so that the registers are not compared.
    have fits : Fits (m.loadRegisters x) := by
      unfold loadRegisters
      exact ⟨h.config, h.font, h.sp, h.stack⟩
    refine ⟨_, rfl, keeps_goOn m fits ?_ .next⟩
    unfold loadRegisters
    rfl
  | _ =>
    -- The others change registers and timers only.
    refine ⟨_, rfl, keeps_goOn m ?_ ?_ _⟩
    · exact ⟨h.config, h.font, h.sp, h.stack⟩
    · rfl

/-! ### Between instructions -/

/-- Moving the program counter wraps nowhere, if it is moved from a place inside memory. -/
theorem Fits.follow {flow : Flow} (pc : flow ≠ .stay → m.pc.toNat ≤ lastPlace) :
    (m.follow flow).value.Fits ∧ Calm (m.follow flow).notes := by
  have sum : ∀ count : UInt16, count.toNat ≤ 4 → m.pc.toNat ≤ lastPlace → m.pc.toNat + count.toNat < 2 ^ 16 := by
    intro count small inside
    simp only [lastPlace, ramSize] at inside
    omega
  cases flow with
  | next =>
    have within := sum 2 (by decide) (pc (by simp))
    exact ⟨⟨h.config, h.font, h.sp, h.stack⟩, by simp [Machine.follow, advance_of_lt within]⟩
  | skip =>
    have within := sum 4 (by decide) (pc (by simp))
    exact ⟨⟨h.config, h.font, h.sp, h.stack⟩, by simp [Machine.follow, advance_of_lt within]⟩
  | jump addr => exact ⟨⟨h.config, h.font, h.sp, h.stack⟩, calm_nil⟩
  | stay => exact ⟨h, calm_nil⟩

theorem Fits.halt (reason : HaltReason) : (m.halt reason).value.Sound ∧ Calm (m.halt reason).notes :=
  ⟨⟨⟨h.config, h.font, h.sp, h.stack⟩, nofun⟩, by simp [Machine.halt]⟩

/-- Wherever the program counter was moved to, after the check the machine is inside its bounds. -/
theorem Fits.checkEnd : m.checkEnd.value.Sound ∧ Calm m.checkEnd.notes := by
  unfold Machine.checkEnd
  split
  · exact h.halt _
  · next going =>
    have inside : m.isActive = true → m.pc.toNat ≤ lastPlace := by
      intro active
      have inside : ¬ramSize ≤ m.pc.toNat + 1 := by simpa [active, isPastEnd] using going
      simp only [lastPlace, ramSize] at inside ⊢
      omega
    exact ⟨⟨h, fun active => Or.inl (inside active)⟩, calm_nil⟩

/-! ### Starting over -/

theorem Fits.cleared : ∃ n, m.cleared? = some n ∧ n.Fresh ∧ n.status = .off ∧ n.config = m.config := by
  obtain ⟨ram, cleared, font⟩ := Ram.clear?_of_le m.ram (Nat.le_of_add_right_le h.font_le)
  rw [Machine.cleared?, cleared, Option.map_some]
  refine ⟨_, rfl, ⟨⟨h.config, ?_, ?_, ?_⟩, rfl, rfl⟩, rfl, rfl⟩
  · exact font.trans h.font
  · exact Nat.zero_le _
  · intro a ha
    rw [Vector.toList_replicate] at ha
    rw [List.eq_of_mem_replicate ha]
    exact Nat.zero_le _

omit h in
theorem Fresh.load (h : m.Fresh) (program : List UInt8) :
    ∃ loaded, m.load? program = some loaded ∧ loaded.value.2.Fresh ∧ loaded.value.2.status = m.status ∧
      Calm loaded.notes := by
  obtain ⟨loaded, hl, font, notes⟩ := Ram.load?_of_le m.ram (Nat.le_of_lt h.config.boot) program
  rw [Machine.load?, hl, Option.map_some]
  refine ⟨_, rfl, ⟨⟨h.config, ?_, h.sp, h.stack⟩, h.pc, h.instructions⟩, rfl, ?_⟩
  · exact font.trans h.font
  · have calm : Calm loaded.notes := calm_of_source fun e he => by simp [notes e he]
    simpa using calm

end

/-! ### Text in memory -/

section
variable {m : Machine} (h : m.Sound)
include h

theorem Sound.withRam {ram : Ram} (font : ram.font = m.ram.font) : Sound { m with ram } :=
  ⟨⟨h.config, font.trans h.font, h.sp, h.stack⟩, h.pc⟩

theorem Sound.receive (text : String) : (m.receive text).value.2.Sound ∧ Calm (m.receive text).notes := by
  obtain ⟨font, notes⟩ :=
    Ram.writeAscii_keeps m.ram m.config.window.address.toNat text m.config.window.size.toNat
  have calm : Calm (m.ram.writeAscii m.config.window.address.toNat text m.config.window.size.toNat).notes :=
    calm_of_source fun e he => by simp [notes e he]
  exact ⟨h.withRam font, by simpa [Machine.receive] using calm⟩

theorem Sound.writeAscii (addr : UInt16) (text : String) :
    (m.writeAscii addr text).value.2.Sound ∧ Calm (m.writeAscii addr text).notes := by
  obtain ⟨font, notes⟩ := Ram.writeAscii_keeps m.ram addr.toNat text (ramSize - addr.toNat)
  have calm : Calm (m.ram.writeAscii addr.toNat text (ramSize - addr.toNat)).notes :=
    calm_of_source fun e he => by simp [notes e he]
  exact ⟨h.withRam font, by simpa [Machine.writeAscii] using calm⟩

end

/-- Settings that fit together make a machine. -/
theorem build_of_validate {config : Config} (valid : config.validate = .ok ()) (entropy : UInt64) :
    ∃ m, build config entropy = .ok m ∧ m.Sound := by
  have fits : config.Valid := Config.validate_eq_ok_iff.mp valid
  have font : config.fontAddress.toNat ≤ ramSize :=
    Nat.le_trans (Nat.le_add_right ..) (Nat.le_of_lt (Nat.lt_of_le_of_lt fits.font fits.boot))
  obtain ⟨ram, blank, place⟩ := Ram.clear?_of_le ⟨Vector.replicate _ 0, config.fontAddress⟩ font
  simp only [build, valid, Ram.blank?, blank]
  refine ⟨_, rfl, ⟨fits, place, ?_, ?_⟩, nofun⟩
  · exact Nat.zero_le _
  · intro a ha
    rw [Vector.toList_replicate] at ha
    rw [List.eq_of_mem_replicate ha]
    exact Nat.zero_le _

/-! ### Bounds -/

/-- The bounds of a machine. Its program counter may be past the last place for an instruction only if
the program starts there and nothing was carried out yet. -/
structure InBounds (m : Machine) : Prop where
  sp : m.sp.toNat ≤ 16
  stack : ∀ a ∈ m.stack.toList, a.toNat ≤ 4094
  ram : m.ram.bytes.toList.length = 4096
  screen : m.screen.bytes.length = 2048
  pixels : ∀ b ∈ m.screen.bytes, b = 0 ∨ b = 1
  register : ∀ register, m.status = .waiting register → register.val < 16
  clock : 1 ≤ m.config.clockMultiplier.toNat
  pc : (m.status = .running ∨ ∃ register, m.status = .waiting register) →
    m.pc.toNat ≤ 4094 ∨ m.pc = m.config.bootAddress ∧ m.pc.toNat = 4095 ∧ m.instructions = 0

theorem Sound.inBounds {m : Machine} (h : m.Sound) : m.InBounds where
  sp := h.sp
  stack := h.stack
  ram := Vector.length_toList
  screen := (List.length_map _).trans Vector.length_toList
  pixels := by
    intro b hb
    obtain ⟨on, -, rfl⟩ := List.mem_map.mp hb
    cases on <;> simp
  register := fun register _ => register.isLt
  clock := by
    rw [Nat.one_le_iff_ne_zero]
    exact fun zero => h.config.clock (UInt32.toNat_inj.mp zero)
  pc := by
    intro status
    apply h.pc
    rcases status with status | ⟨register, status⟩ <;> simp [isActive, Status.isActive, status]

end Machine

namespace Instruction
variable {op : Opcode} {compatibility : Bool} {addr : UInt16}

theorem decodeZero_ne_jumpOffset : decodeZero op compatibility ≠ .jumpOffset addr := by
  unfold decodeZero
  repeat' split
  all_goals simp

theorem decodeArithmetic_ne_jumpOffset : decodeArithmetic op ≠ .jumpOffset addr := by
  unfold decodeArithmetic
  split <;> simp

theorem decodeKeys_ne_jumpOffset : decodeKeys op ≠ .jumpOffset addr := by
  unfold decodeKeys
  split <;> simp

theorem decodeTransfer_ne_jumpOffset : decodeTransfer op ≠ .jumpOffset addr := by
  unfold decodeTransfer
  split <;> simp

/-- The address of a decoded jump has twelve bits. -/
theorem lt_of_decode_jumpOffset (h : decode op compatibility = .jumpOffset addr) : addr.toNat < ramSize := by
  have twelve : op.nnn.toNat < ramSize := by
    simp only [Opcode.nnn, UInt16.toNat_and, ramSize]
    exact Nat.lt_of_le_of_lt Nat.and_le_right (by decide)
  unfold decode at h
  split at h
  case h_1 => exact absurd h decodeZero_ne_jumpOffset
  case h_9 => exact absurd h decodeArithmetic_ne_jumpOffset
  case h_15 => exact absurd h decodeKeys_ne_jumpOffset
  case h_16 => exact absurd h decodeTransfer_ne_jumpOffset
  case h_12 =>
    cases h
    exact twelve
  all_goals cases h

end Instruction
end Chip8
