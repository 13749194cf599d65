import Chip8.Proofs.Machine.Modes

/-!
Which words stand for which instruction. Every word stands for one, also where the patterns of group 0 overlap, and
what a word is decoded to is the instruction that it stands for.
-/

namespace Chip8

namespace Opcode

/-- A word of group F with this lower byte. -/
def IsTransfer (op : Opcode) (nn : UInt8) : Prop := op.group = 0xf ∧ op.nn = nn

/-- A word that clears the screen. -/
def IsClear (op : Opcode) : Prop := op.group = 0 ∧ op.nn = 0xe0

/-- A word that returns from a call. -/
def IsReturn (op : Opcode) : Prop := op.group = 0 ∧ op.n = 0xe

/-- A word that leaves out the next instruction if a condition holds. -/
def IsSkip (op : Opcode) : Prop :=
  op.group = 3 ∨ op.group = 4 ∨ op.group = 5 ∨ op.group = 9 ∨ op.group = 0xe ∧ (op.n = 0xe ∨ op.n = 1)

instance (op : Opcode) (nn : UInt8) : Decidable (op.IsTransfer nn) := inferInstanceAs (Decidable (_ ∧ _))

instance (op : Opcode) : Decidable op.IsClear := inferInstanceAs (Decidable (_ ∧ _))

instance (op : Opcode) : Decidable op.IsReturn := inferInstanceAs (Decidable (_ ∧ _))

instance (op : Opcode) : Decidable op.IsSkip := inferInstanceAs (Decidable (_ ∨ _))

/-- The lowest nibble is part of the lower byte. -/
theorem n_of_nn {op : Opcode} {nn : UInt8} (h : op.nn = nn) : op.n.val = nn.toNat % 16 := by
  subst h
  have low : op.nn.toNat = op.word.toNat % 256 := UInt16.toNat_toUInt8 op.word
  rw [low]
  change op.word.toNat / Nat.pow 16 0 % 16 = _
  rw [show Nat.pow 16 0 = 1 from rfl, Nat.div_one]
  omega

theorem n_ne_of_nn {op : Opcode} (h : op.nn = 0xe0) : op.n ≠ 0xe := by
  intro low
  have high := n_of_nn h
  rw [low] at high
  exact absurd high (by decide)

end Opcode

namespace Instruction

/-- The words that stand for an instruction. -/
inductive Encodes (op : Opcode) (compatibility : Bool) : Instruction → Prop
  | nop : op.word = 0 → Encodes op compatibility .nop
  | clearScreen : op.IsClear → Encodes op compatibility .clearScreen
  | ret : op.IsReturn → Encodes op compatibility .ret
  | extension : op.IsExtension → compatibility = false → Encodes op compatibility (.extension op.nn)
  | system : op.group = 0 → op.word ≠ 0 → op.nn ≠ 0xe0 → op.n ≠ 0xe → (op.x = 0xe → compatibility = true) →
      Encodes op compatibility (.system op.nnn)
  | jump : op.group = 1 → Encodes op compatibility (.jump op.nnn)
  | call : op.group = 2 → Encodes op compatibility (.call op.nnn)
  | skipEqImm : op.group = 3 → Encodes op compatibility (.skipEqImm op.x op.nn)
  | skipNeImm : op.group = 4 → Encodes op compatibility (.skipNeImm op.x op.nn)
  | skipEqReg : op.group = 5 → Encodes op compatibility (.skipEqReg op.x op.y)
  | loadImm : op.group = 6 → Encodes op compatibility (.loadImm op.x op.nn)
  | addImm : op.group = 7 → Encodes op compatibility (.addImm op.x op.nn)
  | move : op.group = 8 → op.n = 0 → Encodes op compatibility (.move op.x op.y)
  | or : op.group = 8 → op.n = 1 → Encodes op compatibility (.or op.x op.y)
  | and : op.group = 8 → op.n = 2 → Encodes op compatibility (.and op.x op.y)
  | xor : op.group = 8 → op.n = 3 → Encodes op compatibility (.xor op.x op.y)
  | add : op.group = 8 → op.n = 4 → Encodes op compatibility (.add op.x op.y)
  | sub : op.group = 8 → op.n = 5 → Encodes op compatibility (.sub op.x op.y)
  | shiftRight : op.group = 8 → op.n = 6 → Encodes op compatibility (.shiftRight op.x)
  | subReverse : op.group = 8 → op.n = 7 → Encodes op compatibility (.subReverse op.x op.y)
  | shiftLeft : op.group = 8 → op.n = 0xe → Encodes op compatibility (.shiftLeft op.x)
  | skipNeReg : op.group = 9 → Encodes op compatibility (.skipNeReg op.x op.y)
  | loadIndex : op.group = 0xa → Encodes op compatibility (.loadIndex op.nnn)
  | jumpOffset : op.group = 0xb → Encodes op compatibility (.jumpOffset op.nnn)
  | random : op.group = 0xc → Encodes op compatibility (.random op.x op.nn)
  | draw : op.group = 0xd → Encodes op compatibility (.draw op.x op.y op.n)
  | skipKeyDown : op.group = 0xe → op.n = 0xe → Encodes op compatibility (.skipKeyDown op.x)
  | skipKeyUp : op.group = 0xe → op.n = 1 → Encodes op compatibility (.skipKeyUp op.x)
  | loadDelay : op.IsTransfer 0x07 → Encodes op compatibility (.loadDelay op.x)
  | waitKey : op.IsTransfer 0x0a → Encodes op compatibility (.waitKey op.x)
  | setDelay : op.IsTransfer 0x15 → Encodes op compatibility (.setDelay op.x)
  | setSound : op.IsTransfer 0x18 → Encodes op compatibility (.setSound op.x)
  | addIndex : op.IsTransfer 0x1e → Encodes op compatibility (.addIndex op.x)
  | loadGlyph : op.IsTransfer 0x29 → Encodes op compatibility (.loadGlyph op.x)
  | storeDigits : op.IsTransfer 0x33 → Encodes op compatibility (.storeDigits op.x)
  | storeRegs : op.IsTransfer 0x55 → Encodes op compatibility (.storeRegs op.x)
  | loadRegs : op.IsTransfer 0x65 → Encodes op compatibility (.loadRegs op.x)
  | unknownArithmetic : op.group = 8 → 8 ≤ op.n.val → op.n ≠ 0xe → Encodes op compatibility (.unknown op.word)
  | unknownKeys : op.group = 0xe → op.n ≠ 0xe → op.n ≠ 1 → Encodes op compatibility (.unknown op.word)
  | unknownTransfer : op.group = 0xf → op.nn.toNat ∉ [0x07, 0x0a, 0x15, 0x18, 0x1e, 0x29, 0x33, 0x55, 0x65] →
      Encodes op compatibility (.unknown op.word)

section
variable {op : Opcode} {compatibility : Bool} {instruction : Instruction}

theorem encodes_decodeZero (group : op.group = 0) : Encodes op compatibility (decodeZero op compatibility) := by
  unfold decodeZero
  split
  · next zero => exact .nop zero
  split
  · next clear => exact .clearScreen ⟨group, clear⟩
  split
  · next ret => exact .ret ⟨group, ret⟩
  split
  · next clear ret asks => exact .extension ⟨group, asks.1, clear, ret⟩ asks.2
  · next zero clear ret silent =>
    refine .system group zero clear ret fun second => ?_
    simpa [second] using silent

theorem encodes_decodeArithmetic (group : op.group = 8) : Encodes op compatibility (decodeArithmetic op) := by
  unfold decodeArithmetic
  split
  · next n => exact .move group (Fin.ext n)
  · next n => exact .or group (Fin.ext n)
  · next n => exact .and group (Fin.ext n)
  · next n => exact .xor group (Fin.ext n)
  · next n => exact .add group (Fin.ext n)
  · next n => exact .sub group (Fin.ext n)
  · next n => exact .shiftRight group (Fin.ext n)
  · next n => exact .subReverse group (Fin.ext n)
  · next n => exact .shiftLeft group (Fin.ext n)
  · next copy or and xor add sub right reverse left =>
    refine .unknownArithmetic group ?_ fun n => left (by rw [n]; rfl)
    simp only [imp_false] at copy or and xor add sub right reverse
    omega

theorem encodes_decodeKeys (group : op.group = 0xe) : Encodes op compatibility (decodeKeys op) := by
  unfold decodeKeys
  split
  · next n => exact .skipKeyDown group (Fin.ext n)
  · next n => exact .skipKeyUp group (Fin.ext n)
  · next down up => exact .unknownKeys group (fun n => down (by rw [n]; rfl)) fun n => up (by rw [n]; rfl)

theorem encodes_decodeTransfer (group : op.group = 0xf) : Encodes op compatibility (decodeTransfer op) := by
  have byte : ∀ {nn : UInt8}, op.nn.toNat = nn.toNat → op.IsTransfer nn := fun same => ⟨group, UInt8.toNat_inj.mp same⟩
  unfold decodeTransfer
  split
  · next nn => exact .loadDelay (byte nn)
  · next nn => exact .waitKey (byte nn)
  · next nn => exact .setDelay (byte nn)
  · next nn => exact .setSound (byte nn)
  · next nn => exact .addIndex (byte nn)
  · next nn => exact .loadGlyph (byte nn)
  · next nn => exact .storeDigits (byte nn)
  · next nn => exact .storeRegs (byte nn)
  · next nn => exact .loadRegs (byte nn)
  · next load wait delay sound add glyph digits store fetch =>
    refine .unknownTransfer group ?_
    simp only [List.mem_cons, List.not_mem_nil, or_false, not_or]
    exact ⟨load, wait, delay, sound, add, glyph, digits, store, fetch⟩

/-- A word stands for what it is decoded to. -/
theorem encodes_decode (op : Opcode) (compatibility : Bool) : Encodes op compatibility (decode op compatibility) := by
  unfold decode
  split
  · next group => exact encodes_decodeZero (Fin.ext group)
  · next group => exact .jump (Fin.ext group)
  · next group => exact .call (Fin.ext group)
  · next group => exact .skipEqImm (Fin.ext group)
  · next group => exact .skipNeImm (Fin.ext group)
  · next group => exact .skipEqReg (Fin.ext group)
  · next group => exact .loadImm (Fin.ext group)
  · next group => exact .addImm (Fin.ext group)
  · next group => exact encodes_decodeArithmetic (Fin.ext group)
  · next group => exact .skipNeReg (Fin.ext group)
  · next group => exact .loadIndex (Fin.ext group)
  · next group => exact .jumpOffset (Fin.ext group)
  · next group => exact .random (Fin.ext group)
  · next group => exact .draw (Fin.ext group)
  · next group => exact encodes_decodeKeys (Fin.ext group)
  · -- Fifteen of the sixteen groups are ruled out.
    have below : op.group.val < 16 := op.group.isLt
    refine encodes_decodeTransfer (Fin.ext ?_)
    simp only [imp_false] at *
    change op.group.val = 15
    omega

/-- A word is decoded to the only instruction that it stands for. -/
theorem decode_eq_iff : decode op compatibility = instruction ↔ Encodes op compatibility instruction := by
  constructor
  · rintro rfl
    exact encodes_decode op compatibility
  · intro encodes
    cases encodes with
    | nop zero => simp [decode, decodeZero, Opcode.group, Opcode.nibble, zero]
    | clearScreen clear =>
      have word : op.word ≠ 0 := fun zero => absurd clear.2 (by simp [Opcode.nn, zero])
      simp [decode, decodeZero, clear.1, clear.2, word]
    | ret ret =>
      have word : op.word ≠ 0 := fun zero => absurd ret.2 (by simp [Opcode.n, Opcode.nibble, zero])
      have clear : op.nn ≠ 0xe0 := fun clear => Opcode.n_ne_of_nn clear ret.2
      simp [decode, decodeZero, ret.1, ret.2, word, clear]
    | extension asks extended => exact decode_eq_extension_iff.mpr ⟨asks, extended, rfl⟩
    | system group word clear ret silent =>
      have idle : ¬(op.x = 0xe ∧ compatibility = false) := fun asks => by simp [silent asks.1] at asks
      simp [decode, decodeZero, group, word, clear, ret, idle]
    | jump group | call group | skipEqImm group | skipNeImm group | skipEqReg group | loadImm group | addImm group
    | skipNeReg group | loadIndex group | jumpOffset group | random group | draw group =>
      simp only [decode, group]
      rfl
    | move group n | or group n | and group n | xor group n | add group n | sub group n | shiftRight group n
    | subReverse group n | shiftLeft group n =>
      simp only [decode, group, decodeArithmetic, n]
      rfl
    | skipKeyDown group n | skipKeyUp group n =>
      simp only [decode, group, decodeKeys, n]
      rfl
    | loadDelay byte | waitKey byte | setDelay byte | setSound byte | addIndex byte | loadGlyph byte | storeDigits byte
    | storeRegs byte | loadRegs byte =>
      simp only [decode, byte.1, decodeTransfer, byte.2]
      rfl
    | unknownArithmetic group large left =>
      have first : decode op compatibility = decodeArithmetic op := by simp only [decode, group]; rfl
      have other : op.n.val ≠ 14 := fun n => left (Fin.ext n)
      rw [first, decodeArithmetic]
      split <;> simp_all
    | unknownKeys group down up =>
      have first : decode op compatibility = decodeKeys op := by simp only [decode, group]; rfl
      rw [first, decodeKeys]
      split
      · next n => exact absurd (Fin.ext n) down
      · next n => exact absurd (Fin.ext n) up
      · rfl
    | unknownTransfer group other =>
      have first : decode op compatibility = decodeTransfer op := by simp only [decode, group]
      rw [first, decodeTransfer]
      split <;> simp_all

end
end Instruction
end Chip8
