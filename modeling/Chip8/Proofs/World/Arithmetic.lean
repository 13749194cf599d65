import Chip8.Bench
import Chip8.Proofs.Instruction
import Chip8.Proofs.Machine.Registers
import Chip8.Proofs.World.PowerOn
import Chip8.Proofs.World.Words

/-!
What the arithmetic between two registers keeps. The flag in VF is the part of the result that a byte does not hold, or
the loan that it took, so that result and flag together say what the operands were. This holds also if VF is one of the
operands; if VF is the register that takes the result, the flag is all that is left.
-/

namespace Chip8

namespace Machine

theorem toNat_bit (condition : Bool) : (bit condition).toNat = condition.toNat := by
  cases condition <;> rfl

section
variable (a b : UInt8)

theorem carry_add : 256 * (bit (256 ≤ a.toNat + b.toNat)).toNat + (a + b).toNat = a.toNat + b.toNat := by
  have ha := a.toNat_lt
  have hb := b.toNat_lt
  rw [toNat_bit, UInt8.toNat_add]
  by_cases carry : 256 ≤ a.toNat + b.toNat
  · simp only [carry, decide_true, Bool.toNat_true]
    omega
  · simp only [carry, decide_false, Bool.toNat_false]
    omega

theorem borrow_sub : (a - b).toNat + b.toNat = a.toNat + 256 * (1 - (bit (b ≤ a)).toNat) := by
  have ha := a.toNat_lt
  have hb := b.toNat_lt
  rw [toNat_bit, UInt8.toNat_sub]
  by_cases enough : b ≤ a
  · have less := UInt8.le_iff_toNat_le.mp enough
    simp only [enough, decide_true, Bool.toNat_true]
    omega
  · have more : ¬b.toNat ≤ a.toNat := fun less => enough (UInt8.le_iff_toNat_le.mpr less)
    simp only [enough, decide_false, Bool.toNat_false]
    omega

theorem toNat_low : (a &&& 1).toNat = a.toNat % 2 := (UInt8.toNat_and a 1).trans (Nat.and_one_is_mod _)

theorem toNat_high : (a >>> 7).toNat = a.toNat / 128 :=
  (UInt8.toNat_shiftRight a 7).trans (Nat.shiftRight_eq_div_pow _ 7)

theorem low_shiftRight : 2 * (a >>> 1).toNat + (a &&& 1).toNat = a.toNat := by
  have half : (a >>> 1).toNat = a.toNat / 2 := UInt8.toNat_shiftRight a 1
  rw [toNat_low]
  omega

theorem high_shiftLeft : 256 * (a >>> 7).toNat + (a <<< 1).toNat = 2 * a.toNat := by
  have double : (a <<< 1).toNat = a.toNat * 2 % 256 :=
    (UInt8.toNat_shiftLeft a 1).trans (congrArg (· % 256) (Nat.shiftLeft_eq a.toNat 1))
  rw [toNat_high]
  omega

end

/-- What `n` holds in its registers when, next to `m`, only a result went into a register and then its flag into VF. The
two obey a law that no other result and flag obey. -/
structure Carries (m n : Machine) (x : Register) (law : Nat → Nat → Prop) (result flag : UInt8) : Prop where
  binary : flag = 0 ∨ flag = 1
  holds : law result.toNat flag.toNat
  only : ∀ other bit : UInt8, bit = 0 ∨ bit = 1 → law other.toNat bit.toNat → other = result ∧ bit = flag
  flagged : n.v[flagRegister] = flag
  taken : x ≠ flagRegister → n.v[x] = result
  others : ∀ r : Register, r ≠ x → r ≠ flagRegister → n.v[r] = m.v[r]

variable {m n : Machine} {x : Register} {law : Nat → Nat → Prop} {result flag : UInt8}

theorem carries_of_setWithFlag (same : n.v = (m.setWithFlag x result flag).v) (small : flag.toNat ≤ 1)
    (holds : law result.toNat flag.toNat)
    (only : ∀ r f r' f', r < 256 → r' < 256 → f ≤ 1 → f' ≤ 1 → law r f → law r' f' → r = r' ∧ f = f') :
    m.Carries n x law result flag where
  binary := by
    rcases Nat.le_one_iff_eq_zero_or_eq_one.mp small with zero | one
    · exact Or.inl (UInt8.toNat_inj.mp zero)
    · exact Or.inr (UInt8.toNat_inj.mp one)
  holds := holds
  only := by
    intro other bit binary lawful
    have bound : bit.toNat ≤ 1 := by rcases binary with rfl | rfl <;> decide
    obtain ⟨results, flags⟩ := only _ _ _ _ other.toNat_lt result.toNat_lt bound small lawful holds
    exact ⟨UInt8.toNat_inj.mp results, UInt8.toNat_inj.mp flags⟩
  flagged := by rw [same, getElem_setWithFlag, if_pos rfl]
  taken := fun other => by rw [same, getElem_setWithFlag, if_neg other, if_pos rfl]
  others := fun r other flagless => by rw [same, getElem_setWithFlag, if_neg flagless, if_neg other]

theorem toNat_bit_le (condition : Bool) : (bit condition).toNat ≤ 1 := by
  rw [toNat_bit]
  exact Bool.toNat_le condition

end Machine

namespace World
variable {δ : Type} [Devices δ]

/-- A step succeeds in which an arithmetic word does its part. -/
def Conserves (w : World δ) (x : Register) (law : Nat → Nat → Prop) : Prop :=
  ∃ after result flag, Act.step w = (.ok (), after) ∧ w.machine.Carries after.machine x law result flag

section
variable {w : World δ} {op : Opcode} (running : w.machine.status = .running)
  (found : w.machine.ram.word? w.machine.pc = some op.word)
include running found

theorem conserves_of_execute {instruction : Instruction} {x : Register} {result flag : UInt8} {law : Nat → Nat → Prop}
    (decoded : Instruction.decode op w.machine.config.compatibility = instruction)
    (executed : w.machine.counted.execute instruction = some (w.machine.counted.setWithFlag x result flag).goOn)
    (small : flag.toNat ≤ 1) (holds : law result.toNat flag.toNat)
    (only : ∀ r f r' f', r < 256 → r' < 256 → f ≤ 1 → f' ≤ 1 → law r f → law r' f' → r = r' ∧ f = f') :
    w.Conserves x law := by
  have next : w.machine.next? = some instruction := decoded ▸ Machine.next?_of_word running found
  obtain ⟨after, pc, status, run, left⟩ := Act.step_settles next executed rfl
  have same : after.machine.v = (w.machine.setWithFlag x result flag).v := by
    rw [left]
    rfl
  exact ⟨after, result, flag, run, Machine.carries_of_setWithFlag same small holds only⟩

/-- The arithmetic words keep their laws whatever the registers hold, also where VX and VY are the same register or VY
is VF. VX takes the result and VF the flag, unless VX is VF, which takes the flag then; no other register changes. -/
theorem arithmetic_conserves (group : op.group = 8) :
    let vx := w.machine.v[op.x].toNat
    let vy := w.machine.v[op.y].toNat
    (op.n = 4 → w.Conserves op.x fun result flag => 256 * flag + result = vx + vy) ∧
    (op.n = 5 → w.Conserves op.x fun result flag => result + vy = vx + 256 * (1 - flag)) ∧
    (op.n = 7 → w.Conserves op.x fun result flag => result + vx = vy + 256 * (1 - flag)) ∧
    (op.n = 6 → w.Conserves op.x fun result flag => 2 * result + flag = vx) ∧
    (op.n = 0xe → w.Conserves op.x fun result flag => 256 * flag + result = 2 * vx) := by
  have decoded : ∀ {instruction}, Instruction.Encodes op w.machine.config.compatibility instruction →
      Instruction.decode op w.machine.config.compatibility = instruction := Instruction.decode_eq_iff.mpr
  refine ⟨fun n => ?_, fun n => ?_, fun n => ?_, fun n => ?_, fun n => ?_⟩
  · refine conserves_of_execute running found (decoded (.add group n)) rfl (Machine.toNat_bit_le _)
      (Machine.carry_add _ _) ?_
    omega
  · refine conserves_of_execute running found (decoded (.sub group n)) rfl (Machine.toNat_bit_le _)
      (Machine.borrow_sub _ _) ?_
    omega
  · refine conserves_of_execute running found (decoded (.subReverse group n)) rfl (Machine.toNat_bit_le _)
      (Machine.borrow_sub _ _) ?_
    omega
  · refine conserves_of_execute running found (decoded (.shiftRight group n)) rfl ?_ (Machine.low_shiftRight _) ?_
    · rw [Machine.toNat_low]
      omega
    · omega
  · refine conserves_of_execute running found (decoded (.shiftLeft group n)) rfl ?_ (Machine.high_shiftLeft _) ?_
    · have small := w.machine.counted.v[op.x].toNat_lt
      rw [Machine.toNat_high]
      omega
    · omega

end

/-- A register to which VF is added, with a carry: the sum is right, and VF holds the carry instead of its operand. -/
theorem carry_replaces_operand :
    ∃ m, Machine.build { program := some [0x6f, 0xc8, 0x64, 0x64, 0x84, 0xf4] } 0 = .ok m ∧
      let w := World.after (⟨m, {}, {}, []⟩ : World Bench) [.reset, .step, .step]
      (w.machine.v[(4 : Register)] = 100 ∧ w.machine.v[Machine.flagRegister] = 200) ∧
        w.machine.status = .running ∧ w.machine.ram.word? w.machine.pc = some 0x84f4 ∧
        Opcode.group ⟨0x84f4⟩ = 8 ∧ Opcode.n ⟨0x84f4⟩ = 4 ∧
        ∃ after, Act.step w = (.ok (), after) ∧ after.machine.v[(4 : Register)] = 44 ∧
          after.machine.v[Machine.flagRegister] = 1 := by
  obtain ⟨m, built, held, running, word⟩ := exists_after { program := some [0x6f, 0xc8, 0x64, 0x64, 0x84, 0xf4] } 0
    ({} : Bench) {} [.reset, .step, .step]
    (fun w => (w.machine.v[(4 : Register)] = 100 ∧ w.machine.v[Machine.flagRegister] = 200) ∧
      w.machine.status = .running ∧ w.machine.ram.word? w.machine.pc = some 0x84f4)
    (by decide +kernel)
  refine ⟨m, built, ?_⟩
  dsimp only
  generalize World.after (⟨m, {}, {}, []⟩ : World Bench) [.reset, .step, .step] = w at held running word ⊢
  have found : w.machine.ram.word? w.machine.pc = some (Opcode.word ⟨0x84f4⟩) := word
  obtain ⟨adds, -⟩ := arithmetic_conserves running found (by decide)
  obtain ⟨after, result, flag, run, carries⟩ := adds (by decide)
  have operands : w.machine.v[Opcode.x ⟨0x84f4⟩].toNat + w.machine.v[Opcode.y ⟨0x84f4⟩].toNat = 300 := by
    change w.machine.v[(4 : Register)].toNat + w.machine.v[Machine.flagRegister].toNat = 300
    rw [held.1, held.2]
    rfl
  obtain ⟨rfl, rfl⟩ := carries.only 44 1 (by decide) (by rw [operands]; rfl)
  exact ⟨held, running, word, by decide, by decide, after, run, carries.taken (by decide), carries.flagged⟩

end World
end Chip8
