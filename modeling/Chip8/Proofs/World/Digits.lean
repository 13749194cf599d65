import Chip8.Proofs.World.Blocks

/-!
Numbers in memory, digit by digit. The digits of a number make it up again, and those of a register stand at I, one in
each of three places, wherever the font leaves them room. Loaded from there they make up what the register was.
-/

namespace Chip8

namespace Digits

/-- Three decimal digits that make up a number. -/
structure Makes (d : Digits) (n : Int) : Prop where
  hundreds : d.hundreds.toNat ≤ 9
  tens : d.tens.toNat ≤ 9
  ones : d.ones.toNat ≤ 9
  sum : 100 * (d.hundreds.toNat : Int) + 10 * d.tens.toNat + d.ones.toNat = n

theorem toNat_ofNat_of_le {n : Nat} (h : n ≤ 9) : (UInt8.ofNat n).toNat = n :=
  UInt8.toNat_ofNat_of_lt' (Nat.lt_of_le_of_lt h (by decide))

theorem makes_ofInt (value : Int) : (ofInt value).Makes (max 0 (min value 999)) := by
  have clamped : (clamp value : Int) = max 0 (min value 999) := by
    unfold clamp
    omega
  have hundreds : clamp value / 100 ≤ 9 := by omega
  have tens : clamp value / 10 % 10 ≤ 9 := by omega
  have ones : clamp value % 10 ≤ 9 := by omega
  refine ⟨?_, ?_, ?_, ?_⟩
  · rwa [ofInt, toNat_ofNat_of_le hundreds]
  · rwa [ofInt, toNat_ofNat_of_le tens]
  · rwa [ofInt, toNat_ofNat_of_le ones]
  · rw [ofInt, toNat_ofNat_of_le hundreds, toNat_ofNat_of_le tens, toNat_ofNat_of_le ones, ← clamped]
    omega

/-- A byte is not too large for three digits. -/
theorem makes_ofInt_byte (b : UInt8) : (ofInt b.toNat).Makes b.toNat := by
  have small := b.toNat_lt
  have made := makes_ofInt b.toNat
  rwa [show max 0 (min (b.toNat : Int) 999) = b.toNat by omega] at made

end Digits

namespace World
variable {δ : Type} [Devices δ] {w : World δ}

/-- The digits of a byte that stand at I, loaded into V0, V1 and V2. -/
theorem step_loads_digits {b : UInt8} (running : w.machine.status = .running)
    (found : w.machine.ram.word? w.machine.pc = some 0xf265)
    (standing : ∀ k < 3,
      (Digits.ofInt b.toNat).toList[k]? = some (w.machine.ram.read (Ram.wrap (w.machine.i.toNat + k)))) :
    ∃ after, Act.step w = (.ok (), after) ∧
      100 * after.machine.v[(0 : Register)].toNat + 10 * after.machine.v[(1 : Register)].toNat +
        after.machine.v[(2 : Register)].toNat = b.toNat := by
  have word : w.machine.ram.word? w.machine.pc = some (Opcode.word ⟨0xf265⟩) := found
  obtain ⟨after, run, -, -, taken⟩ := step_loads running word (by decide)
  have digit : ∀ r : Register, r ≤ Opcode.x ⟨0xf265⟩ →
      (Digits.ofInt b.toNat).toList[r.val]? = some after.machine.v[r] := by
    intro r within
    rw [taken, if_pos within]
    exact standing r (Nat.lt_succ_of_le within)
  have hundreds : (Digits.ofInt b.toNat).hundreds = after.machine.v[(0 : Register)] :=
    Option.some.inj (digit 0 (by decide))
  have tens : (Digits.ofInt b.toNat).tens = after.machine.v[(1 : Register)] := Option.some.inj (digit 1 (by decide))
  have ones : (Digits.ofInt b.toNat).ones = after.machine.v[(2 : Register)] := Option.some.inj (digit 2 (by decide))
  refine ⟨after, run, ?_⟩
  rw [← hundreds, ← tens, ← ones]
  exact Int.ofNat.inj (Digits.makes_ofInt_byte b).sum

/-- The digits of a number make up the nearest number from 0 to 999. Those of VX are stored at I and behind it, around
the end of memory if need be, and only the font refuses them. No other byte changes, nor does I or a register. If the
font is clear of all three places, the digits that are then loaded from I make up what VX was. -/
theorem digits_make_up_number (w : World δ) (op : Opcode) :
    (∀ value : Int, (Digits.ofInt value).Makes (max 0 (min value 999))) ∧
    (w.machine.status = .running → w.machine.ram.word? w.machine.pc = some op.word → op.IsTransfer 0x33 →
      let digits := (Digits.ofInt w.machine.v[op.x].toNat).toList
      let place := fun k : Nat => Ram.wrap (w.machine.i.toNat + k)
      let font := fun a : Nat => w.machine.ram.font.toNat ≤ a ∧ a < w.machine.ram.font.toNat + Font.size
      ∃ stored, Act.step w = (.ok (), stored) ∧ stored.machine.i = w.machine.i ∧ stored.machine.v = w.machine.v ∧
        (∀ k < 3, ¬font (place k) → digits[k]? = some (stored.machine.ram.read (place k))) ∧
        (∀ a < ramSize, (∀ k < 3, a = place k → font a) → stored.machine.ram.read a = w.machine.ram.read a) ∧
        ((∀ k < 3, ¬font (place k)) → ∀ u : World δ, u.machine.status = .running →
          u.machine.ram.word? u.machine.pc = some 0xf265 → u.machine.i = w.machine.i →
          (∀ k < 3, u.machine.ram.read (place k) = stored.machine.ram.read (place k)) →
          ∃ loaded, Act.step u = (.ok (), loaded) ∧
            100 * loaded.machine.v[(0 : Register)].toNat + 10 * loaded.machine.v[(1 : Register)].toNat +
              loaded.machine.v[(2 : Register)].toNat = w.machine.v[op.x].toNat)) := by
  refine ⟨Digits.makes_ofInt, fun running found stores => ?_⟩
  intro digits place font
  obtain ⟨stored, run, v, i, ram⟩ :=
    step_stores_bytes running found (Instruction.decode_eq_iff.mpr (.storeDigits stores)) rfl
  have standing : ∀ k < 3, ¬font (place k) → digits[k]? = some (stored.machine.ram.read (place k)) := by
    intro k small clear
    have short : digits.length ≤ ramSize := Nat.le_of_lt (show 3 < ramSize by decide)
    have free : w.machine.ram.isProtected (place k) = false := by
      rwa [← Bool.not_eq_true, Ram.isProtected_iff]
    rw [ram, Ram.read_wrap]
    exact Ram.getElem?_storeAll short small free
  refine ⟨stored, run, i, v, standing, fun a inside apart => ?_, fun clear u running' found' i' same => ?_⟩
  · rw [ram]
    exact Ram.read_storeAll inside fun k small here => Ram.isProtected_iff.mpr (apart k small here)
  · refine step_loads_digits running' found' fun k small => ?_
    rw [i']
    exact (standing k small (clear k small)).trans (congrArg some (same k small).symm)

/-- A number that is stored around the end of memory and loaded again. -/
theorem digits_around_end_make_up_number :
    let config : Config := { program := some [0x60, 0xfe, 0xaf, 0xff, 0xf0, 0x33, 0xf2, 0x65] }
    ∃ m, Machine.build config 0 = .ok m ∧
      let w := World.after (⟨m, {}, {}, []⟩ : World Bench) [.reset, .step, .step]
      (w.machine.i = 0xfff ∧ w.machine.v[(0 : Register)] = 254 ∧ w.machine.ram.font = 0x50) ∧
        w.machine.status = .running ∧ w.machine.ram.word? w.machine.pc = some 0xf033 ∧
        Opcode.IsTransfer ⟨0xf033⟩ 0x33 ∧
        ∃ stored, Act.step w = (.ok (), stored) ∧ stored.machine.ram.read 0xfff = 2 ∧ stored.machine.ram.read 0 = 5 ∧
          stored.machine.ram.read 1 = 4 ∧ stored.machine.ram.read 2 = w.machine.ram.read 2 ∧
          stored.machine.status = .running ∧ stored.machine.ram.word? stored.machine.pc = some 0xf265 ∧
          ∃ loaded, Act.step stored = (.ok (), loaded) ∧
            100 * loaded.machine.v[(0 : Register)].toNat + 10 * loaded.machine.v[(1 : Register)].toNat +
              loaded.machine.v[(2 : Register)].toNat = 254 := by
  intro config
  obtain ⟨m, built, holds, running, word, running', word'⟩ := exists_after config 0 ({} : Bench) {}
    [.reset, .step, .step]
    (fun w => (w.machine.i = 0xfff ∧ w.machine.v[(0 : Register)] = 254 ∧ w.machine.ram.font = 0x50) ∧
      w.machine.status = .running ∧ w.machine.ram.word? w.machine.pc = some 0xf033 ∧
      (Act.step w).2.machine.status = .running ∧
      (Act.step w).2.machine.ram.word? (Act.step w).2.machine.pc = some 0xf265)
    (by decide +kernel)
  have stores : Opcode.IsTransfer ⟨0xf033⟩ 0x33 := by decide
  refine ⟨m, built, ?_⟩
  dsimp only
  generalize World.after (⟨m, {}, {}, []⟩ : World Bench) [.reset, .step, .step] = w
    at holds running word running' word' ⊢
  obtain ⟨i, v0, font⟩ := holds
  have found : w.machine.ram.word? w.machine.pc = some (Opcode.word ⟨0xf033⟩) := word
  obtain ⟨stored, run, index, -, standing, others, back⟩ := (digits_make_up_number w ⟨0xf033⟩).2 running found stores
  have number : w.machine.v[Opcode.x ⟨0xf033⟩] = 254 := v0
  rw [run] at running' word'
  simp only [number, i, font] at standing others back
  obtain ⟨loaded, run', sum⟩ := back (by decide) stored running' word' (index.trans i) fun _ _ => rfl
  refine ⟨⟨i, v0, font⟩, running, word, stores, stored, run, ?_, ?_, ?_, ?_, running', word', loaded, run', sum⟩
  · exact (Option.some.inj (standing 0 (by decide) (by decide))).symm
  · exact (Option.some.inj (standing 1 (by decide) (by decide))).symm
  · exact (Option.some.inj (standing 2 (by decide) (by decide))).symm
  · exact others 2 (by decide) (by decide)

end World
end Chip8
