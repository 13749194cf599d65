import Chip8.Proofs.Text.Grammar

/-!
Numerals that are written are read again. A number is written without leading zeros and without a plus
sign; the digits of a number in range are read without a fault, and give that number.
-/

namespace Chip8.Text

/-! ### Natural numbers -/

theorem toList_toString (n : Nat) : (toString n).toList = Nat.toDigits 10 n := by
  rw [Nat.toString_eq_ofList_toDigits, String.toList_ofList]

theorem isDigit_of_mem_toString {n : Nat} {c : Char} (h : c ∈ (toString n).toList) : c.isDigit = true := by
  rw [toList_toString] at h
  exact Nat.isDigit_of_mem_toDigits (by decide) (by decide) h

theorem toString_eq_cons (n : Nat) : ∃ c rest, (toString n).toList = c :: rest ∧ c.isDigit = true := by
  obtain ⟨c, rest, digits⟩ := List.exists_cons_of_ne_nil (Nat.toDigits_ne_nil (n := n) (b := 10))
  have cons := (toList_toString n).trans digits
  exact ⟨c, rest, cons, isDigit_of_mem_toString (cons ▸ List.mem_cons_self)⟩

theorem spells_toString (n : Nat) : Spells 10 (toString n).toList n := by
  rw [toList_toString]
  exact spells_toDigits (by decide) n

theorem readMagnitude_toString {n limit : Nat} (h : n ≤ limit) (outside : NumeralError) :
    readMagnitude 10 limit outside (toString n).toList = .ok n :=
  (readMagnitude_eq_ok_iff (by decide) (by decide)).mpr ⟨spells_toString n, h⟩

theorem readNatural_toString {n limit : Nat} (h : n ≤ limit) :
    readNatural 10 limit (toString n).toList = .ok n :=
  (readNatural_eq_ok_iff (by decide) (by decide)).mpr ⟨.plain (spells_toString n), h⟩

/-! ### Integers -/

theorem toString_ofNat (n : Nat) : toString (Int.ofNat n) = toString n := rfl

theorem toString_negSucc (n : Nat) : (toString (Int.negSucc n)).toList = '-' :: (toString (n + 1)).toList := by
  change ("-" ++ toString (n + 1)).toList = _
  rw [String.toList_append]
  rfl

/-- A number is made of digits, with a minus sign in front perhaps. -/
theorem of_mem_toString_int {z : Int} {c : Char} (h : c ∈ (toString z).toList) : c = '-' ∨ c.isDigit = true := by
  cases z with
  | ofNat n => exact Or.inr (isDigit_of_mem_toString h)
  | negSucc n =>
    rw [toString_negSucc] at h
    rcases List.mem_cons.mp h with minus | digit
    · exact Or.inl minus
    · exact Or.inr (isDigit_of_mem_toString digit)

theorem readInteger_toString {bits : Nat} {z : Int} (low : -2 ^ (bits - 1) ≤ z) (high : z < 2 ^ (bits - 1)) :
    readInteger bits (toString z).toList = .ok z := by
  cases z with
  | ofNat n =>
    have small : n ≤ 2 ^ (bits - 1) - 1 := by
      have below : (n : Int) < 2 ^ (bits - 1) := high
      have below : n < 2 ^ (bits - 1) := by exact_mod_cast below
      omega
    obtain ⟨c, rest, cons, digit⟩ := toString_eq_cons n
    have read := readMagnitude_toString small .tooLarge
    rw [toString_ofNat]
    rw [cons] at read ⊢
    unfold readInteger
    split
    · next empty => cases empty
    · next plus =>
      cases plus
      cases digit
    · next minus =>
      cases minus
      cases digit
    · rw [Nat.pow_eq, read]
      rfl
  | negSucc n =>
    have small : n + 1 ≤ 2 ^ (bits - 1) := by
      rw [Int.negSucc_eq] at low
      have most : (n : Int) + 1 ≤ 2 ^ (bits - 1) := by omega
      exact_mod_cast most
    rw [toString_negSucc, readInteger, Nat.pow_eq, readMagnitude_toString small]
    rfl

theorem readInteger_of_natAbs_le {z : Int} {n : Nat} (fits : z.natAbs ≤ n) :
    readInteger (n + 1) (toString z).toList = .ok z := by
  have wide : (n : Int) < 2 ^ n := by exact_mod_cast Nat.lt_two_pow_self
  refine readInteger_toString ?_ ?_
  · rw [Nat.add_sub_cancel]
    omega
  · rw [Nat.add_sub_cancel]
    omega

/-- Two numbers do not have the same text. -/
theorem toString_injective {z w : Int} (same : toString z = toString w) : z = w := by
  have first := readInteger_of_natAbs_le (Nat.le_max_left z.natAbs w.natAbs)
  have second := readInteger_of_natAbs_le (Nat.le_max_right z.natAbs w.natAbs)
  rw [same] at first
  exact Except.ok.inj (first.symm.trans second)

end Chip8.Text
