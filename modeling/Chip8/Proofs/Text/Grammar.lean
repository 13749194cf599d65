import Chip8.Text.Numeral
import Mathlib.Data.List.Forall2
import Mathlib.Data.Nat.Digits.Defs

/-!
The grammar of numerals. A text is read as a natural number just if it is made of digits, one at least, with a plus sign
in front perhaps, and the number that the digits make is in range. So zeros in front do not count, and each way to write
a number in the base is read as this number.
-/

namespace Chip8.Text
variable {radix limit value n d : Nat} {outside : NumeralError} {text : List Char} {c : Char}

/-- A character is a digit of base `radix`; a letter may be small or a capital. -/
def IsDigit (radix : Nat) (c : Char) (d : Nat) : Prop := d < radix ∧ (c = d.digitChar ∨ c = d.digitChar.toUpper)

/-- A text is made of digits of base `radix`, one at least, and they make a number. -/
def Spells (radix : Nat) (text : List Char) (n : Nat) : Prop :=
  ∃ digits, digits ≠ [] ∧ List.Forall₂ (IsDigit radix) text digits ∧ Nat.ofDigits radix digits.reverse = n

/-- Digits of base `radix` that make a number, with a plus sign in front perhaps. -/
inductive Numeral (radix : Nat) : List Char → Nat → Prop
  | plain {text : List Char} {n : Nat} (spelled : Spells radix text n) : Numeral radix text n
  | plus {text : List Char} {n : Nat} (spelled : Spells radix text n) : Numeral radix ('+' :: text) n

/-! ### Digits -/

theorem digitValue?_digitChar : ∀ d < 16,
    digitValue? d.digitChar = some d ∧ digitValue? d.digitChar.toUpper = some d := by
  decide

theorem toNat_digitChar : ∀ d < 16, (d < 10 → d.digitChar.toNat = 48 + d) ∧
    (10 ≤ d → d.digitChar.toNat = 87 + d ∧ d.digitChar.toUpper.toNat = 55 + d) := by
  decide

/-- No other characters have these values than the digits and the letters. -/
theorem digitChar_of_digitValue? (h : digitValue? c = some d) (small : d < 16) :
    c = d.digitChar ∨ c = d.digitChar.toUpper := by
  obtain ⟨figures, letters⟩ := toNat_digitChar d small
  unfold digitValue? at h
  rw [← Char.toNat_inj, ← Char.toNat_inj]
  split at h
  · next figure =>
    have low : 48 ≤ c.toNat := figure.1
    have high : c.toNat ≤ 57 := figure.2
    have valued : c.toNat - 48 = d := Option.some.inj h
    exact Or.inl (by omega)
  · split at h
    · next letter =>
      have low : 97 ≤ c.toNat := letter.1
      have valued : c.toNat - 97 + 10 = d := Option.some.inj h
      exact Or.inl (by omega)
    · split at h
      · next capital =>
        have low : 65 ≤ c.toNat := capital.1
        have valued : c.toNat - 65 + 10 = d := Option.some.inj h
        exact Or.inr (by omega)
      · cases h

theorem digit?_eq_some_iff (small : radix ≤ 16) : digit? radix c = some d ↔ IsDigit radix c d := by
  simp only [digit?, Option.filter_eq_some_iff, decide_eq_true_eq, IsDigit]
  constructor
  · rintro ⟨valued, below⟩
    exact ⟨below, digitChar_of_digitValue? valued (by omega)⟩
  · rintro ⟨below, rfl | rfl⟩
    · exact ⟨(digitValue?_digitChar d (by omega)).1, below⟩
    · exact ⟨(digitValue?_digitChar d (by omega)).2, below⟩

theorem not_isDigit (small : radix ≤ 16) (other : digit? radix c = none) : ¬IsDigit radix c d := by
  rw [← digit?_eq_some_iff small, other]
  exact nofun

/-- A character is at most one digit. -/
theorem IsDigit.unique {e : Nat} (first : IsDigit radix c d) (second : IsDigit radix c e) (small : radix ≤ 16) :
    e = d :=
  Option.some.inj (((digit?_eq_some_iff small).mpr second).symm.trans ((digit?_eq_some_iff small).mpr first))

/-! ### Reading -/

/-- The digits behind a part of the number shift that part to the left. -/
theorem ofDigits_reverse_shift (radix value d : Nat) (digits : List Nat) :
    value * radix ^ (d :: digits).length + Nat.ofDigits radix (d :: digits).reverse =
      (value * radix + d) * radix ^ digits.length + Nat.ofDigits radix digits.reverse := by
  rw [Nat.ofDigits_reverse_cons, List.length_cons]
  ring

/-- Digits are read just if the number that they make behind the part read before is in range. -/
theorem readDigits_eq_ok_iff (small : radix ≤ 16) (positive : 0 < radix) (within : value ≤ limit) :
    readDigits radix limit outside value text = .ok n ↔ ∃ digits, List.Forall₂ (IsDigit radix) text digits ∧
      value * radix ^ digits.length + Nat.ofDigits radix digits.reverse = n ∧ n ≤ limit := by
  induction text generalizing value with
  | nil =>
    simp only [readDigits, Except.ok.injEq, List.forall₂_nil_left_iff]
    constructor
    · rintro rfl
      exact ⟨[], rfl, by simp, within⟩
    · rintro ⟨_, rfl, made, -⟩
      simpa using made
  | cons c rest ih =>
    simp only [List.forall₂_cons_left_iff]
    rcases digit : digit? radix c with _ | d
    · simp only [readDigits, digit, reduceCtorEq, false_iff]
      rintro ⟨_, ⟨d, digits, first, -⟩, -⟩
      exact not_isDigit small digit first
    · have first : IsDigit radix c d := (digit?_eq_some_iff small).mp digit
      simp only [readDigits, digit]
      split
      · next fits =>
        rw [ih fits]
        constructor
        · rintro ⟨digits, behind, made, inRange⟩
          exact ⟨d :: digits, ⟨d, digits, first, behind, rfl⟩, (ofDigits_reverse_shift ..).trans made, inRange⟩
        · rintro ⟨_, ⟨e, digits, also, behind, rfl⟩, made, inRange⟩
          obtain rfl := first.unique also small
          exact ⟨digits, behind, (ofDigits_reverse_shift ..).symm.trans made, inRange⟩
      · next large =>
        simp only [reduceCtorEq, false_iff]
        rintro ⟨_, ⟨e, digits, also, behind, rfl⟩, made, inRange⟩
        obtain rfl := first.unique also small
        -- Later digits only make the number larger.
        have grown : value * radix + e ≤ (value * radix + e) * radix ^ digits.length :=
          Nat.le_mul_of_pos_right _ (Nat.pow_pos positive)
        have shifted := (ofDigits_reverse_shift ..).symm.trans made
        omega

theorem readMagnitude_eq_ok_iff (small : radix ≤ 16) (positive : 0 < radix) :
    readMagnitude radix limit outside text = .ok n ↔ Spells radix text n ∧ n ≤ limit := by
  cases text with
  | nil =>
    simp only [readMagnitude, Spells, List.forall₂_nil_left_iff, reduceCtorEq, false_iff]
    rintro ⟨⟨_, nonempty, rfl, -⟩, -⟩
    exact nonempty rfl
  | cons c rest =>
    rw [readMagnitude, readDigits_eq_ok_iff small positive (Nat.zero_le _)]
    · simp only [Nat.zero_mul, Nat.zero_add, Spells]
      constructor
      · rintro ⟨digits, written, made, inRange⟩
        refine ⟨⟨digits, ?_, written, made⟩, inRange⟩
        rintro rfl
        cases written
      · rintro ⟨⟨digits, -, written, made⟩, inRange⟩
        exact ⟨digits, written, made, inRange⟩
    · simp

theorem not_spells_plus (small : radix ≤ 16) : ¬Spells radix ('+' :: text) n := by
  rintro ⟨_, -, written, -⟩
  cases written with
  | cons first => exact not_isDigit small (by simp [digit?, digitValue?]) first

/-- A text is read just if it is a numeral and its number is in range. -/
theorem readNatural_eq_ok_iff (small : radix ≤ 16) (positive : 0 < radix) :
    readNatural radix limit text = .ok n ↔ Numeral radix text n ∧ n ≤ limit := by
  unfold readNatural
  split
  · simp only [reduceCtorEq, false_iff]
    rintro ⟨⟨_, nonempty, written, -⟩, -⟩
    cases written
    exact nonempty rfl
  · rw [readMagnitude_eq_ok_iff small positive]
    constructor
    · rintro ⟨spelled, inRange⟩
      exact ⟨.plus spelled, inRange⟩
    · rintro ⟨numeral, inRange⟩
      cases numeral with
      | plain spelled => exact absurd spelled (not_spells_plus small)
      | plus spelled => exact ⟨spelled, inRange⟩
  · next unsigned =>
    rw [readMagnitude_eq_ok_iff small positive]
    constructor
    · rintro ⟨spelled, inRange⟩
      exact ⟨.plain spelled, inRange⟩
    · rintro ⟨numeral, inRange⟩
      cases numeral with
      | plain spelled => exact ⟨spelled, inRange⟩
      | plus => exact absurd rfl (unsigned _)

/-! ### Writing -/

theorem IsDigit.toUpper (h : IsDigit radix c d) (small : radix ≤ 16) : IsDigit radix c.toUpper d := by
  have idempotent : ∀ d < 16, d.digitChar.toUpper.toUpper = d.digitChar.toUpper := by decide
  obtain ⟨below, rfl | rfl⟩ := h
  · exact ⟨below, Or.inr rfl⟩
  · exact ⟨below, Or.inr (idempotent d (by omega))⟩

theorem Spells.map_toUpper (h : Spells radix text n) (small : radix ≤ 16) :
    Spells radix (text.map Char.toUpper) n := by
  obtain ⟨digits, nonempty, written, made⟩ := h
  exact ⟨digits, nonempty, List.forall₂_map_left_iff.mpr (written.imp fun _ _ digit => digit.toUpper small), made⟩

theorem Spells.snoc (h : Spells radix text n) (last : IsDigit radix c d) :
    Spells radix (text ++ [c]) (radix * n + d) := by
  obtain ⟨digits, -, written, rfl⟩ := h
  refine ⟨digits ++ [d], by simp, List.rel_append written (.cons last .nil), ?_⟩
  rw [List.reverse_concat, Nat.ofDigits_cons, Nat.add_comm]

/-- The digits of a number spell it. -/
theorem spells_toDigits (two : 1 < radix) (n : Nat) : Spells radix (Nat.toDigits radix n) n := by
  induction n using Nat.strongRecOn with
  | ind n ih =>
    rw [Nat.toDigits_eq_if two]
    split
    · next small => exact ⟨[n], by simp, .cons ⟨small, Or.inl rfl⟩ .nil, Nat.ofDigits_singleton⟩
    · next large =>
      have last : IsDigit radix (n % radix).digitChar (n % radix) := ⟨Nat.mod_lt n (by omega), Or.inl rfl⟩
      have spelled := (ih (n / radix) (Nat.div_lt_self (by omega) two)).snoc last
      rwa [Nat.div_add_mod] at spelled

theorem Spells.zero_cons (h : Spells radix text n) (positive : 0 < radix) : Spells radix ('0' :: text) n := by
  obtain ⟨digits, -, written, rfl⟩ := h
  exact ⟨0 :: digits, by simp, .cons ⟨positive, Or.inl rfl⟩ written, Nat.ofDigits_reverse_zero_cons digits⟩

/-- Zeros in front do not count. -/
theorem Spells.leftpad (h : Spells radix text n) (positive : 0 < radix) (width : Nat) :
    Spells radix (text.leftpad width '0') n := by
  rw [List.leftpad]
  induction width - text.length with
  | zero => exact h
  | succ zeros ih => exact ih.zero_cons positive

end Chip8.Text
