import Chip8.Address
import Chip8.Proofs.Text.Numeral
import Chip8.Text.Hex

/-!
The grammar of addresses. A text is read as an address just if it is a decimal numeral, or a hexadecimal one after a mark,
of a number below 2^16. So whatever way an address is written, it is read again.
-/

namespace Chip8

open Text

/-- The texts of an address: a decimal numeral, or a hexadecimal one behind `0x` or `0X`. -/
inductive AddressText : List Char → Nat → Prop
  | decimal {text : List Char} {n : Nat} (numeral : Numeral 10 text n) : AddressText text n
  | hexadecimal {x : Char} {text : List Char} {n : Nat} (mark : x = 'x' ∨ x = 'X') (numeral : Numeral 16 text n) :
      AddressText ('0' :: x :: text) n

variable {text : List Char} {x : Char} {n : Nat}

/-- The mark is no part of a decimal numeral. -/
theorem not_numeral_mark (mark : x = 'x' ∨ x = 'X') : ¬Numeral 10 ('0' :: x :: text) n := by
  rintro ⟨_, -, written, -⟩
  cases written with
  | cons _ behind =>
    cases behind with
    | cons second _ =>
      refine not_isDigit (by decide) ?_ second
      rcases mark with rfl | rfl <;> decide

theorem AddressText.of_mark (mark : x = 'x' ∨ x = 'X') : AddressText ('0' :: x :: text) n ↔ Numeral 16 text n := by
  constructor
  · intro h
    cases h with
    | decimal numeral => exact absurd numeral (not_numeral_mark mark)
    | hexadecimal _ numeral => exact numeral
  · exact .hexadecimal mark

theorem readAddress_eq_ok_iff : readAddress text = .ok n ↔ AddressText text n ∧ n ≤ 0xffff := by
  unfold readAddress
  split
  · rw [readNatural_eq_ok_iff (by decide) (by decide), AddressText.of_mark (Or.inl rfl)]
  · rw [readNatural_eq_ok_iff (by decide) (by decide), AddressText.of_mark (Or.inr rfl)]
  · next small capital =>
    rw [readNatural_eq_ok_iff (by decide) (by decide)]
    refine and_congr_left fun _ => ⟨.decimal, fun h => ?_⟩
    cases h with
    | decimal numeral => exact numeral
    | hexadecimal mark =>
      rcases mark with rfl | rfl
      · exact absurd rfl (small _)
      · exact absurd rfl (capital _)

theorem parseAddress_eq_ok_iff {text : String} :
    (parseAddress text).map UInt16.toNat = .ok n ↔ AddressText text.toList n ∧ n ≤ 0xffff := by
  rw [← readAddress_eq_ok_iff, parseAddress]
  rcases read : readAddress text.toList with cause | m
  · simp [Except.map]
  · have inRange : m ≤ 0xffff := (readAddress_eq_ok_iff.mp read).2
    have same : (UInt16.ofNat m).toNat = m := UInt16.toNat_ofNat_of_lt' (Nat.lt_succ_of_le inRange)
    simp [Except.map, same]

/-- Every text of an address is read as the address. -/
theorem parseAddress_of_text {text : String} {a : UInt16} (h : AddressText text.toList a.toNat) :
    parseAddress text = .ok a := by
  have read := parseAddress_eq_ok_iff.mpr ⟨h, Nat.le_of_lt_succ a.toNat_lt⟩
  rcases parsed : parseAddress text with cause | b
  · rw [parsed] at read
    cases read
  · rw [parsed] at read
    rw [UInt16.toNat_inj.mp (Except.ok.inj read)]

theorem parseAddress_of_hexadecimal {mark : String} {digits : List Char} {a : UInt16}
    (marked : mark.toList = ['0', x]) (letter : x = 'x' ∨ x = 'X') (spelled : Spells 16 digits a.toNat) :
    parseAddress (mark ++ String.ofList digits) = .ok a := by
  refine parseAddress_of_text ?_
  rw [String.toList_append, marked, String.toList_ofList]
  exact .hexadecimal letter (.plain spelled)

/-- A text is read as an address just if it is the text of a number below 2^16, and then it is read as this number. In
particular an address is read again that was written in base ten or, behind the mark, in base sixteen with letters of
either case, whatever the width that it was padded to with zeros. -/
theorem address_is_read_iff :
    (∀ (text : String) (n : Nat),
      (parseAddress text).map UInt16.toNat = .ok n ↔ AddressText text.toList n ∧ n ≤ 0xffff) ∧
    ∀ (a : UInt16) (width : Nat),
      parseAddress (toString a.toNat) = .ok a ∧
      parseAddress (String.ofList ((toString a.toNat).toList.leftpad width '0')) = .ok a ∧
      parseAddress ("0x" ++ lowerHex width a.toNat) = .ok a ∧
      parseAddress ("0X" ++ upperHex width a.toNat) = .ok a := by
  refine ⟨fun text n => parseAddress_eq_ok_iff, fun a width => ⟨?_, ?_, ?_, ?_⟩⟩
  · exact parseAddress_of_text (.decimal (.plain (spells_toString _)))
  · refine parseAddress_of_text (.decimal (.plain ?_))
    rw [String.toList_ofList]
    exact (spells_toString _).leftpad (by decide) width
  · have spelled : Spells 16 (hexDigits a.toNat) a.toNat := spells_toDigits (by decide) _
    exact parseAddress_of_hexadecimal rfl (Or.inl rfl) (spelled.leftpad (by decide) width)
  · have spelled : Spells 16 ((hexDigits a.toNat).map Char.toUpper) a.toNat :=
      (spells_toDigits (by decide) _).map_toUpper (by decide)
    exact parseAddress_of_hexadecimal rfl (Or.inr rfl) (spelled.leftpad (by decide) width)

-- A plus sign and zeros in front are read, a minus sign and a number that is too large are not.
example : parseAddress "0X+0fFfF" = .ok 0xffff ∧ parseAddress "+007" = .ok 7 := by decide

example : parseAddress "-0" = .error ⟨"-0", .invalidDigit⟩ ∧ parseAddress "65536" = .error ⟨"65536", .tooLarge⟩ := by
  decide

end Chip8
