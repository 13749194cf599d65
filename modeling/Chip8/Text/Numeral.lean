/-!
Numerals read from text. A numeral is an optional sign and one or more digits; it may have any number
of leading zeros, and its value must lie in a range. Of several faults the leftmost is reported, and
a character that is no digit before a value that is too large at the same place.
-/

namespace Chip8.Text

/-- Why a text is not a numeral of the wanted range. -/
inductive NumeralError
  | empty
  | invalidDigit
  | tooLarge
  | tooSmall
  deriving DecidableEq, Repr

def NumeralError.message : NumeralError → String
  | .empty => "cannot parse integer from empty string"
  | .invalidDigit => "invalid digit found in string"
  | .tooLarge => "number too large to fit in target type"
  | .tooSmall => "number too small to fit in target type"

/-- The value of a digit in any base up to thirty-six, letters in either case. -/
def digitValue? (c : Char) : Option Nat :=
  if '0' ≤ c ∧ c ≤ '9' then some (c.toNat - '0'.toNat)
  else if 'a' ≤ c ∧ c ≤ 'z' then some (c.toNat - 'a'.toNat + 10)
  else if 'A' ≤ c ∧ c ≤ 'Z' then some (c.toNat - 'A'.toNat + 10)
  else none

/-- The value of a digit of base `radix`. -/
def digit? (radix : Nat) (c : Char) : Option Nat :=
  (digitValue? c).filter (· < radix)

/-- Reads digits after a part of value `value`; a value above `limit` is the error `outside`. -/
def readDigits (radix limit : Nat) (outside : NumeralError) :
    (value : Nat) → List Char → Except NumeralError Nat
  | value, [] => .ok value
  | value, c :: rest =>
    match digit? radix c with
    | none => .error .invalidDigit
    | some d =>
      if value * radix + d ≤ limit then readDigits radix limit outside (value * radix + d) rest
      else .error outside

/-- Reads one or more digits; a sign with nothing after it is not a numeral. -/
def readMagnitude (radix limit : Nat) (outside : NumeralError) : List Char → Except NumeralError Nat
  | [] => .error .invalidDigit
  | digits => readDigits radix limit outside 0 digits

/-- Reads a numeral from 0 to `limit`, with at most one plus sign in front. -/
def readNatural (radix limit : Nat) : List Char → Except NumeralError Nat
  | [] => .error .empty
  | '+' :: digits => readMagnitude radix limit .tooLarge digits
  | digits => readMagnitude radix limit .tooLarge digits

/-- Reads a decimal numeral that fits into so many bits with a sign, with at most one sign in front. -/
def readInteger (bits : Nat) : List Char → Except NumeralError Int
  | [] => .error .empty
  | '+' :: digits => (readMagnitude 10 (Nat.pow 2 (bits - 1) - 1) .tooLarge digits).map Int.ofNat
  | '-' :: digits => (readMagnitude 10 (Nat.pow 2 (bits - 1)) .tooSmall digits).map fun n => -(n : Int)
  | digits => (readMagnitude 10 (Nat.pow 2 (bits - 1) - 1) .tooLarge digits).map Int.ofNat

end Chip8.Text
