import Chip8.Text.Numeral
import Chip8.Text.Quoted

/-!
Addresses as they are typed: decimal, or hexadecimal after `0x`.
-/

namespace Chip8

open Text

/-- A text that is no address, and what is wrong with its digits. -/
structure AddressError where
  text : String
  cause : NumeralError
  deriving DecidableEq, Repr

def AddressError.message (e : AddressError) : String :=
  "bad address " ++ quoted e.text ++ ": " ++ e.cause.message

/-- Reads the digits of an address, in base sixteen after `0x` or `0X` and in base ten without. -/
def readAddress : List Char → Except NumeralError Nat
  | '0' :: 'x' :: digits => readNatural 16 0xffff digits
  | '0' :: 'X' :: digits => readNatural 16 0xffff digits
  | digits => readNatural 10 0xffff digits

def parseAddress (text : String) : Except AddressError UInt16 :=
  match readAddress text.toList with
  | .ok n => .ok (UInt16.ofNat n)
  | .error cause => .error ⟨text, cause⟩

end Chip8
