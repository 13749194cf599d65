/-!
Numbers written in base sixteen. A number is padded with zeros to a width and never cut: one that
needs more digits is written with all of them.
-/

namespace Chip8.Text

/-- The digits of `n` in base sixteen, `a` to `f` above nine, no leading zero. -/
def hexDigits (n : Nat) : List Char := Nat.toDigits 16 n

/-- `n` in base sixteen with small letters, at least `width` digits. -/
def lowerHex (width n : Nat) : String :=
  String.ofList ((hexDigits n).leftpad width '0')

/-- `n` in base sixteen with capital letters, at least `width` digits. -/
def upperHex (width n : Nat) : String :=
  String.ofList (((hexDigits n).map Char.toUpper).leftpad width '0')

/-- Bytes as two small hex digits each, without a space. -/
def hexBytes (bytes : List UInt8) : String :=
  String.join (bytes.map fun b => lowerHex 2 b.toNat)

end Chip8.Text
