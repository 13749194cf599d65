import Chip8.Sixteen
import Chip8.Text.Hex

/-!
A raw instruction word and the fields that its nibbles make up.
-/

namespace Chip8

/-- An index of one of the sixteen registers. -/
abbrev Register := Fin 16

/-- An instruction word, as two bytes in memory give it, the higher byte first. -/
structure Opcode where
  word : UInt16
  deriving DecidableEq, Repr

namespace Opcode

/-- The nibble `k` places above the lowest one. -/
def nibble (op : Opcode) (k : Nat) : Fin 16 :=
  Fin.ofNat 16 (op.word.toNat / Nat.pow 16 k)

/-- The highest nibble, which says what kind of instruction the word is. -/
def group (op : Opcode) : Fin 16 := op.nibble 3

/-- The first register that the word names. -/
def x (op : Opcode) : Register := op.nibble 2

/-- The second register that the word names. -/
def y (op : Opcode) : Register := op.nibble 1

/-- The lowest nibble. -/
def n (op : Opcode) : Fin 16 := op.nibble 0

/-- The lower byte. -/
def nn (op : Opcode) : UInt8 := op.word.toUInt8

/-- The lower twelve bits, an address. -/
def nnn (op : Opcode) : UInt16 := op.word &&& 0x0fff

def text (op : Opcode) : String := Text.upperHex 4 op.word.toNat

end Opcode
end Chip8
