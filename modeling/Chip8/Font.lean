/-!
The built-in font: a sprite of five rows, eight pixels wide, for each of the sixteen hex digits.
-/

namespace Chip8.Font

/-- The rows of a sprite. -/
def glyphBytes : Nat := 5

def size : Nat := 80

/-- The sprites of 0 to F, one after another. -/
def table : List UInt8 :=
  [0xf0, 0x90, 0x90, 0x90, 0xf0,
   0x20, 0x60, 0x20, 0x20, 0x70,
   0xf0, 0x10, 0xf0, 0x80, 0xf0,
   0xf0, 0x10, 0xf0, 0x10, 0xf0,
   0x90, 0x90, 0xf0, 0x10, 0x10,
   0xf0, 0x80, 0xf0, 0x10, 0xf0,
   0xf0, 0x80, 0xf0, 0x90, 0xf0,
   0xf0, 0x10, 0x20, 0x40, 0x40,
   0xf0, 0x90, 0xf0, 0x90, 0xf0,
   0xf0, 0x90, 0xf0, 0x10, 0xf0,
   0xf0, 0x90, 0xf0, 0x90, 0x90,
   0xe0, 0x90, 0xe0, 0x90, 0xe0,
   0xf0, 0x80, 0x80, 0x80, 0xf0,
   0xe0, 0x90, 0x90, 0x90, 0xe0,
   0xf0, 0x80, 0xf0, 0x80, 0xf0,
   0xf0, 0x80, 0xf0, 0x80, 0x80]

/-- The rows of the sprite of a hex digit. -/
def glyph (digit : Fin 16) : List UInt8 := (table.drop (digit.val * glyphBytes)).take glyphBytes

theorem length_table : table.length = size := rfl

end Chip8.Font
