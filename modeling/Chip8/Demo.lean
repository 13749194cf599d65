/-!
The built-in program, which runs when no other is given. It beeps, draws the digits of 42 in the upper
left corner, and then jumps to itself for ever.
-/

namespace Chip8

def demoProgram : List UInt8 :=
  [0x65, 0x03,  -- V5 := 3
   0xf5, 0x18,  -- sound timer := V5
   0x00, 0xe0,  -- clear the screen
   0xa3, 0x00,  -- I := 0x300
   0x60, 0x2a,  -- V0 := 42
   0xf0, 0x33,  -- the digits of V0 to I
   0xf2, 0x65,  -- V0 to V2 from I
   0x63, 0x01,  -- V3 := 1, the column
   0x64, 0x01,  -- V4 := 1, the row
   0xf0, 0x29,  -- I := glyph of V0
   0xd3, 0x45,  -- draw
   0x73, 0x05,  -- V3 := V3 + 5
   0xf1, 0x29,  -- I := glyph of V1
   0xd3, 0x45,  -- draw
   0x73, 0x05,  -- V3 := V3 + 5
   0xf2, 0x29,  -- I := glyph of V2
   0xd3, 0x45,  -- draw
   0x12, 0x22]  -- jump here

end Chip8
