import Chip8.Opcode

/-!
The instructions of the machine. Every word decodes to exactly one of them. Words of group 0 overlap:
a lower byte E0 clears the screen, of the others a lowest nibble E returns, and only what is then left
is an extension or a call of machine code.
-/

namespace Chip8

inductive Instruction
  /-- The word 0000, which does nothing. -/
  | nop
  | clearScreen
  | ret
  /-- An extension request; in compatibility mode such words are calls of machine code. -/
  | extension (code : UInt8)
  /-- A call of machine code. There is none, so nothing happens. -/
  | system (addr : UInt16)
  | jump (addr : UInt16)
  | call (addr : UInt16)
  | skipEqImm (x : Register) (nn : UInt8)
  | skipNeImm (x : Register) (nn : UInt8)
  | skipEqReg (x y : Register)
  | loadImm (x : Register) (nn : UInt8)
  /-- Adds without a carry. -/
  | addImm (x : Register) (nn : UInt8)
  | move (x y : Register)
  | or (x y : Register)
  | and (x y : Register)
  | xor (x y : Register)
  /-- Adds; VF is the carry. -/
  | add (x y : Register)
  /-- Takes VY from VX; VF tells that nothing was borrowed. -/
  | sub (x y : Register)
  /-- Halves VX in place; VF is the bit shifted out. -/
  | shiftRight (x : Register)
  /-- Takes VX from VY; VF tells that nothing was borrowed. -/
  | subReverse (x y : Register)
  /-- Doubles VX in place; VF is the bit shifted out. -/
  | shiftLeft (x : Register)
  | skipNeReg (x y : Register)
  | loadIndex (addr : UInt16)
  /-- Jumps to the address plus V0. -/
  | jumpOffset (addr : UInt16)
  | random (x : Register) (nn : UInt8)
  | draw (x y : Register) (n : Fin 16)
  | skipKeyDown (x : Register)
  | skipKeyUp (x : Register)
  | loadDelay (x : Register)
  | waitKey (x : Register)
  | setDelay (x : Register)
  | setSound (x : Register)
  | addIndex (x : Register)
  /-- Points I at the sprite of a hex digit. -/
  | loadGlyph (x : Register)
  | storeDigits (x : Register)
  | storeRegs (x : Register)
  | loadRegs (x : Register)
  | unknown (word : UInt16)
  deriving DecidableEq, Repr

namespace Instruction

/-- Group 0. The checks come in this order, so that overlapping words have one meaning. -/
def decodeZero (op : Opcode) (compatibility : Bool) : Instruction :=
  if op.word = 0 then .nop
  else if op.nn = 0xe0 then .clearScreen
  else if op.n = 0xe then .ret
  else if op.x = 0xe ∧ compatibility = false then .extension op.nn
  else .system op.nnn

/-- Group 8, arithmetic between two registers. -/
def decodeArithmetic (op : Opcode) : Instruction :=
  match op.n.val with
  | 0x0 => .move op.x op.y
  | 0x1 => .or op.x op.y
  | 0x2 => .and op.x op.y
  | 0x3 => .xor op.x op.y
  | 0x4 => .add op.x op.y
  | 0x5 => .sub op.x op.y
  | 0x6 => .shiftRight op.x
  | 0x7 => .subReverse op.x op.y
  | 0xe => .shiftLeft op.x
  | _ => .unknown op.word

/-- Group E, keys; only the lowest nibble counts. -/
def decodeKeys (op : Opcode) : Instruction :=
  match op.n.val with
  | 0xe => .skipKeyDown op.x
  | 0x1 => .skipKeyUp op.x
  | _ => .unknown op.word

/-- Group F, timers, the index register and memory. -/
def decodeTransfer (op : Opcode) : Instruction :=
  match op.nn.toNat with
  | 0x07 => .loadDelay op.x
  | 0x0a => .waitKey op.x
  | 0x15 => .setDelay op.x
  | 0x18 => .setSound op.x
  | 0x1e => .addIndex op.x
  | 0x29 => .loadGlyph op.x
  | 0x33 => .storeDigits op.x
  | 0x55 => .storeRegs op.x
  | 0x65 => .loadRegs op.x
  | _ => .unknown op.word

def decode (op : Opcode) (compatibility : Bool) : Instruction :=
  match op.group.val with
  | 0x0 => decodeZero op compatibility
  | 0x1 => .jump op.nnn
  | 0x2 => .call op.nnn
  | 0x3 => .skipEqImm op.x op.nn
  | 0x4 => .skipNeImm op.x op.nn
  | 0x5 => .skipEqReg op.x op.y
  | 0x6 => .loadImm op.x op.nn
  | 0x7 => .addImm op.x op.nn
  | 0x8 => decodeArithmetic op
  | 0x9 => .skipNeReg op.x op.y
  | 0xa => .loadIndex op.nnn
  | 0xb => .jumpOffset op.nnn
  | 0xc => .random op.x op.nn
  | 0xd => .draw op.x op.y op.n
  | 0xe => decodeKeys op
  | _ => decodeTransfer op

/-! ### Listing -/

/-- An operation with unnamed operands, in parentheses. -/
def positional (name : String) (operand : Nat) : String :=
  name ++ "(" ++ toString operand ++ ")"

/-- An operation with named operands, in braces. -/
def named (name : String) (operands : List (String × Nat)) : String :=
  name ++ " \x7b " ++ ", ".intercalate (operands.map fun o => o.1 ++ ": " ++ toString o.2) ++ " \x7d"

def named₁ (name : String) (x : Register) : String := named name [("x", x.val)]

def named₂ (name : String) (x y : Register) : String := named name [("x", x.val), ("y", y.val)]

def namedImm (name : String) (x : Register) (nn : UInt8) : String :=
  named name [("x", x.val), ("nn", nn.toNat)]

/-- An instruction as a listing shows it: its name and its operands, in decimal. -/
def listing : Instruction → String
  | nop => "Nop"
  | clearScreen => "ClearScreen"
  | ret => "Return"
  | extension code => positional "Extension" code.toNat
  | system addr => positional "System" addr.toNat
  | jump addr => positional "Jump" addr.toNat
  | call addr => positional "Call" addr.toNat
  | skipEqImm x nn => namedImm "SkipEqImm" x nn
  | skipNeImm x nn => namedImm "SkipNeImm" x nn
  | skipEqReg x y => named₂ "SkipEqReg" x y
  | loadImm x nn => namedImm "LoadImm" x nn
  | addImm x nn => namedImm "AddImm" x nn
  | move x y => named₂ "Move" x y
  | or x y => named₂ "Or" x y
  | and x y => named₂ "And" x y
  | xor x y => named₂ "Xor" x y
  | add x y => named₂ "Add" x y
  | sub x y => named₂ "Sub" x y
  | shiftRight x => named₁ "ShiftRight" x
  | subReverse x y => named₂ "SubReverse" x y
  | shiftLeft x => named₁ "ShiftLeft" x
  | skipNeReg x y => named₂ "SkipNeReg" x y
  | loadIndex addr => positional "LoadI" addr.toNat
  | jumpOffset addr => positional "JumpV0" addr.toNat
  | random x nn => namedImm "Random" x nn
  | draw x y n => named "Draw" [("x", x.val), ("y", y.val), ("n", n.val)]
  | skipKeyDown x => named₁ "SkipKeyPressed" x
  | skipKeyUp x => named₁ "SkipKeyReleased" x
  | loadDelay x => named₁ "LoadDelay" x
  | waitKey x => named₁ "WaitKey" x
  | setDelay x => named₁ "SetDelay" x
  | setSound x => named₁ "SetSound" x
  | addIndex x => named₁ "AddI" x
  | loadGlyph x => named₁ "LoadGlyph" x
  | storeDigits x => named₁ "Bcd" x
  | storeRegs x => named₁ "StoreRegs" x
  | loadRegs x => named₁ "LoadRegs" x
  | unknown word => positional "Unknown" word.toNat

end Instruction
end Chip8
