import Chip8.Digits
import Chip8.Machine.Basic

/-!
What each instruction does to the machine. Three things are left to others: which instruction comes
next, a call of the display, and a message to the network; an instruction only says which of them it
wants. Nothing outside the machine has an influence on what an instruction does.
-/

namespace Chip8

/-- Where the program goes on after an instruction. -/
inductive Flow
  | next
  /-- Leaves the next instruction out. -/
  | skip
  | jump (addr : UInt16)
  /-- The program counter stays where it is. -/
  | stay
  deriving DecidableEq, Repr

def Flow.skipIf (condition : Bool) : Flow := if condition then .skip else .next

/-- What an instruction wants done outside the machine. -/
inductive Request
  | none
  | present
  | dispatch (envelope : Envelope)
  /-- Starting over, and telling the nodes. -/
  | reset
  deriving DecidableEq, Repr

structure Executed where
  machine : Machine
  flow : Flow := .next
  request : Request := .none

namespace Machine

/-- The program goes on with `flow`, and nothing is wanted outside. -/
def goOn (m : Machine) (flow : Flow := .next) : Noted Executed := pure { machine := m, flow }

def skipIf (m : Machine) (condition : Bool) : Noted Executed := m.goOn (.skipIf condition)

def haltHere (m : Machine) (reason : HaltReason) : Noted Executed := do
  let m ← m.halt reason
  m.goOn .stay

/-- An address some bytes on. Past the last address it goes on at zero, which is noted. -/
def advance (addr count : UInt16) : Noted UInt16 := do
  Noted.noteIf (UInt16.size ≤ addr.toNat + count.toNat) (.addressWrapped addr count)
  return addr + count

def increment? (b : UInt8) : Option UInt8 := if b = 255 then none else some (b + 1)

def decrement? (b : UInt8) : Option UInt8 := if b = 0 then none else some (b - 1)

/-- Goes back behind the call on top of the stack. -/
def ret (m : Machine) : Option (Noted Executed) :=
  if m.sp = 0 then some (m.haltHere (.stackUnderflow m.pc))
  else do
    let sp ← decrement? m.sp
    let addr ← m.stack[sp.toNat]?
    return do
      let next ← advance addr 2
      { m with sp }.goOn (.jump next)

/-- Puts the place of the call on the stack and goes to its target. -/
def call (m : Machine) (addr : UInt16) : Option (Noted Executed) :=
  if h : m.sp.toNat < 16 then
    (increment? m.sp).map fun sp =>
      { m with stack := m.stack.set m.sp.toNat m.pc, sp }.goOn (.jump addr)
  else some (m.haltHere (.stackOverflow m.pc))

/-- 1 if a condition holds, else 0. -/
def bit (condition : Bool) : UInt8 := if condition then 1 else 0

/-- Draws the sprite at I; VF tells whether it darkened a lit pixel. -/
def draw (m : Machine) (x y : Register) (n : Fin 16) : Noted Executed :=
  let drawn := m.screen.draw m.v[x] m.v[y] (m.ram.readAll m.i.toNat n.val)
  pure {
    machine := { m with screen := drawn.2 }.setRegister flagRegister (bit drawn.1)
    request := .present }

/-- Whether the key in a register is down; a number above fifteen means key F. -/
def keyDown (m : Machine) (x : Register) : Bool :=
  m.keys[min m.v[x].toNat 15]

def firstRegisters (m : Machine) (x : Register) : List UInt8 := m.v.toList.take (x.val + 1)

def loadRegisters (m : Machine) (x : Register) : Machine :=
  { m with
    v := Vector.ofFn fun r : Fin 16 =>
      if r ≤ x then m.ram.read (m.i.toNat + r.val) else m.v[r] }

def storeAtIndex (m : Machine) (bytes : List UInt8) : Noted Executed := do
  let ram ← m.ram.storeAll m.i.toNat bytes
  goOn { m with ram }

/-- Does what the program asks of its own machine. -/
def obey (m : Machine) (control : Control) : Noted Executed := do
  Noted.note (.controlled control)
  match control with
  | .logging on => goOn { m with config := { m.config with logging := on } }
  | .clockMultiplier count =>
    goOn { m with config := { m.config with clockMultiplier := max count 1 } }
  | .halt => m.haltHere .requested
  | .reset => return { machine := m, flow := .stay, request := .reset }
  | .powerDown => do
    Noted.note .poweredDown
    goOn { m with status := .off } .stay

def extend (m : Machine) (code : UInt8) : Noted Executed := do
  match ← Extension.decode code m.v m.i m.ram m.config.window with
  | .route envelope => do
    Noted.note (.routing envelope)
    return { machine := m, request := .dispatch envelope }
  | .control control => m.obey control
  | .unassigned code => do
    Noted.note (.unassignedExtension code m.pc)
    m.goOn

/-- Carries out an instruction. It is `none` if an index or a sum leaves its range. -/
def execute (m : Machine) : Instruction → Option (Noted Executed)
  | .nop => m.goOn
  | .clearScreen => some (pure { machine := { m with screen := .blank }, request := .present })
  | .ret => m.ret
  | .extension code => m.extend code
  | .system addr => some do
    Noted.note (.systemCall addr)
    m.goOn
  | .jump addr => m.goOn (.jump addr)
  | .call addr => m.call addr
  | .skipEqImm x nn => m.skipIf (m.v[x] == nn)
  | .skipNeImm x nn => m.skipIf (m.v[x] != nn)
  | .skipEqReg x y => m.skipIf (m.v[x] == m.v[y])
  | .loadImm x nn => (m.setRegister x nn).goOn
  | .addImm x nn => (m.setRegister x (m.v[x] + nn)).goOn
  | .move x y => (m.setRegister x m.v[y]).goOn
  | .or x y => (m.setRegister x (m.v[x] ||| m.v[y])).goOn
  | .and x y => (m.setRegister x (m.v[x] &&& m.v[y])).goOn
  | .xor x y => (m.setRegister x (m.v[x] ^^^ m.v[y])).goOn
  | .add x y =>
    (m.setWithFlag x (m.v[x] + m.v[y]) (bit (256 ≤ m.v[x].toNat + m.v[y].toNat))).goOn
  | .sub x y => (m.setWithFlag x (m.v[x] - m.v[y]) (bit (m.v[y] ≤ m.v[x]))).goOn
  | .shiftRight x => (m.setWithFlag x (m.v[x] >>> 1) (m.v[x] &&& 1)).goOn
  | .subReverse x y => (m.setWithFlag x (m.v[y] - m.v[x]) (bit (m.v[x] ≤ m.v[y]))).goOn
  | .shiftLeft x => (m.setWithFlag x (m.v[x] <<< 1) (m.v[x] >>> 7)).goOn
  | .skipNeReg x y => m.skipIf (m.v[x] != m.v[y])
  | .loadIndex addr => { m with i := addr }.goOn
  | .jumpOffset addr =>
    let target := addr.toNat + m.v[(0 : Register)].toNat
    if target < UInt16.size then m.goOn (.jump (UInt16.ofNat target)) else none
  | .random x nn =>
    let taken := m.random.next
    ({ m with random := taken.2 }.setRegister x (taken.1 &&& nn)).goOn
  | .draw x y n => m.draw x y n
  | .skipKeyDown x => m.skipIf (m.keyDown x)
  | .skipKeyUp x => m.skipIf (!m.keyDown x)
  | .loadDelay x => (m.setRegister x m.dt).goOn
  | .waitKey x => ({ m with status := .waiting x }.setRegister x 0).goOn
  | .setDelay x => { m with dt := m.v[x] }.goOn
  | .setSound x => { m with st := m.v[x] }.goOn
  | .addIndex x => { m with i := m.i + m.v[x].toUInt16 }.goOn
  | .loadGlyph x => (m.ram.glyphAddress? m.v[x]).map fun addr => { m with i := addr }.goOn
  | .storeDigits x => m.storeAtIndex (Digits.ofInt m.v[x].toNat).toList
  | .storeRegs x => m.storeAtIndex (m.firstRegisters x)
  | .loadRegs x => (m.loadRegisters x).goOn
  | .unknown word => some do
    Noted.note (.unknownOpcode word m.pc)
    m.goOn

def follow (m : Machine) : Flow → Noted Machine
  | .next => return { m with pc := ← advance m.pc 2 }
  | .skip => return { m with pc := ← advance m.pc 4 }
  | .jump addr => return { m with pc := addr }
  | .stay => return m

/-- Halts a machine that has nothing left to carry out. -/
def checkEnd (m : Machine) : Noted Machine :=
  if m.isActive && m.isPastEnd then m.halt (.outOfBounds m.pc) else pure m

end Machine
end Chip8
