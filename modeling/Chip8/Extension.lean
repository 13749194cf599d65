import Chip8.Ram

/-!
The extension opcodes. The guest program puts the name of a node at I, numbers into the registers from
V0 on, and the address of a text into V0 and V1; the lower byte of the word says which message that
makes, or what is asked of the machine itself.
-/

namespace Chip8

abbrev Registers := Vector UInt8 16

/-- Each register has a value. -/
instance : GetElem Registers Register UInt8 fun _ _ => True where
  getElem v x _ := v.get x

/-- What an extension word asks for. -/
inductive Extension
  | route (envelope : Envelope)
  | control (control : Control)
  | unassigned (code : UInt8)
  deriving DecidableEq, Repr

namespace Extension

/-- The most bytes of a node's name that are read. -/
def targetLimit : Nat := 31

/-- The most bytes of a text argument that are read. -/
def textLimit : Nat := 63

def isSeparator (c : Char) : Bool := c == Envelope.targetSeparator || c == Envelope.fieldSeparator

/-- Reads a text from memory as one field of an envelope: separators in it are left out. -/
def readField (ram : Ram) (addr limit : Nat) : Noted String := do
  let text ← ram.readAscii addr limit
  Noted.noteIf (text.toList.any isSeparator) (.separatorsDropped text)
  return String.ofList (text.toList.filter (!isSeparator ·))

def signedText (b : UInt8) : String := toString b.toInt8.toInt

def numberText (b : UInt8) : String := toString b.toNat

/-- The address that V0 and V1 make up. -/
def textAddress (v : Registers) : Nat := v[(0 : Register)].toNat * 256 + v[(1 : Register)].toNat

/-- The arguments of a verb, taken from the registers or from memory. -/
def arguments (operands : Operands) (v : Registers) (ram : Ram) : Noted (List String) :=
  match operands with
  | .none => pure []
  | .signed count => pure ((v.toList.take count).map signedText)
  | .color => pure ((v.toList.take 4).map numberText)
  | .percent => pure [toString (min v[(0 : Register)].toNat 100)]
  | .text => do
    let text ← readField ram (textAddress v) textLimit
    return [text]

/-- What the code asks of the machine itself, if it does. -/
def control? (code : UInt8) (v : Registers) : Option Control :=
  match code.toNat with
  | 0xf0 => some (.logging false)
  | 0xf1 => some (.logging true)
  | 0xf2 => some (.clockMultiplier (max v[(0 : Register)].toUInt32 1))
  | 0xf3 => some .halt
  | 0xfd => some .reset
  | 0xff => some .powerDown
  | _ => none

/-- The code that sends the contents of the text window. -/
def sendData : UInt8 := 0x30

/-- The request that the lower byte of an extension word makes. -/
def decode (code : UInt8) (v : Registers) (i : UInt16) (ram : Ram) (window : TextWindow) :
    Noted Extension := do
  let target ← readField ram i.toNat targetLimit
  if code = sendData then
    let payload ← ram.readAscii window.address.toNat window.size.toNat
    return .route (.data ⟨target, payload⟩)
  else
    match control? code v with
    | some asked => return .control asked
    | none =>
      match Verb.ofCode? code with
      | none => return .unassigned code
      | some verb => do
        let args ← arguments verb.operands v ram
        return .route (.command ⟨target, verb.name, args⟩)

end Extension
end Chip8
