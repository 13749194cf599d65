import Chip8.Noted

/-!
The memory of a machine: 4096 bytes, with the font at a chosen address. Guest addresses wrap around at
the end of memory, and guest stores into the font are refused. Addresses of whole chunks do not wrap:
what does not fit is cut off, and a chunk that starts past the end of memory is out of range.
-/

namespace Chip8

structure Ram where
  bytes : Vector UInt8 ramSize
  font : UInt16
  deriving DecidableEq, Repr

namespace Ram

/-- The place of a guest address. -/
def wrap (addr : Nat) : Nat := addr % ramSize

theorem wrap_lt (addr : Nat) : wrap addr < ramSize := Nat.mod_lt _ (by decide)

/-- The byte at a guest address. -/
def read (ram : Ram) (addr : Nat) : UInt8 :=
  have := wrap_lt addr
  ram.bytes[wrap addr]

/-- Replaces the byte at a guest address, the font included. -/
def put (ram : Ram) (addr : Nat) (value : UInt8) : Ram :=
  { ram with bytes := ram.bytes.set (wrap addr) value (wrap_lt addr) }

theorem read_put (ram : Ram) (addr other : Nat) (value : UInt8) :
    (ram.put addr value).read other = if wrap addr = wrap other then value else ram.read other := by
  simp only [read, put, Vector.getElem_set]

/-- Whether a place in memory belongs to the font. -/
def isProtected (ram : Ram) (addr : Nat) : Bool :=
  ram.font.toNat ≤ addr && addr < ram.font.toNat + Font.size

/-! ### Chunks -/

/-- Copies bytes in one after another. -/
def copy (ram : Ram) (addr : Nat) : List UInt8 → Ram
  | [] => ram
  | b :: rest => (ram.put addr b).copy (addr + 1) rest

/-- Copies in what fits of the data and tells how much that is; out of range past the end. -/
def write? (ram : Ram) (addr : UInt16) (data : List UInt8) : Option (Nat × Ram) :=
  if addr.toNat ≤ ramSize then
    let count := min data.length (ramSize - addr.toNat)
    some (count, ram.copy addr.toNat (data.take count))
  else none

/-- The bytes of a range inside memory. -/
def slice? (ram : Ram) (addr : UInt16) (count : Nat) : Option (List UInt8) :=
  if addr.toNat + count ≤ ramSize then
    some ((List.range count).map fun k => ram.read (addr.toNat + k))
  else none

/-- Sets every byte of a range inside memory. -/
def fill? (ram : Ram) (addr : UInt16) (count : Nat) (value : UInt8) : Option Ram :=
  if addr.toNat + count ≤ ramSize then some (ram.copy addr.toNat (List.replicate count value))
  else none

/-- The word in two bytes, the higher first, if both lie in memory. -/
def word? (ram : Ram) (addr : UInt16) : Option UInt16 :=
  if addr.toNat + 1 < ramSize then
    some ((ram.read addr.toNat).toUInt16 <<< 8 ||| (ram.read (addr.toNat + 1)).toUInt16)
  else none

/-! ### The font -/

/-- Empties memory and puts the font back. -/
def clear? (ram : Ram) : Option Ram :=
  (Ram.write? ⟨Vector.replicate _ 0, ram.font⟩ ram.font Font.table).map (·.2)

/-- Memory with nothing in it but the font. -/
def blank? (font : UInt16) : Option Ram := clear? ⟨Vector.replicate _ 0, font⟩

/-- The address of the sprite of a hex digit; only the lower nibble of `glyph` counts. -/
def glyphAddress? (ram : Ram) (glyph : UInt8) : Option UInt16 :=
  let addr := ram.font.toNat + glyph.toNat % 16 * Font.glyphBytes
  if addr < UInt16.size then some (UInt16.ofNat addr) else none

/-! ### Loading and storing -/

/-- Copies a program in and tells how much of it fitted. -/
def load? (ram : Ram) (program : List UInt8) (boot : UInt16) : Option (Noted (Nat × Ram)) :=
  (ram.write? boot program).map fun (count, ram) => do
    Noted.noteIf (count < program.length) (.programTruncated program.length count boot)
    return (count, ram)

/-- A guest store; `none` when the font refuses it. -/
def store (ram : Ram) (addr : Nat) (value : UInt8) : Noted (Option Ram) := do
  let refused := ram.isProtected (wrap addr)
  Noted.noteIf refused (.storeRefused value (wrap addr))
  return if refused then none else some (ram.put addr value)

/-- Guest stores into consecutive addresses. The font keeps its bytes. -/
def storeAll (ram : Ram) (addr : Nat) : List UInt8 → Noted Ram
  | [] => pure ram
  | b :: rest => do
    let stored ← ram.store addr b
    (stored.getD ram).storeAll (addr + 1) rest

def readAll (ram : Ram) (addr count : Nat) : List UInt8 :=
  (List.range count).map fun k => ram.read (addr + k)

/-! ### Text -/

def isPrintable (b : UInt8) : Bool := 0x20 ≤ b && b ≤ 0x7e

/-- The text at an address, of at most `limit` bytes. It ends at a zero byte or at the font; bytes
that are not printable are left out. -/
def asciiAt (ram : Ram) : (addr limit : Nat) → List Char
  | _, 0 => []
  | addr, limit + 1 =>
    let b := ram.read addr
    if ram.isProtected (wrap addr) || b == 0 then []
    else if isPrintable b then Char.ofNat b.toNat :: ram.asciiAt (addr + 1) limit
    else ram.asciiAt (addr + 1) limit

def readAscii (ram : Ram) (addr limit : Nat) : Noted String := do
  let text := String.ofList (ram.asciiAt addr limit)
  Noted.note (.asciiRead text (wrap addr))
  return text

/-- A character as one byte; what is not ASCII becomes a question mark. -/
def asciiByte (c : Char) : UInt8 :=
  if c.toNat < 128 then UInt8.ofNat c.toNat else 0x3f

/-- Stores characters and a zero byte behind them, and tells how many characters were stored. The font
cuts the text short, and then its end needs no zero byte. -/
def storeText (ram : Ram) (addr : Nat) : List Char → Noted (Nat × Ram)
  | [] => do
    let stored ← ram.store addr 0
    return (0, stored.getD ram)
  | c :: rest => do
    match ← ram.store addr (asciiByte c) with
    | some ram => do
      let (count, ram) ← ram.storeText (addr + 1) rest
      return (count + 1, ram)
    | none => do
      let stored ← ram.store addr 0
      return (0, stored.getD ram)

/-- Writes a text and its zero byte into a window of `capacity` bytes; tells how many characters were
written. -/
def writeAscii (ram : Ram) (addr : Nat) (text : String) : (capacity : Nat) → Noted (Nat × Ram)
  | 0 => pure (0, ram)
  | room + 1 => ram.storeText addr (text.toList.take room)

end Ram
end Chip8
