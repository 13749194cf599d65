import Chip8.Number.Shortest

/-!
The pixels of a frame that have one value, as points of a plane in which x grows to the right and y
grows upwards: the first row lies at 0 and every row one below the row before it. Points are exact;
only a coordinate that is written is rounded to double precision.
-/

namespace Chip8.Terminal

structure Point where
  x : Int
  y : Int
  deriving DecidableEq, Repr

/-- The extent of a frame, in pixels. -/
structure Resolution where
  width : UInt64
  height : UInt64
  deriving DecidableEq, Repr

namespace Resolution

/-- The number of pixels, if it does not leave the range of 64 bits. -/
def pixelCount? (r : Resolution) : Option Nat :=
  let count := r.width.toNat * r.height.toNat
  if count < UInt64.size then some count else none

/-- The first and the last column. A frame without columns has none. -/
def xBounds? (r : Resolution) : Option (Int × Int) :=
  if r.width = 0 then none else some (0, (r.width - 1).toNat)

/-- The last and the first row, as they lie in the plane. -/
def yBounds? (r : Resolution) : Option (Int × Int) :=
  if r.height = 0 then none else some (-((r.height - 1).toNat : Int), 0)

/-- The point of a pixel, by its number in the row by row order. There is none where the number would have to
be divided by zero. -/
def point? (r : Resolution) (k : Nat) : Option Point :=
  if r.width = 0 then none else some ⟨(k % r.width.toNat : Nat), -(k / r.width.toNat : Nat)⟩

/-- The numbers of the pixels that have a value. Pixels past the frame are left out. -/
def places (count : Nat) (pixels : List UInt8) (plane : UInt8) : List Nat :=
  ((pixels.take count).zipIdx.filter fun p => p.1 == plane).map fun p => p.2

/-- The points of the pixels that have a value, if nothing leaves its range on the way. -/
def bitplane? (r : Resolution) (pixels : List UInt8) (plane : UInt8) : Option (List Point) := do
  let count ← r.pixelCount?
  (places count pixels plane).mapM r.point?

end Resolution

/-! ### Writing coordinates -/

/-- From here on coordinates are written with a power of ten. -/
def plainLimit : Nat := Nat.pow 10 16

/-- A decimal with a point behind its first digit and a power of ten. -/
def powerText (d : Number.Decimal) : String :=
  match (toString d.digits).toList with
  | [] => ""
  | first :: rest =>
    let places := if rest.isEmpty then [] else '.' :: rest
    String.ofList (first :: places) ++ "e" ++ toString (d.exponent + rest.length)

/-- A coordinate without its sign, in the fewest digits that tell it from others of double precision.
Below the limit it has one decimal place. -/
def magnitudeText (n : Nat) : String :=
  let rounded := Number.round n
  let d := Number.shortest rounded
  if rounded < plainLimit then toString d.value ++ ".0" else powerText d

/-- A coordinate that counts to the right. -/
def rightText (x : Int) : String := (if x < 0 then "-" else "") ++ magnitudeText x.natAbs

/-- A coordinate that counts downwards from zero. It has a minus sign even when it is zero. -/
def downText (y : Int) : String := "-" ++ magnitudeText y.natAbs

def Point.text (p : Point) : String := rightText p.x ++ "," ++ downText p.y

end Chip8.Terminal
