import Chip8.Fault
import Chip8.Screen
import Chip8.Terminal.Bitplane

/-!
A frame as a terminal shows it: a box with a title around the pixels, one character cell for each. A
lit pixel is green and a dark one black; a pixel of another value is not painted, and where the frame
is a single row or column none is.
-/

namespace Chip8.Terminal

/-- Pixels row by row, one byte each. -/
structure Frame where
  size : Resolution
  pixels : List UInt8
  wide : size.width ≠ 0
  high : size.height ≠ 0
  complete : size.pixelCount? = some pixels.length

/-- The colours of cells; `plain` is the terminal's own. -/
inductive Color
  | plain | black | green
  deriving DecidableEq, Repr

structure Cell where
  symbol : Char
  foreground : Color
  background : Color
  deriving DecidableEq, Repr

namespace Frame

/-- Pixels that fill a frame of a size. A frame without rows or columns has no bounds, so that showing one is
a crash, as it is when the number of its pixels leaves its range. -/
def of (size : Resolution) (pixels : List UInt8) : Except Fault Frame :=
  match counted : size.pixelCount? with
  | none => .error .crash
  | some count =>
    if complete : pixels.length = count then
      if wide : size.width = 0 then .error .crash
      else if high : size.height = 0 then .error .crash
      else .ok { size, pixels, wide, high, complete := counted.trans (congrArg some complete.symm) }
    else
      .error (.io (.device .invalidInput ("frame is " ++ toString pixels.length ++ " bytes, expected " ++
        toString size.width ++ "x" ++ toString size.height)))

def ofScreen (s : Screen) : Frame where
  size := ⟨.ofNat Screen.width, .ofNat Screen.height⟩
  pixels := s.bytes
  wide := by decide
  high := by decide
  complete := by
    have length : s.bytes.length = Screen.width * Screen.height := by simp [Screen.bytes]
    rw [length]
    rfl

def width (f : Frame) : Nat := f.size.width.toNat

def height (f : Frame) : Nat := f.size.height.toNat

def title : List Char := "CHIP-8".toList

/-- A cell of the box. -/
def boxCell (symbol : Char) : Cell := ⟨symbol, .plain, .black⟩

/-- A cell of a horizontal side of the box between its corners. -/
def sideCell (left right : Char) (middle : Nat → Char) (width column : Nat) : Cell :=
  boxCell (if column = 0 then left else if column = width + 1 then right else middle (column - 1))

/-- The cell of a pixel with a value. -/
def pixelCell (f : Frame) (value : UInt8) : Cell :=
  if f.width ≤ 1 ∨ f.height ≤ 1 then boxCell ' '
  else if value = 0 then ⟨'▄', .black, .plain⟩
  else if value = 1 then ⟨'▄', .green, .plain⟩
  else boxCell ' '

def cell (f : Frame) (row column : Nat) : Cell :=
  if row = 0 then sideCell '┌' '┐' (fun k => title.getD k '─') f.width column
  else if row = f.height + 1 then sideCell '└' '┘' (fun _ => '─') f.width column
  else if column = 0 ∨ column = f.width + 1 then boxCell '│'
  else f.pixelCell (f.pixels.getD ((row - 1) * f.width + (column - 1)) 0)

def rows (f : Frame) : List (List Cell) :=
  (List.range (f.height + 2)).map fun row => (List.range (f.width + 2)).map (f.cell row)

end Frame
end Chip8.Terminal
