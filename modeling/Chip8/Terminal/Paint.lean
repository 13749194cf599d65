import Chip8.Terminal.Frame

/-!
A frame as the characters that make a terminal show it, in its upper left corner.
-/

namespace Chip8.Terminal

/-- The control that selects the two colours of a cell. -/
def Cell.colors (c : Cell) : String :=
  "\x1b[" ++ foregroundCode c.foreground ++ ";" ++ backgroundCode c.background ++ "m"
where
  foregroundCode : Color → String
    | .plain => "39"
    | .black => "30"
    | .green => "32"
  backgroundCode : Color → String
    | .plain => "49"
    | .black => "40"
    | .green => "42"

def clearScreen : String := "\x1b[2J"

/-- The control that goes to the start of a row; the first row is 0. -/
def goToRow (row : Nat) : String := "\x1b[" ++ toString (row + 1) ++ ";1H"

def plainColors : String := "\x1b[0m"

/-- The characters that paint a frame. -/
def Frame.paint (f : Frame) : String :=
  String.join (f.rows.zipIdx.map fun row =>
    goToRow row.2 ++ String.join (row.1.map fun c => c.colors ++ c.symbol.toString)) ++ plainColors

end Chip8.Terminal
