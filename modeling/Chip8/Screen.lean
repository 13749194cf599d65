/-!
The monochrome screen, 64 pixels wide and 32 high. A sprite is a list of rows of eight pixels; it is
drawn by flipping the pixels that its set bits cover, wrapping at the edges.
-/

namespace Chip8

namespace Screen

def width : Nat := 64

def height : Nat := 32

end Screen

/-- A pixel's column and row. -/
abbrev Spot := Fin Screen.width × Fin Screen.height

/-- The pixels row by row; a lit one is `true`. -/
structure Screen where
  pixels : Vector Bool (Screen.width * Screen.height)
  deriving DecidableEq, Repr

namespace Screen

def blank : Screen := ⟨Vector.replicate _ false⟩

/-- The place of a pixel in the row by row order. -/
def index (s : Spot) : Fin (width * height) :=
  ⟨s.2.val * width + s.1.val, by
    have hx := s.1.isLt
    have hy := s.2.isLt
    simp only [width, height] at hx hy ⊢
    omega⟩

def lit (screen : Screen) (s : Spot) : Bool := screen.pixels[(index s).val]

/-- Lights a dark pixel and darkens a lit one. -/
def flip (screen : Screen) (s : Spot) : Screen :=
  ⟨screen.pixels.set (index s).val (!screen.lit s) (index s).isLt⟩

theorem index_injective {s t : Spot} (h : index s = index t) : s = t := by
  have hs : s.1.val < 64 := s.1.isLt
  have ht : t.1.val < 64 := t.1.isLt
  have h : s.2.val * 64 + s.1.val = t.2.val * 64 + t.1.val := congrArg Fin.val h
  exact Prod.ext (Fin.ext (by omega)) (Fin.ext (by omega))

theorem lit_blank (s : Spot) : blank.lit s = false := by simp [lit, blank]

theorem lit_flip (screen : Screen) (s t : Spot) :
    (screen.flip s).lit t = if s = t then !screen.lit t else screen.lit t := by
  simp only [flip, lit, Vector.getElem_set]
  by_cases h : s = t
  · subst h; simp
  · have : (index s).val ≠ (index t).val := fun e => h (index_injective (Fin.ext e))
    simp [h, this]

/-- The pixel at a column and a row, if it is on the screen. -/
def spot? (x y : Nat) : Option Spot :=
  if h : x < width ∧ y < height then some (⟨x, h.1⟩, ⟨y, h.2⟩) else none

/-- The pixel at a column and a row that wrap at the edges. -/
def wrapped (x y : Nat) : Spot :=
  (⟨x % width, Nat.mod_lt _ (by decide)⟩, ⟨y % height, Nat.mod_lt _ (by decide)⟩)

/-- The set bits of a row, by distance from its left end. -/
def setBits (row : UInt8) : List Nat :=
  (List.range 8).filter fun dx => row.toNat.testBit (7 - dx)

/-- The pixels that the rows of a sprite cover, in drawing order; the first row is at `y`. -/
def covered (x : Nat) : (y : Nat) → (rows : List UInt8) → List Spot
  | _, [] => []
  | y, row :: rows =>
    (setBits row).map (fun dx => wrapped (x + dx) y) ++ covered x (y + 1) rows

/-- Flips pixels one after another; tells whether a lit one was darkened. -/
def flipAll : Screen → List Spot → Bool × Screen
  | screen, [] => (false, screen)
  | screen, s :: rest =>
    let was := screen.lit s
    let after := flipAll (screen.flip s) rest
    (was || after.1, after.2)

/-- Draws a sprite; tells whether it darkened a lit pixel. -/
def draw (screen : Screen) (x y : UInt8) (rows : List UInt8) : Bool × Screen :=
  screen.flipAll (covered x.toNat y.toNat rows)

/-- The pixels as bytes, row by row: 1 for a lit one and 0 for a dark one. -/
def bytes (screen : Screen) : List UInt8 :=
  screen.pixels.toList.map fun on => if on then 1 else 0

/-- The pixels of a row, from the left. -/
def row (screen : Screen) (y : Fin height) : List Bool :=
  (List.finRange width).map fun x => screen.lit (x, y)

end Screen
end Chip8
