import Chip8.Noted

/-!
Single pixels by their coordinates. A coordinate off the screen is skipped, which is noted.
-/

namespace Chip8.Screen

/-- Flips a pixel; tells whether it was lit, if it is on the screen. -/
def flipAt (screen : Screen) (x y : Nat) : Noted (Option Bool × Screen) :=
  match spot? x y with
  | some s => pure (some (screen.lit s), screen.flip s)
  | none => do
    Noted.note (.pixelSkipped x y)
    return (none, screen)

def litAt? (screen : Screen) (x y : Nat) : Option Bool := (spot? x y).map screen.lit

end Chip8.Screen
