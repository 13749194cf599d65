import Chip8.Proofs.Screen.Sprite

/-!
Many sprites drawn one after the other. Each pixel is turned over once for each set bit of any of them that comes to lie
on it, so that their order makes no difference, and neither do sprites that are drawn an even number of times.
-/

namespace Chip8

/-- A sprite and the place where it is drawn. -/
structure Drawing where
  x : UInt8
  y : UInt8
  rows : List UInt8
  deriving DecidableEq, Repr

namespace Drawing

/-- The pixels that the sprite covers, in drawing order. -/
def spots (d : Drawing) : List Spot := Screen.covered d.x.toNat d.y.toNat d.rows

/-- How many set bits come to lie on a pixel. -/
def flips (d : Drawing) (s : Spot) : Nat := (Screen.coverings d.x.toNat d.y.toNat d.rows s).card

theorem count_spots (d : Drawing) (s : Spot) : d.spots.count s = d.flips s := Screen.count_covered ..

/-- The copies of one drawing, counted apart from all others. -/
theorem sum_flips_filter (ds : List Drawing) (d : Drawing) (s : Spot) :
    (ds.map (·.flips s)).sum = ((ds.filter (· ≠ d)).map (·.flips s)).sum + ds.count d * d.flips s := by
  induction ds with
  | nil => simp
  | cons e rest ih =>
    by_cases same : e = d
    · subst same
      rw [List.filter_cons_of_neg (by simp), List.count_cons_self, List.map_cons, List.sum_cons, ih, Nat.succ_mul]
      omega
    · rw [List.filter_cons_of_pos (by simpa using same), List.count_cons_of_ne same, List.map_cons, List.sum_cons,
        List.map_cons, List.sum_cons, ih, Nat.add_assoc]

end Drawing

namespace Screen

/-- Draws sprites one after the other. -/
def drawAll (screen : Screen) (ds : List Drawing) : Screen :=
  ds.foldl (fun screen d => (screen.draw d.x d.y d.rows).2) screen

variable {screen : Screen}

theorem flipAll_append (spots more : List Spot) :
    (screen.flipAll (spots ++ more)).2 = ((screen.flipAll spots).2.flipAll more).2 := by
  induction spots generalizing screen with
  | nil => rfl
  | cons s rest ih => exact ih

theorem drawAll_eq_flipAll (ds : List Drawing) : screen.drawAll ds = (screen.flipAll (ds.flatMap Drawing.spots)).2 := by
  induction ds generalizing screen with
  | nil => rfl
  | cons d rest ih =>
    rw [List.flatMap_cons, flipAll_append, ← ih]
    rfl

/-- A pixel is turned over once for each bit of any sprite that comes to lie on it. -/
theorem lit_drawAll (ds : List Drawing) (s : Spot) :
    (screen.drawAll ds).lit s = (screen.lit s ^^ decide ((ds.map (·.flips s)).sum % 2 = 1)) := by
  have total : (ds.flatMap Drawing.spots).count s = (ds.map (·.flips s)).sum := by
    rw [List.count_flatMap]
    exact congrArg List.sum (List.map_congr_left fun d _ => d.count_spots s)
  rw [drawAll_eq_flipAll, lit_flipAll_count, total]

theorem drawAll_of_perm {ds es : List Drawing} (same : ds.Perm es) : screen.drawAll ds = screen.drawAll es := by
  refine eq_of_lit fun s => ?_
  rw [lit_drawAll, lit_drawAll, (same.map _).sum_eq]

/-- Drawings that occur an even number of times can be left out. -/
theorem drawAll_filter {ds : List Drawing} {d : Drawing} (even : ds.count d % 2 = 0) :
    screen.drawAll (ds.filter (· ≠ d)) = screen.drawAll ds := by
  refine eq_of_lit fun s => ?_
  have twice : ds.count d * d.flips s % 2 = 0 := by rw [Nat.mul_mod, even, Nat.zero_mul, Nat.zero_mod]
  have parity : (ds.map (·.flips s)).sum % 2 = ((ds.filter (· ≠ d)).map (·.flips s)).sum % 2 := by
    rw [Drawing.sum_flips_filter ds d, Nat.add_mod, twice, Nat.add_zero, Nat.mod_mod]
  rw [lit_drawAll, lit_drawAll, parity]

/-- What drawings do to a screen is said by what they do to an empty one. -/
theorem lit_drawAll_blank (ds : List Drawing) (s : Spot) :
    (screen.drawAll ds).lit s = (screen.lit s ^^ (blank.drawAll ds).lit s) := by
  rw [lit_drawAll, lit_drawAll, lit_blank, Bool.false_xor]

end Screen
end Chip8
