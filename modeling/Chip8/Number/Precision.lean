/-!
Whole numbers of double precision. Such a number keeps fifty-three significant bits; a whole number
that needs more is rounded to the nearest one that does not. Below `2 ^ 53` nothing is rounded.
-/

namespace Chip8.Number

/-- The multiple of `unit` that is nearest to `n`; halfway between two it is the even multiple. -/
def nearestMultiple (unit n : Nat) : Nat :=
  let below := n / unit
  let rest := n % unit
  if 2 * rest < unit ∨ (2 * rest = unit ∧ below % 2 = 0) then below * unit else (below + 1) * unit

/-- The number of significant bits. -/
def precision : Nat := 53

/-- The distance between the numbers of double precision around `n`. -/
def spacing (n : Nat) : Nat := Nat.pow 2 (n.log2 + 1 - precision)

/-- The number of double precision that is nearest to `n`. -/
def round (n : Nat) : Nat := nearestMultiple (spacing n) n

end Chip8.Number
