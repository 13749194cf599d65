import Chip8.Number.Precision

/-!
The shortest decimal of a number of double precision: of all decimals that are rounded to the number it
has the fewest digits, and of those it is the nearest one. It is looked for on the multiples of ever
smaller powers of ten, so that the first that is found is the shortest. The result of this module is that
nothing is lost in writing it (`round_value_shortest`): it reads as the number again.
-/

namespace Chip8.Number

/-- The decimal `digits * 10 ^ exponent`. -/
structure Decimal where
  digits : Nat
  exponent : Nat
  deriving DecidableEq, Repr

def Decimal.value (d : Decimal) : Nat := d.digits * Nat.pow 10 d.exponent

def Decimal.readsAs (d : Decimal) (n : Nat) : Bool := round d.value == n

/-- Of the two multiples of `10 ^ exponent` around `n`, the nearer one that is rounded to `n`. -/
def candidate? (n exponent : Nat) : Option Decimal :=
  let below : Decimal := ⟨n / Nat.pow 10 exponent, exponent⟩
  let above : Decimal := ⟨n / Nat.pow 10 exponent + 1, exponent⟩
  if below.readsAs n && (n - below.value ≤ above.value - n || !above.readsAs n) then some below
  else if above.readsAs n then some above
  else none

/-- The first candidate among the multiples of `10 ^ exponent` and of all smaller powers of ten. -/
def shortestFrom (n : Nat) : (exponent : Nat) → Decimal
  | 0 => ⟨n, 0⟩
  | exponent + 1 => (candidate? n (exponent + 1)).getD (shortestFrom n exponent)

/-- The shortest decimal of `n`. -/
def shortest (n : Nat) : Decimal := shortestFrom n (Nat.toDigits 10 n).length

theorem round_value_of_candidate?_eq_some {n exponent : Nat} {d : Decimal}
    (h : candidate? n exponent = some d) : round d.value = n := by
  simp only [candidate?] at h
  split at h
  · rename_i hbelow
    simp only [Bool.and_eq_true] at hbelow
    cases h
    exact beq_iff_eq.mp hbelow.1
  · split at h
    · rename_i habove
      cases h
      exact beq_iff_eq.mp habove
    · cases h

theorem round_value_shortestFrom {n : Nat} (hn : round n = n) (exponent : Nat) :
    round (shortestFrom n exponent).value = n := by
  induction exponent with
  | zero => simpa [shortestFrom, Decimal.value] using hn
  | succ exponent ih =>
    rw [shortestFrom]
    cases hc : candidate? n (exponent + 1) with
    | none => exact ih
    | some d => exact round_value_of_candidate?_eq_some hc

/-- The shortest decimal of a number reads as the number. -/
theorem round_value_shortest {n : Nat} (hn : round n = n) : round (shortest n).value = n :=
  round_value_shortestFrom hn _

end Chip8.Number
