/-!
Numbers below sixteen: registers, keys, places on the stack, hex digits, and the words of a block of the
random number generator.
-/

namespace Chip8

-- The zero is named, since more than one instance gives a zero of `Nat`.
instance neZero_sixteen : @NeZero Nat Zero.ofOfNat0 16 := ⟨by decide⟩

theorem mod_sixteen_lt (k : Nat) : k % 16 < 16 := Nat.mod_lt k (by decide)

end Chip8
