import Mathlib.Algebra.BigOperators.Fin
import Mathlib.Data.Nat.Count
import Chip8.Proofs.Screen

/-!
What a sprite does to each pixel, for any place and any number of rows. The set bits that come to lie on a pixel, around
the edges if need be, are counted: an odd number of them turns its light over. Only a sprite with more rows than the
screen comes to lie on a pixel more than once.
-/

namespace Chip8.Screen

variable {screen : Screen}

/-! ### Coverings -/

/-- The set bits of a sprite that come to lie on a pixel, by row and distance from the left end. -/
def coverings (x y : Nat) (rows : List UInt8) (s : Spot) : Finset (Fin rows.length × Fin 8) :=
  Finset.univ.filter fun bit =>
    (rows.get bit.1).toNat.testBit (7 - bit.2.val) ∧ (x + bit.2.val) % 64 = s.1.val ∧ (y + bit.1.val) % 32 = s.2.val

/-- The number of set bits of one row that come to lie on a pixel. -/
def rowCount (x y : Nat) (row : UInt8) (s : Spot) : Nat :=
  ∑ dx : Fin 8, if row.toNat.testBit (7 - dx.val) ∧ (x + dx.val) % 64 = s.1.val ∧ y % 32 = s.2.val then 1 else 0

theorem card_coverings (x y : Nat) (rows : List UInt8) (s : Spot) :
    (coverings x y rows s).card = ∑ dy : Fin rows.length, rowCount x (y + dy.val) (rows.get dy) s := by
  rw [coverings, Finset.card_filter, Fintype.sum_prod_type]
  rfl

theorem wrapped_eq_iff {x y : Nat} {s : Spot} : wrapped x y = s ↔ x % 64 = s.1.val ∧ y % 32 = s.2.val := by
  rw [Prod.ext_iff, Fin.ext_iff, Fin.ext_iff]
  rfl

theorem count_row (x y : Nat) (row : UInt8) (s : Spot) :
    ((setBits row).map fun dx => wrapped (x + dx) y).count s = rowCount x y row s := by
  rw [rowCount, Fin.sum_univ_eq_sum_range
      (fun dx => if row.toNat.testBit (7 - dx) ∧ (x + dx) % 64 = s.1.val ∧ y % 32 = s.2.val then 1 else 0),
    ← Finset.card_filter, ← Nat.count_eq_card_filter_range, Nat.count, List.count_eq_countP, List.countP_map, setBits,
    List.countP_filter]
  refine List.countP_congr fun dx _ => ?_
  simp only [Function.comp_apply, Bool.and_eq_true, beq_iff_eq, decide_eq_true_eq, wrapped_eq_iff]
  exact and_comm

/-- In drawing order, each pixel occurs once for each bit that comes to lie on it. -/
theorem count_covered (x y : Nat) (rows : List UInt8) (s : Spot) :
    (covered x y rows).count s = (coverings x y rows s).card := by
  rw [card_coverings]
  induction rows generalizing y with
  | nil => rfl
  | cons row rows ih =>
    calc (covered x y (row :: rows)).count s
        = rowCount x y row s + ∑ dy : Fin rows.length, rowCount x (y + 1 + dy.val) (rows.get dy) s := by
          rw [covered, List.count_append, count_row, ih]
      _ = ∑ dy : Fin (rows.length + 1), rowCount x (y + dy.val) ((row :: rows).get dy) s := by
          rw [Fin.sum_univ_succ]
          refine congrArg (rowCount x y row s + ·) (Finset.sum_congr rfl fun dy _ => ?_)
          rw [Fin.val_succ, Nat.add_assoc, Nat.add_comm 1]
          rfl

theorem coverings_nonempty_iff {x y : Nat} {rows : List UInt8} {s : Spot} :
    (coverings x y rows s).Nonempty ↔ s ∈ covered x y rows := by
  rw [← Finset.card_pos, ← count_covered, List.count_pos_iff]

/-- No more rows than the screen has come to lie on a pixel only once. -/
theorem card_coverings_le_one {rows : List UInt8} (fits : rows.length ≤ 32) (x y : Nat) (s : Spot) :
    (coverings x y rows s).card ≤ 1 := by
  rw [← count_covered]
  exact List.nodup_iff_count_le_one.mp (covered_nodup fits x y) s

/-! ### Bytes -/

theorem getElem?_bytes (screen : Screen) (s : Spot) :
    screen.bytes[(index s).val]? = some (if screen.lit s then 1 else 0) := by
  rw [bytes, List.getElem?_map, Vector.getElem?_toList, Vector.getElem?_eq_getElem (index s).isLt]
  rfl

theorem eq_zero_or_one_of_mem_bytes {b : UInt8} (h : b ∈ screen.bytes) : b = 0 ∨ b = 1 := by
  obtain ⟨on, -, rfl⟩ := List.mem_map.mp h
  cases on with
  | false => exact Or.inl rfl
  | true => exact Or.inr rfl

/-! ### Drawing -/

/-- Drawing turns a pixel over once for each set bit of the sprite that comes to lie on it, whatever the place and
however many rows there are, and its byte stays a 0 or a 1. It darkens a lit pixel if a bit comes to lie on one that was
lit, or more than one bit on the same; with no more rows than the screen has there is only the former. -/
theorem draw_flips_per_covering (screen : Screen) (x y : UInt8) (rows : List UInt8) :
    let drawn := screen.draw x y rows
    let covering := coverings x.toNat y.toNat rows
    (∀ s, drawn.2.lit s = (screen.lit s ^^ decide ((covering s).card % 2 = 1))) ∧
    (∀ s, drawn.2.bytes[(index s).val]? =
      screen.bytes[(index s).val]?.map (· ^^^ UInt8.ofNat ((covering s).card % 2))) ∧
    (∀ b ∈ drawn.2.bytes, b = 0 ∨ b = 1) ∧
    (drawn.1 = true ↔ ∃ s, (covering s).Nonempty ∧ screen.lit s = true ∨ 2 ≤ (covering s).card) ∧
    (rows.length ≤ 32 → (drawn.1 = true ↔ ∃ s, (covering s).Nonempty ∧ screen.lit s = true)) := by
  intro drawn covering
  have light : ∀ s, drawn.2.lit s = (screen.lit s ^^ decide ((covering s).card % 2 = 1)) := by
    intro s
    rw [← count_covered]
    exact lit_flipAll_count ..
  have darkened : drawn.1 = true ↔ ∃ s, (covering s).Nonempty ∧ screen.lit s = true ∨ 2 ≤ (covering s).card := by
    refine (darkened_flipAll_iff _).trans (exists_congr fun s => ?_)
    rw [← coverings_nonempty_iff, count_covered, and_or_left]
    refine or_congr_right (and_iff_right_of_imp fun twice => ?_)
    exact Finset.card_pos.mp (Nat.lt_of_lt_of_le Nat.zero_lt_two twice)
  refine ⟨light, fun s => ?_, fun b => eq_zero_or_one_of_mem_bytes, darkened, fun fits => ?_⟩
  · rw [getElem?_bytes, getElem?_bytes, light, Option.map_some]
    rcases Nat.mod_two_eq_zero_or_one (covering s).card with even | odd
    · cases screen.lit s <;> simp [even]
    · cases screen.lit s <;> simp [odd]
  · refine darkened.trans (exists_congr fun s => or_iff_left ?_)
    exact Nat.not_le_of_lt (Nat.lt_succ_of_le (card_coverings_le_one fits ..))

/-- A sprite of 33 rows at the right edge folds onto the pixel that it begins with, and one of two rows in the corner
darkens a pixel in the opposite corner. -/
theorem tall_and_corner_sprites :
    let tall := List.replicate 33 0x80
    let edge := blank.draw 255 31 tall
    (edge.2.lit (wrapped 63 31) = false ∧ edge.2.lit (wrapped 63 0) = true ∧ edge.1 = true) ∧
    let pair : List UInt8 := [0xc0, 0xc0]
    let corner := (blank.flip (wrapped 0 0)).draw 63 31 pair
    pair.length ≤ 32 ∧ corner.2.lit (wrapped 0 0) = false ∧ corner.2.lit (wrapped 63 0) = true ∧ corner.1 = true := by
  intro tall edge
  constructor
  · obtain ⟨light, -, -, darkened, -⟩ := draw_flips_per_covering blank 255 31 tall
    have twice : (coverings (255 : UInt8).toNat (31 : UInt8).toNat tall (wrapped 63 31)).card = 2 := by decide +kernel
    have once : (coverings (255 : UInt8).toNat (31 : UInt8).toNat tall (wrapped 63 0)).card = 1 := by decide +kernel
    refine ⟨?_, ?_, darkened.mpr ⟨wrapped 63 31, Or.inr (Nat.le_of_eq twice.symm)⟩⟩
    · rw [light, twice, lit_blank]
      rfl
    · rw [light, once, lit_blank]
      rfl
  · intro pair corner
    have fits : pair.length ≤ 32 := by decide
    obtain ⟨light, -, -, -, darkened⟩ := draw_flips_per_covering (blank.flip (wrapped 0 0)) 63 31 pair
    have once : ∀ y < 2, (coverings (63 : UInt8).toNat (31 : UInt8).toNat pair (wrapped (63 * y) 0)).card = 1 := by
      decide +kernel
    have lit : (blank.flip (wrapped 0 0)).lit (wrapped 0 0) = true := by rw [lit_flip, if_pos rfl, lit_blank]; rfl
    have dark : (blank.flip (wrapped 0 0)).lit (wrapped 63 0) = false := by
      rw [lit_flip, if_neg (by decide), lit_blank]
    refine ⟨fits, ?_, ?_, (darkened fits).mpr ⟨wrapped 0 0, Finset.card_pos.mp ?_, lit⟩⟩
    · rw [light, lit, once 0 (by decide)]
      rfl
    · rw [light, dark, once 1 (by decide)]
      rfl
    · rw [once 0 (by decide)]
      exact Nat.one_pos

end Chip8.Screen
