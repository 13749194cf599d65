import Chip8.Screen
import Mathlib.Data.List.Nodup

/-!
What drawing makes of a screen. Every pixel is flipped as often as the sprite covers it. A sprite of no more rows than
the screen has covers no pixel twice, so that drawing it at the same place again takes it back.
-/

namespace Chip8.Screen

variable {screen other : Screen}

/-- Screens with the same lit pixels are the same. -/
theorem eq_of_lit (h : ∀ s, screen.lit s = other.lit s) : screen = other := by
  suffices pixels : screen.pixels = other.pixels by
    cases screen
    cases other
    exact congrArg Screen.mk pixels
  refine Vector.ext fun k hk => ?_
  simp only [width, height] at hk
  have place : (index (wrapped (k % 64) (k / 64))).val = k := by
    simp only [index, wrapped, width, height]
    omega
  have same := h (wrapped (k % 64) (k / 64))
  simp only [lit, place] at same
  exact same

/-! ### The pixels of a sprite -/

theorem setBits_eq_nil_iff {row : UInt8} : setBits row = [] ↔ row = 0 := by
  constructor
  · intro none
    refine UInt8.toNat_inj.mp (Nat.eq_of_testBit_eq fun k => ?_)
    rw [UInt8.toNat_zero, Nat.zero_testBit]
    by_cases inside : k < 8
    · have unset := List.filter_eq_nil_iff.mp none (7 - k) (List.mem_range.mpr (by omega))
      rw [show 7 - (7 - k) = k by omega] at unset
      exact Bool.eq_false_iff.mpr unset
    · have small := row.toNat_lt
      have large := Nat.pow_le_pow_right (n := 2) (by decide) (Nat.le_of_not_lt inside)
      exact Nat.testBit_lt_two_pow (Nat.lt_of_lt_of_le small large)
  · rintro rfl
    rfl

theorem row_of_mem_covered {s : Spot} {x y : Nat} {rows : List UInt8} (h : s ∈ covered x y rows) :
    ∃ k < rows.length, s.2.val = (y + k) % height := by
  induction rows generalizing y with
  | nil => cases h
  | cons row rows ih =>
    obtain first | later := List.mem_append.mp h
    · obtain ⟨dx, -, rfl⟩ := List.mem_map.mp first
      exact ⟨0, Nat.zero_lt_succ _, rfl⟩
    · obtain ⟨k, hk, same⟩ := ih later
      exact ⟨k + 1, Nat.succ_lt_succ hk, by rw [same, Nat.add_assoc, Nat.add_comm 1]⟩

theorem covered_nodup {rows : List UInt8} (fits : rows.length ≤ height) (x y : Nat) : (covered x y rows).Nodup := by
  induction rows generalizing y with
  | nil => exact List.nodup_nil
  | cons row rows ih =>
    simp only [List.length_cons, height] at fits
    refine List.nodup_append'.mpr ⟨?_, ih (Nat.le_of_succ_le fits) _, ?_⟩
    · refine List.Nodup.map_on ?_ (List.Nodup.filter _ List.nodup_range)
      intro dx hdx dx' hdx' same
      have inside := List.mem_range.mp (List.mem_filter.mp hdx).1
      have inside' := List.mem_range.mp (List.mem_filter.mp hdx').1
      have columns : (x + dx) % 64 = (x + dx') % 64 := congrArg (fun s : Spot => s.1.val) same
      omega
    · intro s first later
      obtain ⟨dx, -, rfl⟩ := List.mem_map.mp first
      obtain ⟨k, hk, same⟩ := row_of_mem_covered later
      have rowsApart : y % 32 = (y + 1 + k) % 32 := same
      omega

/-- A sprite covers a pixel unless all its rows are empty. -/
theorem covered_eq_nil_iff {x y : Nat} {rows : List UInt8} : covered x y rows = [] ↔ ∀ row ∈ rows, row = 0 := by
  induction rows generalizing y with
  | nil => simp [covered]
  | cons row rows ih => simp [covered, ih, setBits_eq_nil_iff]

/-! ### Drawing -/

/-- A pixel that is flipped an odd number of times has its light turned over, and any other has the light it had. -/
theorem lit_flipAll_count (spots : List Spot) (t : Spot) :
    (screen.flipAll spots).2.lit t = (screen.lit t ^^ decide (spots.count t % 2 = 1)) := by
  induction spots generalizing screen with
  | nil => simp [flipAll]
  | cons s rest ih =>
    have step : (screen.flipAll (s :: rest)).2.lit t =
        ((screen.flip s).lit t ^^ decide (rest.count t % 2 = 1)) := ih
    rw [step, lit_flip]
    by_cases same : s = t
    · subst same
      rw [if_pos rfl, List.count_cons_self]
      rcases Nat.mod_two_eq_zero_or_one (rest.count s) with even | odd
      · simp [even, Nat.add_mod]
      · simp [odd, Nat.add_mod]
    · rw [if_neg same, List.count_cons_of_ne same]

/-- A lit pixel is darkened if one that is flipped was lit, or if one is flipped twice, which is lit then by the first
time if not before. -/
theorem darkened_flipAll_iff (spots : List Spot) :
    (screen.flipAll spots).1 = true ↔ ∃ s ∈ spots, screen.lit s = true ∨ 2 ≤ spots.count s := by
  induction spots generalizing screen with
  | nil => simp [flipAll]
  | cons s rest ih =>
    change (screen.lit s || ((screen.flip s).flipAll rest).1) = true ↔ _
    rw [Bool.or_eq_true, ih]
    constructor
    · rintro (lit | ⟨t, ht, cause⟩)
      · exact ⟨s, List.mem_cons_self, Or.inl lit⟩
      · by_cases same : s = t
        · subst same
          have again := List.count_pos_iff.mpr ht
          exact ⟨s, List.mem_cons_self, Or.inr (by rw [List.count_cons_self]; omega)⟩
        · rw [lit_flip, if_neg same] at cause
          exact ⟨t, List.mem_cons_of_mem s ht, by rwa [List.count_cons_of_ne same]⟩
    · rintro ⟨t, ht, cause⟩
      by_cases same : s = t
      · subst same
        rcases dark : screen.lit s with _ | _
        · -- It is dark now, so it is lit by this flip, and darkened when it is flipped again.
          rw [dark, List.count_cons_self] at cause
          have again : s ∈ rest := List.count_pos_iff.mp (by simpa using cause)
          exact Or.inr ⟨s, again, Or.inl (by rw [lit_flip, if_pos rfl, dark]; rfl)⟩
        · exact Or.inl rfl
      · have behind : t ∈ rest := (List.mem_cons.mp ht).resolve_left (Ne.symm same)
        rw [List.count_cons_of_ne same] at cause
        exact Or.inr ⟨t, behind, by rwa [lit_flip, if_neg same]⟩

/-- Flipping each of some pixels once turns their light over, and leaves that of the others. -/
theorem lit_flipAll {spots : List Spot} (once : spots.Nodup) (t : Spot) :
    (screen.flipAll spots).2.lit t = (screen.lit t ^^ spots.contains t) := by
  rw [lit_flipAll_count, once.count]
  by_cases member : t ∈ spots
  · simp [member]
  · simp [member]

/-- Flipping each of some pixels once darkens a lit one if there is a lit one among them. -/
theorem darkened_flipAll {spots : List Spot} (once : spots.Nodup) :
    (screen.flipAll spots).1 = true ↔ ∃ s ∈ spots, screen.lit s = true := by
  rw [darkened_flipAll_iff]
  refine exists_congr fun s => and_congr_right fun _ => or_iff_left ?_
  exact Nat.not_le_of_lt (Nat.lt_succ_of_le (List.nodup_iff_count_le_one.mp once s))

section
variable {rows : List UInt8} (fits : rows.length ≤ height) (x y : UInt8)
include fits

/-- Drawing the same sprite at the same place again takes it back. -/
theorem draw_draw : ((screen.draw x y rows).2.draw x y rows).2 = screen := by
  have once := covered_nodup fits x.toNat y.toNat
  refine eq_of_lit fun t => ?_
  rw [draw, draw, lit_flipAll once, lit_flipAll once]
  simp

/-- It darkens a pixel then if the first time has lit one. -/
theorem darkened_draw_draw :
    ((screen.draw x y rows).2.draw x y rows).1 = true ↔
      ∃ s ∈ covered x.toNat y.toNat rows, screen.lit s = false := by
  have once := covered_nodup fits x.toNat y.toNat
  rw [draw, darkened_flipAll once]
  refine exists_congr fun s => and_congr_right fun hs => ?_
  rw [draw, lit_flipAll once, List.contains_iff_mem.mpr hs]
  simp

/-- Drawing changes the screen unless all rows of the sprite are empty. -/
theorem draw_eq_self_iff : (screen.draw x y rows).2 = screen ↔ ∀ row ∈ rows, row = 0 := by
  have once := covered_nodup fits x.toNat y.toNat
  rw [← covered_eq_nil_iff (x := x.toNat) (y := y.toNat)]
  constructor
  · intro same
    refine List.eq_nil_iff_forall_not_mem.mpr fun s hs => ?_
    have light : (screen.flipAll _).2.lit s = _ := lit_flipAll once s
    rw [show (screen.flipAll _).2 = screen from same] at light
    simp [hs] at light
  · intro nothing
    rw [draw, nothing]
    rfl

end
end Chip8.Screen
