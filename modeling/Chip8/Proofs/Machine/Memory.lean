import Chip8.Proofs.Machine.Chunks

/-!
Which bytes of memory guest stores and texts change. A text changes the bytes that it covers, and a guest store spares
the font, so that a font that is shown in its place stays there.
-/

namespace Chip8.Ram

/-! ### Guest stores -/

/-- The font of `ram` has the same place and the same bytes in `after`. -/
structure Spares (ram after : Ram) : Prop where
  font : after.font = ram.font
  read : ∀ k < ramSize, ram.isProtected k = true → after.read k = ram.read k

namespace Spares
variable {r s t : Ram}

theorem refl (ram : Ram) : Spares ram ram := ⟨rfl, fun _ _ _ => rfl⟩

theorem trans (h₁ : Spares r s) (h₂ : Spares s t) : Spares r t where
  font := h₂.font.trans h₁.font
  read := fun k hk own => by
    have still : s.isProtected k = true := by
      rw [isProtected, h₁.font]
      exact own
    rw [h₂.read k hk still, h₁.read k hk own]

end Spares

theorem spares_store (ram : Ram) (addr : Nat) (value : UInt8) :
    Spares ram ((ram.store addr value).value.getD ram) := by
  refine ⟨font_getD_store .., fun k hk own => ?_⟩
  simp only [store, Noted.value_bind, Noted.value_pure]
  split
  · rfl
  · next open_ =>
    have apart : wrap addr ≠ wrap k := fun same => by
      rw [wrap_of_lt hk] at same
      exact open_ (same ▸ own)
    rw [Option.getD_some, read_put, if_neg apart]

theorem spares_of_store {ram stored : Ram} {addr : Nat} {value : UInt8}
    (h : (ram.store addr value).value = some stored) : Spares ram stored := by
  have spared := spares_store ram addr value
  rw [h] at spared
  exact spared

theorem spares_storeAll (ram : Ram) (addr : Nat) (bytes : List UInt8) :
    Spares ram (ram.storeAll addr bytes).value := by
  induction bytes generalizing ram addr with
  | nil => exact .refl ram
  | cons b rest ih => exact (spares_store ram addr b).trans (ih _ _)

theorem spares_storeText (ram : Ram) (addr : Nat) (text : List Char) :
    Spares ram (ram.storeText addr text).value.2 := by
  induction text generalizing ram addr with
  | nil => exact spares_store ..
  | cons c rest ih =>
    rw [storeText, Noted.value_bind]
    split
    · next stored h => exact (spares_of_store h).trans (ih _ _)
    · exact spares_store ..

theorem spares_writeAscii (ram : Ram) (addr : Nat) (text : String) (capacity : Nat) :
    Spares ram (ram.writeAscii addr text capacity).value.2 := by
  cases capacity with
  | zero => exact .refl ram
  | succ room => exact spares_storeText ..

/-! ### Text -/

theorem read_store (ram : Ram) {addr k : Nat} (value : UInt8) (apart : wrap addr ≠ wrap k) :
    ((ram.store addr value).value.getD ram).read k = ram.read k := by
  simp only [store, Noted.value_bind, Noted.value_pure]
  split
  · rfl
  · rw [Option.getD_some, read_put, if_neg apart]

theorem storeText_le (ram : Ram) (addr : Nat) (text : List Char) :
    (ram.storeText addr text).value.1 ≤ text.length := by
  induction text generalizing ram addr with
  | nil => exact Nat.le_refl 0
  | cons c rest ih =>
    rw [storeText, Noted.value_bind]
    split
    · exact Nat.succ_le_succ (ih _ _)
    · exact Nat.zero_le _

/-- A text takes a place for each character that is stored, and one more for its end. -/
theorem read_storeText (ram : Ram) {addr k : Nat} (text : List Char)
    (apart : ∀ j ≤ (ram.storeText addr text).value.1, wrap (addr + j) ≠ wrap k) :
    (ram.storeText addr text).value.2.read k = ram.read k := by
  induction text generalizing ram addr with
  | nil => exact ram.read_store 0 (apart 0 (Nat.zero_le _))
  | cons c rest ih =>
    have here : wrap addr ≠ wrap k := apart 0 (Nat.zero_le _)
    rw [storeText, Noted.value_bind] at apart ⊢
    split
    · next stored h =>
      rw [h] at apart
      have behind : ∀ j ≤ (stored.storeText (addr + 1) rest).value.1, wrap (addr + 1 + j) ≠ wrap k := by
        intro j hj
        rw [Nat.add_assoc, Nat.add_comm 1 j]
        exact apart (j + 1) (Nat.succ_le_succ hj)
      have same := ram.read_store (asciiByte c) here
      rw [h] at same
      exact (ih stored behind).trans same
    · exact ram.read_store 0 here

/-- A text that is written into a window inside memory changes no byte but those that it covers. -/
theorem covers_of_writeAscii {ram : Ram} {addr k capacity : Nat} {text : String}
    (inside : 0 < capacity → addr + capacity ≤ ramSize) (hk : k < ramSize)
    (changed : (ram.writeAscii addr text capacity).value.2.read k ≠ ram.read k) :
    addr ≤ k ∧ k ≤ addr + (ram.writeAscii addr text capacity).value.1 ∧ k < addr + capacity := by
  cases capacity with
  | zero => exact absurd rfl changed
  | succ room =>
    have short : (ram.writeAscii addr text (room + 1)).value.1 ≤ room :=
      Nat.le_trans (storeText_le ..) (List.length_take_le ..)
    have fits : addr + (room + 1) ≤ ramSize := inside (Nat.succ_pos room)
    have covered : addr ≤ k ∧ k ≤ addr + (ram.writeAscii addr text (room + 1)).value.1 := by
      refine Decidable.byContradiction fun outside => changed (read_storeText ram _ fun j hj => ?_)
      have stored : j ≤ (ram.writeAscii addr text (room + 1)).value.1 := hj
      rw [wrap_of_lt hk, wrap_of_lt (by omega)]
      omega
    omega

/-! ### The font -/

/-- The sprites stand where the font belongs. -/
def ShowsFont (ram : Ram) : Prop :=
  ∀ k < Font.size, Font.table[k]? = some (ram.read (ram.font.toNat + k))

section
variable {ram : Ram}

theorem ShowsFont.of_spares {after : Ram} (h : ram.ShowsFont) (spares : Spares ram after)
    (inside : ram.font.toNat + Font.size ≤ ramSize) : after.ShowsFont := by
  intro k hk
  have own : ram.isProtected (ram.font.toNat + k) = true := by simp [isProtected, hk]
  rw [spares.font, spares.read _ (by omega) own]
  exact h k hk

theorem showsFont_clear (inside : ram.font.toNat + Font.size ≤ ramSize) :
    ∃ cleared, ram.clear? = some cleared ∧ cleared.font = ram.font ∧ cleared.ShowsFont := by
  obtain ⟨cleared, clear, font⟩ := clear?_of_le ram (Nat.le_of_add_right_le inside)
  refine ⟨cleared, clear, font, fun k hk => ?_⟩
  rw [font]
  refine (takesIn_clear clear).stored k ?_
  rw [Font.length_table]
  omega

/-- Memory shows the font from the beginning. -/
theorem showsFont_blank {font : UInt16} (inside : font.toNat + Font.size ≤ ramSize) :
    ∃ ram, blank? font = some ram ∧ ram.font = font ∧ ram.ShowsFont :=
  showsFont_clear inside

theorem ShowsFont.load {boot : UInt16} {program : List UInt8} {loaded : Noted (Nat × Ram)} (h : ram.ShowsFont)
    (below : ram.font.toNat + Font.size ≤ boot.toNat) (inside : boot.toNat ≤ ramSize)
    (hl : ram.load? program boot = some loaded) :
    loaded.value.2.font = ram.font ∧ loaded.value.2.ShowsFont := by
  obtain ⟨-, taken⟩ := takesIn_load hl
  refine ⟨taken.font, fun k hk => ?_⟩
  rw [taken.font, taken.kept _ (by omega) (Or.inl (by omega))]
  exact h k hk

/-- Some bytes of the font, as they are read from memory. -/
theorem ShowsFont.slice? (h : ram.ShowsFont) (inside : ram.font.toNat + Font.size ≤ ramSize) {addr : UInt16}
    {start count : Nat} (place : addr.toNat = ram.font.toNat + start) (part : start + count ≤ Font.size) :
    ram.slice? addr count = some ((Font.table.drop start).take count) := by
  rw [Ram.slice?, if_pos (by omega)]
  refine congrArg some (List.ext_getElem? fun k => ?_)
  rw [List.getElem?_map, List.getElem?_take, List.getElem?_drop]
  by_cases hk : k < count
  · rw [if_pos hk, h (start + k) (by omega), List.getElem?_range hk, Option.map_some, place, Nat.add_assoc]
  · rw [if_neg hk, List.getElem?_eq_none (by simpa using hk), Option.map_none]

end

end Chip8.Ram
