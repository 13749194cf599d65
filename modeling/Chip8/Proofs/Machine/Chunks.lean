import Chip8.Proofs.Machine.Notes

/-!
Chunks that are written into memory. A chunk that starts inside memory, or right at its end, is taken in as far as there
is room for it, and what there is no room for is dropped. One that starts past the end is out of range, even if there is
nothing in it.
-/

namespace Chip8.Ram

theorem wrap_of_lt {addr : Nat} (h : addr < ramSize) : wrap addr = addr := Nat.mod_eq_of_lt h

/-- From an address on, the first bytes of a chunk stand in memory, and all else is as it was. -/
structure TakesIn (ram : Ram) (addr : Nat) (data : List UInt8) (count : Nat) (after : Ram) : Prop where
  font : after.font = ram.font
  stored : ∀ j < count, data[j]? = some (after.read (addr + j))
  kept : ∀ k < ramSize, k < addr ∨ addr + count ≤ k → after.read k = ram.read k

theorem takesIn_copy (ram : Ram) (addr : Nat) (data : List UInt8) (fits : addr + data.length ≤ ramSize) :
    ram.TakesIn addr data data.length (ram.copy addr data) := by
  induction data generalizing ram addr with
  | nil => exact ⟨rfl, fun j hj => absurd hj (Nat.not_lt_zero j), fun _ _ _ => rfl⟩
  | cons b rest ih =>
    simp only [List.length_cons] at fits ⊢
    have behind := ih (ram.put addr b) (addr + 1) (by omega)
    have place : wrap addr = addr := wrap_of_lt (by omega)
    refine ⟨behind.font, fun j hj => ?_, fun k hk apart => ?_⟩
    · -- The first byte stands below all that are copied after it, so none of them covers it.
      cases j with
      | zero =>
        have first := behind.kept addr (by omega) (Or.inl (Nat.lt_succ_self addr))
        rw [read_put, if_pos rfl] at first
        exact congrArg some first.symm
      | succ j =>
        rw [List.getElem?_cons_succ, Nat.add_comm j, ← Nat.add_assoc]
        exact behind.stored j (Nat.lt_of_succ_lt_succ hj)
    · have other : ¬wrap addr = wrap k := by
        rw [place, wrap_of_lt hk]
        omega
      have same := behind.kept k hk (by omega)
      rwa [read_put, if_neg other] at same

section
variable {ram after : Ram} {addr : UInt16} {data : List UInt8} {count : Nat}

theorem write?_eq_none_iff : ram.write? addr data = none ↔ ramSize < addr.toNat := by simp [write?]

theorem takesIn_write (h : ram.write? addr data = some (count, after)) :
    count = min data.length (ramSize - addr.toNat) ∧ ram.TakesIn addr.toNat data count after := by
  unfold write? at h
  split at h
  · next inside =>
    cases h
    have length : (data.take (min data.length (ramSize - addr.toNat))).length =
        min data.length (ramSize - addr.toNat) := by
      rw [List.length_take]
      omega
    have taken := ram.takesIn_copy addr.toNat (data.take (min data.length (ramSize - addr.toNat))) (by omega)
    rw [length] at taken
    refine ⟨rfl, taken.font, fun j hj => ?_, taken.kept⟩
    rw [← taken.stored j hj, List.getElem?_take_of_lt hj]
  · cases h

theorem takesIn_load {program : List UInt8} {boot : UInt16} {loaded : Noted (Nat × Ram)}
    (h : ram.load? program boot = some loaded) :
    loaded.value.1 = min program.length (ramSize - boot.toNat) ∧
      ram.TakesIn boot.toNat program loaded.value.1 loaded.value.2 := by
  obtain ⟨⟨count, after⟩, written, rfl⟩ := Option.map_eq_some_iff.mp h
  exact takesIn_write written

theorem takesIn_clear (h : ram.clear? = some after) :
    TakesIn ⟨Vector.replicate _ 0, ram.font⟩ ram.font.toNat Font.table
      (min Font.table.length (ramSize - ram.font.toNat)) after := by
  obtain ⟨⟨count, cleared⟩, written, rfl⟩ := Option.map_eq_some_iff.mp h
  obtain ⟨rfl, taken⟩ := takesIn_write written
  exact taken

/-- Memory that is cleared holds nothing but the font. -/
theorem zero_of_clear (h : ram.clear? = some after) {k : Nat} (hk : k < ramSize)
    (apart : ¬(ram.font.toNat ≤ k ∧ k < ram.font.toNat + Font.size)) : after.read k = 0 := by
  have size : Font.table.length = Font.size := Font.length_table
  rw [(takesIn_clear h).kept k hk (by omega)]
  simp [read]

end

/-- A chunk that starts at most at the end of memory is taken in as far as there is room for it: that many bytes of it
are counted and stand in memory from the address on, and no other byte changes. One that starts past the end is out of
range, however long it is. -/
theorem write_takes_what_fits (ram : Ram) (addr : UInt16) (data : List UInt8) :
    (addr.toNat ≤ ramSize → ∃ after,
      ram.write? addr data = some (min data.length (ramSize - addr.toNat), after) ∧
      ram.TakesIn addr.toNat data (min data.length (ramSize - addr.toNat)) after) ∧
    (ramSize < addr.toNat → ram.write? addr data = none) := by
  refine ⟨fun inside => ?_, write?_eq_none_iff.mpr⟩
  obtain ⟨⟨count, after⟩, written, -⟩ := write?_of_le ram inside data
  obtain ⟨rfl, taken⟩ := takesIn_write written
  exact ⟨after, written, taken⟩

/-- Of eight bytes, four find room at 4092 and none at the end of memory. -/
theorem last_places_take_what_fits :
    ∃ ram, blank? 0x50 = some ram ∧ (4092 : UInt16).toNat ≤ ramSize ∧
      (∃ after, ram.write? 4092 (List.replicate 8 9) = some (4, after) ∧
        after.read 4091 = ram.read 4091 ∧ after.read 4092 = 9 ∧ after.read 4095 = 9) ∧
      (∃ after, ram.write? 4096 (List.replicate 8 9) = some (0, after) ∧ after.read 4095 = ram.read 4095) ∧
      ramSize < (4097 : UInt16).toNat ∧ ram.write? 4097 (List.replicate 8 9) = none := by
  obtain ⟨ram, blank, -⟩ := clear?_of_le ⟨Vector.replicate _ 0, 0x50⟩ (by decide)
  obtain ⟨near, written, taken⟩ := (write_takes_what_fits ram 4092 (List.replicate 8 9)).1 (by decide)
  obtain ⟨same, unwritten, kept⟩ := (write_takes_what_fits ram 4096 (List.replicate 8 9)).1 (by decide)
  have out := (write_takes_what_fits ram 4097 (List.replicate 8 9)).2 (by decide)
  refine ⟨ram, blank, by decide, ⟨near, written, ?_, ?_, ?_⟩, ⟨same, unwritten, ?_⟩, by decide, out⟩
  · exact taken.kept 4091 (by decide) (Or.inl (by decide))
  · exact (Option.some.inj (taken.stored 0 (by decide))).symm
  · exact (Option.some.inj (taken.stored 3 (by decide))).symm
  · exact kept.kept 4095 (by decide) (Or.inl (by decide))

/-- A chunk that starts past the end is not dropped, as one is that starts at the end: it is out of range, even if there
is nothing in it. -/
theorem write_past_end_out_of_range :
    ∃ ram, blank? 0x50 = some ram ∧ ram.write? 4096 [] = some (0, ram) ∧ ram.write? 4097 [] = none := by
  obtain ⟨ram, blank, -⟩ := clear?_of_le ⟨Vector.replicate _ 0, 0x50⟩ (by decide)
  exact ⟨ram, blank, rfl, rfl⟩

end Chip8.Ram
