import Chip8.Machine.Execute

/-!
What is noted in the name of memory and of the extension, and that neither a chunk nor a guest store
moves the font.
-/

namespace Chip8

/-- Events among which no sum of addresses went past the last address. -/
def Calm (events : List Event) : Prop := ∀ addr count, .addressWrapped addr count ∉ events

section
variable {e : Event} {events later : List Event}

@[simp] theorem calm_nil : Calm [] := fun _ _ h => nomatch h

@[simp] theorem calm_cons :
    Calm (e :: events) ↔ (∀ addr count, e ≠ .addressWrapped addr count) ∧ Calm events := by
  constructor
  · intro h
    exact ⟨fun addr count he => h addr count (he ▸ List.mem_cons_self),
      fun addr count he => h addr count (List.mem_cons_of_mem _ he)⟩
  · rintro ⟨he, h⟩ addr count hm
    rcases List.mem_cons.mp hm with rfl | hm
    · exact he addr count rfl
    · exact h addr count hm

@[simp] theorem calm_append : Calm (later ++ events) ↔ Calm later ∧ Calm events := by
  simp only [Calm, List.mem_append, not_or, forall_and]

@[simp] theorem calm_reverse : Calm events.reverse ↔ Calm events := by simp only [Calm, List.mem_reverse]

theorem calm_of_source (h : ∀ e ∈ events, e.source ≠ .machine) : Calm events :=
  fun _ _ he => h _ he rfl

end

namespace Ram
variable {e : Event}

/-! ### Memory -/

@[simp] theorem font_put (ram : Ram) (addr : Nat) (value : UInt8) : (ram.put addr value).font = ram.font := rfl

@[simp] theorem font_copy (ram : Ram) (addr : Nat) (data : List UInt8) : (ram.copy addr data).font = ram.font := by
  induction data generalizing ram addr with
  | nil => rfl
  | cons b rest ih => rw [copy, ih, font_put]

theorem write?_of_le (ram : Ram) {addr : UInt16} (h : addr.toNat ≤ ramSize) (data : List UInt8) :
    ∃ r, ram.write? addr data = some r ∧ r.2.font = ram.font :=
  ⟨_, if_pos h, font_copy ..⟩

theorem clear?_of_le (ram : Ram) (h : ram.font.toNat ≤ ramSize) :
    ∃ cleared, ram.clear? = some cleared ∧ cleared.font = ram.font := by
  obtain ⟨r, hr, font⟩ := write?_of_le ⟨Vector.replicate _ 0, ram.font⟩ h Font.table
  exact ⟨r.2, by rw [clear?, hr]; rfl, font⟩

theorem load?_of_le (ram : Ram) {boot : UInt16} (h : boot.toNat ≤ ramSize) (program : List UInt8) :
    ∃ loaded, ram.load? program boot = some loaded ∧ loaded.value.2.font = ram.font ∧
      ∀ e ∈ loaded.notes, e.source = .memory := by
  obtain ⟨r, hr, font⟩ := write?_of_le ram h program
  refine ⟨_, by rw [load?, hr]; rfl, font, ?_⟩
  intro e he
  simp only [Noted.notes_bind, Noted.notes_noteIf, Noted.notes_pure, List.append_nil] at he
  split at he
  · obtain rfl := List.mem_singleton.mp he
    rfl
  · cases he

theorem source_of_mem_notes_store {ram : Ram} {addr : Nat} {value : UInt8}
    (h : e ∈ (ram.store addr value).notes) : e.source = .memory := by
  simp only [store, Noted.notes_bind, Noted.notes_noteIf, Noted.notes_pure, List.append_nil] at h
  split at h
  · obtain rfl := List.mem_singleton.mp h
    rfl
  · cases h

theorem font_of_store {ram stored : Ram} {addr : Nat} {value : UInt8}
    (h : (ram.store addr value).value = some stored) : stored.font = ram.font := by
  simp only [store, Noted.value_bind, Noted.value_pure] at h
  split at h
  · cases h
  · cases h
    rfl

@[simp] theorem font_getD_store (ram : Ram) (addr : Nat) (value : UInt8) :
    ((ram.store addr value).value.getD ram).font = ram.font := by
  cases h : (ram.store addr value).value with
  | none => rfl
  | some stored => exact font_of_store h

@[simp] theorem font_storeAll (ram : Ram) (addr : Nat) (bytes : List UInt8) :
    (ram.storeAll addr bytes).value.font = ram.font := by
  induction bytes generalizing ram addr with
  | nil => rfl
  | cons b rest ih => rw [storeAll, Noted.value_bind, ih, font_getD_store]

theorem source_of_mem_notes_storeAll {ram : Ram} {addr : Nat} {bytes : List UInt8}
    (h : e ∈ (ram.storeAll addr bytes).notes) : e.source = .memory := by
  induction bytes generalizing ram addr with
  | nil => cases h
  | cons b rest ih =>
    rw [storeAll, Noted.notes_bind] at h
    rcases List.mem_append.mp h with h | h
    · exact source_of_mem_notes_store h
    · exact ih h

theorem storeText_keeps (ram : Ram) (addr : Nat) (text : List Char) :
    (ram.storeText addr text).value.2.font = ram.font ∧
      ∀ e ∈ (ram.storeText addr text).notes, e.source = .memory := by
  induction text generalizing ram addr with
  | nil =>
    refine ⟨font_getD_store .., ?_⟩
    intro e he
    simp only [storeText, Noted.notes_bind, Noted.notes_pure, List.append_nil] at he
    exact source_of_mem_notes_store he
  | cons c rest ih =>
    simp only [storeText, Noted.value_bind, Noted.notes_bind]
    split
    · next stored h =>
      obtain ⟨font, notes⟩ := ih stored (addr + 1)
      refine ⟨font.trans (font_of_store h), ?_⟩
      intro e he
      simp only [Noted.notes_bind, Noted.notes_pure, List.append_nil] at he
      rcases List.mem_append.mp he with he | he
      · exact source_of_mem_notes_store he
      · exact notes e he
    · next refused =>
      refine ⟨font_getD_store .., ?_⟩
      intro e he
      simp only [Noted.notes_bind, Noted.notes_pure, List.append_nil] at he
      rcases List.mem_append.mp he with he | he <;> exact source_of_mem_notes_store he

theorem writeAscii_keeps (ram : Ram) (addr : Nat) (text : String) (capacity : Nat) :
    (ram.writeAscii addr text capacity).value.2.font = ram.font ∧
      ∀ e ∈ (ram.writeAscii addr text capacity).notes, e.source = .memory := by
  cases capacity with
  | zero => exact ⟨rfl, fun _ he => nomatch he⟩
  | succ room => exact storeText_keeps ..

end Ram

/-! ### Extension requests -/

namespace Extension
variable {e : Event}

/-- The parts of the system that note something while a request is made up. -/
def Reads (e : Event) : Prop := e.source = .memory ∨ e.source = .extension

theorem reads_of_mem_notes_readField {ram : Ram} {addr limit : Nat}
    (h : e ∈ (readField ram addr limit).notes) : Reads e := by
  simp only [readField, Ram.readAscii, Noted.notes_bind, Noted.notes_note, Noted.notes_noteIf,
    Noted.notes_pure, List.append_nil] at h
  rcases List.mem_append.mp h with h | h
  · obtain rfl := List.mem_singleton.mp h
    exact Or.inl rfl
  · split at h
    · obtain rfl := List.mem_singleton.mp h
      exact Or.inr rfl
    · cases h

theorem reads_of_mem_notes_arguments {operands : Operands} {v : Registers} {ram : Ram}
    (h : e ∈ (arguments operands v ram).notes) : Reads e := by
  cases operands with
  | text =>
    simp only [arguments, Noted.notes_bind, Noted.notes_pure, List.append_nil] at h
    exact reads_of_mem_notes_readField h
  | _ => cases h

theorem reads_of_mem_notes_decode {code : UInt8} {v : Registers} {i : UInt16} {ram : Ram}
    {window : TextWindow} (h : e ∈ (decode code v i ram window).notes) : Reads e := by
  rw [decode, Noted.notes_bind] at h
  rcases List.mem_append.mp h with h | h
  · exact reads_of_mem_notes_readField h
  · split at h
    · obtain rfl : e = _ := List.mem_singleton.mp h
      exact Or.inl rfl
    · split at h
      · cases h
      · split at h
        · cases h
        · rw [Noted.notes_bind, Noted.notes_pure, List.append_nil] at h
          exact reads_of_mem_notes_arguments h

theorem calm_decode (code : UInt8) (v : Registers) (i : UInt16) (ram : Ram) (window : TextWindow) :
    Calm (decode code v i ram window).notes := by
  refine calm_of_source fun e he => ?_
  rcases reads_of_mem_notes_decode he with h | h <;> simp [h]

end Extension
end Chip8
