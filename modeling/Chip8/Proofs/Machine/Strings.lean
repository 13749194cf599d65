import Chip8.Proofs.Machine.Memory

/-!
Texts in memory. A text that is written can be read back: the writer stores it up to its room or to the font, and
puts a zero byte behind it where the font does not already end it. The reader ends at that place. What it shows of the
text are its printable characters up to a zero character.
-/

namespace Chip8.Ram

/-! ### Characters -/

/-- A character as memory holds it. -/
def toAscii (c : Char) : Char := if c.toNat < 128 then c else '?'

def isShown (c : Char) : Bool := 0x20 ≤ c.toNat && c.toNat ≤ 0x7e

/-- The character that ends a text. -/
def zeroChar : Char := Char.ofNat 0

/-- What a text in memory reads as. -/
def shownText (text : List Char) : List Char :=
  ((text.map toAscii).takeWhile (· != zeroChar)).filter isShown

theorem toNat_asciiByte (c : Char) : (asciiByte c).toNat = (toAscii c).toNat := by
  unfold asciiByte toAscii
  split
  · next ascii => exact UInt8.toNat_ofNat_of_lt' (Nat.lt_trans ascii (by decide))
  · rfl

theorem ofNat_asciiByte (c : Char) : Char.ofNat (asciiByte c).toNat = toAscii c := by
  rw [toNat_asciiByte, Char.ofNat_toNat]

theorem asciiByte_eq_zero_iff {c : Char} : asciiByte c = 0 ↔ toAscii c = zeroChar := by
  rw [← UInt8.toNat_inj, toNat_asciiByte, ← Char.toNat_inj]
  rfl

theorem isPrintable_asciiByte (c : Char) : isPrintable (asciiByte c) = isShown (toAscii c) := by
  rw [isShown, ← toNat_asciiByte]
  rfl

theorem shownText_cons (c : Char) (rest : List Char) :
    shownText (c :: rest) =
      if toAscii c = zeroChar then []
      else if isShown (toAscii c) then toAscii c :: shownText rest else shownText rest := by
  by_cases last : toAscii c = zeroChar
  · simp [shownText, last]
  · cases shown : isShown (toAscii c) <;> simp [shownText, last, shown]

/-! ### The way to the font -/

/-- The next byte of the font, at an address or behind it, is `distance` places away. -/
structure FontAhead (ram : Ram) (addr distance : Nat) : Prop where
  here : ram.isProtected (wrap (addr + distance)) = true
  before : ∀ k < distance, ram.isProtected (wrap (addr + k)) = false

theorem isProtected_of_font {ram after : Ram} (same : after.font = ram.font) (k : Nat) :
    after.isProtected k = ram.isProtected k := by
  rw [isProtected, same]
  rfl

theorem isProtected_iff {ram : Ram} {k : Nat} :
    ram.isProtected k = true ↔ ram.font.toNat ≤ k ∧ k < ram.font.toNat + Font.size := by
  simp [isProtected]

section
variable {ram : Ram} (inside : ram.font.toNat + Font.size ≤ ramSize)
include inside

theorem exists_fontAhead (addr : Nat) : ∃ distance, ram.FontAhead addr distance := by
  simp only [Font.size, ramSize] at inside
  by_cases own : ram.isProtected (wrap addr) = true
  · exact ⟨0, own, fun k hk => absurd hk (Nat.not_lt_zero k)⟩
  · -- Otherwise it is as far as to the first byte of the font, around the end of memory if need be.
    refine ⟨(ram.font.toNat + ramSize - wrap addr) % ramSize, ?_, fun k hk => ?_⟩
    · rw [isProtected_iff] at own ⊢
      simp only [wrap, ramSize, Font.size] at own ⊢
      omega
    · rw [← Bool.not_eq_true]
      rw [isProtected_iff] at own ⊢
      simp only [wrap, ramSize, Font.size] at own hk ⊢
      omega

/-- On the way to the font no address is passed twice. -/
theorem FontAhead.lt {addr distance : Nat} (ahead : ram.FontAhead addr distance) : distance < ramSize := by
  simp only [Font.size, ramSize] at inside
  refine Nat.lt_of_not_le fun far => ?_
  have missed := ahead.before ((ram.font.toNat + ramSize - wrap addr) % ramSize)
    (Nat.lt_of_lt_of_le (wrap_lt _) far)
  rw [← Bool.not_eq_true, isProtected_iff] at missed
  simp only [wrap, ramSize, Font.size] at missed
  omega

end

theorem wrap_add_ne {addr i j : Nat} (lt : i < j) (near : j < ramSize) : wrap (addr + j) ≠ wrap (addr + i) := by
  simp only [wrap, ramSize] at near ⊢
  omega

theorem FontAhead.own {ram : Ram} {addr : Nat} (ahead : ram.FontAhead addr 0) : ram.isProtected (wrap addr) = true :=
  ahead.here

theorem FontAhead.free {ram : Ram} {addr distance : Nat} (ahead : ram.FontAhead addr (distance + 1)) :
    ram.isProtected (wrap addr) = false := ahead.before 0 (Nat.succ_pos _)

theorem FontAhead.next {ram after : Ram} {addr distance : Nat} (ahead : ram.FontAhead addr (distance + 1))
    (same : after.font = ram.font) : after.FontAhead (addr + 1) distance where
  here := by
    rw [isProtected_of_font same, Nat.add_right_comm, Nat.add_assoc]
    exact ahead.here
  before k hk := by
    rw [isProtected_of_font same, Nat.add_right_comm, Nat.add_assoc]
    exact ahead.before (k + 1) (Nat.succ_lt_succ hk)

/-! ### Writing -/

theorem store_of_own {ram : Ram} {addr : Nat} (own : ram.isProtected (wrap addr) = true) (value : UInt8) :
    (ram.store addr value).value = none := by
  simp [store, own]

theorem store_of_open {ram : Ram} {addr : Nat} (free : ram.isProtected (wrap addr) = false) (value : UInt8) :
    (ram.store addr value).value = some (ram.put addr value) := by
  simp [store, free]

theorem storeText_of_own {ram : Ram} {addr : Nat} (own : ram.isProtected (wrap addr) = true) (text : List Char) :
    (ram.storeText addr text).value = (0, ram) := by
  cases text <;> simp [storeText, store_of_own own]

theorem storeText_of_open {ram : Ram} {addr : Nat} (free : ram.isProtected (wrap addr) = false) (c : Char)
    (rest : List Char) :
    (ram.storeText addr (c :: rest)).value =
      (((ram.put addr (asciiByte c)).storeText (addr + 1) rest).value.1 + 1,
        ((ram.put addr (asciiByte c)).storeText (addr + 1) rest).value.2) := by
  rw [storeText, Noted.value_bind, store_of_open free]
  rfl

theorem readAll_cons (ram : Ram) (addr count : Nat) :
    ram.readAll addr (count + 1) = ram.read addr :: ram.readAll (addr + 1) count := by
  simp only [readAll, List.range_succ_eq_map, List.map_cons, List.map_map, Nat.add_zero]
  refine congrArg _ (List.map_congr_left fun k _ => ?_)
  rw [Function.comp_apply, Nat.succ_eq_add_one, Nat.add_right_comm, Nat.add_assoc]

theorem readAll_concat (ram : Ram) (addr count : Nat) :
    ram.readAll addr (count + 1) = ram.readAll addr count ++ [ram.read (addr + count)] := by
  rw [readAll, List.range_succ, List.map_append]
  rfl

section
variable {ram : Ram} {addr distance : Nat}

/-- A text is stored up to the font. -/
theorem storeText_count (ahead : ram.FontAhead addr distance) (text : List Char) :
    (ram.storeText addr text).value.1 = min text.length distance := by
  induction text generalizing ram addr distance with
  | nil => exact (Nat.zero_min _).symm
  | cons c rest ih =>
    cases distance with
    | zero =>
      rw [storeText_of_own ahead.own]
      exact (Nat.min_zero _).symm
    | succ distance =>
      rw [storeText_of_open ahead.free, ih (ahead.next (font_put ..)), List.length_cons,
        Nat.add_min_add_right]

variable (inside : ram.font.toNat + Font.size ≤ ramSize)
include inside

/-- The bytes of what is stored of a text, and the end behind them: a zero byte, or the font. -/
theorem readAll_storeText (ahead : ram.FontAhead addr distance) (text : List Char) :
    let stored := (ram.storeText addr text).value
    stored.2.readAll addr stored.1 = (text.take stored.1).map asciiByte ∧
      (stored.2.read (addr + stored.1) = 0 ∨ ram.isProtected (wrap (addr + stored.1)) = true) := by
  induction text generalizing ram addr distance with
  | nil =>
    refine ⟨rfl, ?_⟩
    by_cases own : ram.isProtected (wrap addr) = true
    · exact Or.inr own
    · refine Or.inl ?_
      simp only [Bool.not_eq_true] at own
      simp [storeText, store_of_open own, read_put]
  | cons c rest ih =>
    cases distance with
    | zero =>
      rw [storeText_of_own ahead.own]
      exact ⟨rfl, Or.inr ahead.own⟩
    | succ distance =>
      have further := ahead.next (font_put ram addr (asciiByte c))
      have near := ahead.lt inside
      have count := storeText_count further rest
      -- What is stored behind the first character does not come around to it.
      have first : ((ram.put addr (asciiByte c)).storeText (addr + 1) rest).value.2.read addr = asciiByte c := by
        rw [read_storeText, read_put, if_pos rfl]
        intro j hj
        rw [Nat.add_assoc, Nat.add_comm 1 j]
        exact wrap_add_ne (i := 0) (Nat.succ_pos j) (by omega)
      have inside' : (ram.put addr (asciiByte c)).font.toNat + Font.size ≤ ramSize := inside
      obtain ⟨bytes, ends⟩ := ih inside' further
      rw [storeText_of_open ahead.free]
      generalize ((ram.put addr (asciiByte c)).storeText (addr + 1) rest).value = later at first bytes ends
      have place : addr + (later.1 + 1) = addr + 1 + later.1 := by omega
      rw [isProtected_of_font (font_put ..), ← place] at ends
      refine ⟨?_, ends⟩
      rw [readAll_cons, first, bytes, List.take_succ_cons, List.map_cons]

end

/-! ### Reading -/

/-- A text that stands in memory, up to its end or to the limit, is read as what it shows. -/
theorem asciiAt_of_readAll {ram : Ram} {addr limit : Nat} {text : List Char} (fits : text.length ≤ limit)
    (bytes : ram.readAll addr text.length = text.map asciiByte)
    (free : ∀ k < text.length, ram.isProtected (wrap (addr + k)) = false)
    (ends : ram.read (addr + text.length) = 0 ∨ ram.isProtected (wrap (addr + text.length)) = true) :
    ram.asciiAt addr limit = shownText text := by
  induction text generalizing addr limit with
  | nil =>
    cases limit with
    | zero => rfl
    | succ limit =>
      have last : (ram.isProtected (wrap addr) || ram.read addr == 0) = true := by
        rcases ends with zero | own
        · simp [show ram.read addr = 0 from zero]
        · simp [show ram.isProtected (wrap addr) = true from own]
      simp only [asciiAt, last, if_true]
      rfl
  | cons c rest ih =>
    obtain ⟨limit, rfl⟩ : ∃ room, limit = room + 1 := ⟨limit - 1, by simp only [List.length_cons] at fits; omega⟩
    rw [List.length_cons, readAll_cons, List.map_cons, List.cons.injEq] at bytes
    rw [List.length_cons, Nat.add_comm _ 1, ← Nat.add_assoc] at ends
    have behind : ∀ k < rest.length, ram.isProtected (wrap (addr + 1 + k)) = false := by
      intro k hk
      rw [Nat.add_assoc, Nat.add_comm 1 k]
      exact free (k + 1) (Nat.succ_lt_succ hk)
    have later := ih (Nat.le_of_succ_le_succ fits) bytes.2 behind ends
    have here : ram.isProtected (wrap addr) = false := free 0 (Nat.succ_pos _)
    simp only [asciiAt, bytes.1, here, Bool.false_or, beq_iff_eq, asciiByte_eq_zero_iff, isPrintable_asciiByte,
      ofNat_asciiByte, later, shownText_cons]

/-! ### Both -/

section
variable {ram : Ram} {addr distance : Nat}

theorem writeAscii_count (ahead : ram.FontAhead addr distance) (text : String) (room : Nat) :
    (ram.writeAscii addr text (room + 1)).value.1 = min room (min text.length distance) := by
  rw [writeAscii, storeText_count ahead, List.length_take, String.length_toList, Nat.min_assoc]

theorem readAll_writeAscii (inside : ram.font.toNat + Font.size ≤ ramSize) (ahead : ram.FontAhead addr distance)
    (text : String) (room : Nat) :
    let written := (ram.writeAscii addr text (room + 1)).value
    written.2.readAll addr written.1 = (text.toList.take written.1).map asciiByte ∧
      (written.2.read (addr + written.1) = 0 ∨ ram.isProtected (wrap (addr + written.1)) = true) := by
  obtain ⟨bytes, ends⟩ := readAll_storeText inside ahead (text.toList.take room)
  have short : (ram.storeText addr (text.toList.take room)).value.1 ≤ room :=
    Nat.le_trans (storeText_le ..) (List.length_take_le ..)
  rw [List.take_take, Nat.min_eq_left short] at bytes
  exact ⟨bytes, ends⟩

end

/-- A window inside memory and off the font takes what fits of a text, with a zero byte behind it. -/
theorem writeAscii_window {ram : Ram} (inside : ram.font.toNat + Font.size ≤ ramSize) {addr room : Nat}
    (fits : addr + (room + 1) ≤ ramSize)
    (apart : ram.font.toNat + Font.size ≤ addr ∨ addr + (room + 1) ≤ ram.font.toNat) (text : String) :
    let written := (ram.writeAscii addr text (room + 1)).value
    written.1 = min room text.length ∧
      written.2.readAll addr (written.1 + 1) = (text.toList.take written.1).map asciiByte ++ [0] := by
  intro written
  obtain ⟨distance, ahead⟩ := exists_fontAhead inside addr
  have free : ∀ k ≤ room, ram.isProtected (wrap (addr + k)) = false := by
    intro k hk
    rw [wrap_of_lt (by omega), ← Bool.not_eq_true, isProtected_iff]
    omega
  have far : room < distance := by
    refine Nat.lt_of_not_le fun near => ?_
    have own := ahead.here
    rw [free distance near] at own
    cases own
  have count : written.1 = min room (min text.length distance) := writeAscii_count ahead text room
  obtain ⟨bytes, zero | own⟩ := readAll_writeAscii inside ahead text room
  · refine ⟨count.trans (by omega), ?_⟩
    rw [readAll_concat, bytes, zero]
  · have short : written.1 ≤ room := Nat.le_trans (Nat.le_of_eq count) (Nat.min_le_left ..)
    cases (free written.1 short).symm.trans own

/-- A text that is written into memory can be read back, whatever stood there. As much of it is written as there is
room for in front of the font, and nothing changes but the bytes that it takes and the one behind them. -/
theorem text_reads_back {ram : Ram} (inside : ram.font.toNat + Font.size ≤ ramSize) (addr : Nat) (text : String)
    {capacity : Nat} (some : 1 ≤ capacity) :
    let written := (ram.writeAscii addr text capacity).value
    ∃ distance, ram.FontAhead addr distance ∧
      written.1 = min (capacity - 1) (min text.length distance) ∧
      (∀ limit, written.1 ≤ limit →
        (written.2.readAscii addr limit).value = String.ofList (shownText (text.toList.take written.1))) ∧
      (∀ k < ramSize, (∀ j ≤ written.1, wrap (addr + j) ≠ k) → written.2.read k = ram.read k) ∧
      written.2.font = ram.font ∧ ∀ k < ramSize, ram.isProtected k = true → written.2.read k = ram.read k := by
  intro written
  obtain ⟨distance, ahead⟩ := exists_fontAhead inside addr
  obtain ⟨room, rfl⟩ : ∃ room, capacity = room + 1 := ⟨capacity - 1, (Nat.sub_add_cancel some).symm⟩
  have count : written.1 = min (room + 1 - 1) (min text.length distance) := writeAscii_count ahead text room
  have spared := spares_writeAscii ram addr text (room + 1)
  refine ⟨distance, ahead, count, fun limit fits => ?_, fun k hk apart => ?_, spared.font, spared.read⟩
  · obtain ⟨bytes, ends⟩ := readAll_writeAscii inside ahead text room
    rw [← isProtected_of_font spared.font] at ends
    have length : (text.toList.take written.1).length = written.1 := by
      rw [List.length_take, String.length_toList]
      omega
    refine congrArg String.ofList (asciiAt_of_readAll (by rw [length]; exact fits) (by rw [length]; exact bytes) ?_
      (by rw [length]; exact ends))
    intro k hk
    rw [isProtected_of_font spared.font]
    exact ahead.before k (by omega)
  · refine read_storeText ram _ fun j hj => ?_
    rw [wrap_of_lt hk]
    exact apart j hj

/-- A text that is written from the end of memory on goes on at its beginning, up to the font. -/
theorem text_meets_font :
    let text := String.ofList ['A', 'é', Char.ofNat 7, '~', 'B', 'C']
    ∃ ram, Ram.blank? 3 = some ram ∧ ram.font.toNat + Font.size ≤ ramSize ∧ 1 ≤ 5000 ∧
      (ram.writeAscii 4094 text 5000).value.1 = 5 ∧
      ((ram.writeAscii 4094 text 5000).value.2.readAscii 4094 31).value = "A?~B" := by
  intro text
  have room : (3 : UInt16).toNat + Font.size ≤ ramSize := by decide
  obtain ⟨ram, blank, font, -⟩ := showsFont_blank room
  have inside : ram.font.toNat + Font.size ≤ ramSize := by
    rw [font]
    decide
  have run : (Ram.blank? 3).map (fun ram => (ram.writeAscii 4094 text 5000).value.1) = some 5 := by decide +kernel
  rw [blank] at run
  have count : (ram.writeAscii 4094 text 5000).value.1 = 5 := Option.some.inj run
  have some : 1 ≤ 5000 := by decide
  obtain ⟨_, -, -, reads, -⟩ := text_reads_back inside 4094 text some
  refine ⟨ram, blank, inside, some, count, ?_⟩
  rw [reads 31 (by rw [count]; decide), count]
  decide +kernel

end Chip8.Ram
