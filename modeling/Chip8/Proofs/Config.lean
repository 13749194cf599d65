import Chip8.Proofs.Machine.Memory

/-!
How memory is laid out. Settings are accepted just if they keep five rules about the addresses of the program, the font
and the text window, and if they do not, the first rule that they break is named. In the memory of a machine with such
settings the font is complete, and a program fills the room behind its start address without touching the font.
-/

namespace Chip8.Config

/-- The addresses of the font. -/
def InFont (c : Config) (addr : Nat) : Prop :=
  c.fontAddress.toNat ≤ addr ∧ addr < c.fontAddress.toNat + Font.size

/-- The addresses of the text window. -/
def InWindow (c : Config) (addr : Nat) : Prop :=
  c.window.address.toNat ≤ addr ∧ addr < c.window.address.toNat + c.window.size.toNat

/-- What settings have to keep to. -/
inductive Rule
  | boot
  | font
  | window
  | apart
  | clock
  deriving DecidableEq

namespace Rule

/-- The rules in the order in which they are checked. -/
def all : List Rule := [boot, font, window, apart, clock]

/-- That settings keep a rule: the program starts inside memory, the whole font lies below it, the text window has some
place and lies inside memory, it has no place in common with the font, and a frame runs at least one instruction. -/
def Holds (c : Config) : Rule → Prop
  | boot => c.bootAddress.toNat < ramSize
  | font => ∀ addr, c.InFont addr → addr < c.bootAddress.toNat
  | window => (∃ addr, c.InWindow addr) ∧ ∀ addr, c.InWindow addr → addr < ramSize
  | apart => ∀ addr, ¬(c.InWindow addr ∧ c.InFont addr)
  | clock => 1 ≤ c.clockMultiplier.toNat

/-- How settings that break a rule are refused. -/
def error (c : Config) : Rule → ConfigError
  | boot => .bootAddress c.bootAddress
  | font => .fontAddress c.fontAddress
  | window => .window c.window
  | apart => .windowOverlapsFont c.window
  | clock => .clockMultiplier

theorem mem_all (r : Rule) : r ∈ all := by cases r <;> decide

variable {c : Config}

/-! ### The rules as bounds -/

theorem holds_font : font.Holds c ↔ c.fontStop ≤ c.bootAddress.toNat := by
  have some : 0 < Font.size := by decide
  simp only [Holds, InFont, fontStop]
  constructor
  · intro below
    have last := below (c.fontAddress.toNat + Font.size - 1) ⟨by omega, by omega⟩
    omega
  · intro below addr inside
    omega

theorem holds_window : window.Holds c ↔ c.window.size.toNat ≠ 0 ∧ c.window.stop ≤ ramSize := by
  simp only [Holds, InWindow, TextWindow.stop]
  constructor
  · rintro ⟨⟨addr, place⟩, inside⟩
    have last := inside (c.window.address.toNat + c.window.size.toNat - 1) ⟨by omega, by omega⟩
    omega
  · rintro ⟨some, within⟩
    exact ⟨⟨c.window.address.toNat, by omega⟩, fun addr place => by omega⟩

/-- A window that has some place has none in common with the font just if one of the two ends before the other begins. -/
theorem holds_apart (some : c.window.size.toNat ≠ 0) :
    apart.Holds c ↔ c.fontStop ≤ c.window.address.toNat ∨ c.window.stop ≤ c.fontAddress.toNat := by
  have size : 0 < Font.size := by decide
  simp only [Holds, InWindow, InFont, fontStop, TextWindow.stop]
  constructor
  · intro disjoint
    -- If neither ended before the other begins, the later of the two beginnings would lie in both.
    have later := disjoint (max c.window.address.toNat c.fontAddress.toNat)
    omega
  · intro ends addr common
    omega

theorem holds_clock : clock.Holds c ↔ c.clockMultiplier ≠ 0 := by
  simp only [Holds]
  rw [Nat.one_le_iff_ne_zero, ne_eq, ne_eq, ← UInt32.toNat_inj, UInt32.toNat_zero]

instance (c : Config) : (r : Rule) → Decidable (r.Holds c)
  | boot => inferInstanceAs (Decidable (c.bootAddress.toNat < ramSize))
  | font => decidable_of_iff _ holds_font.symm
  | window => decidable_of_iff _ holds_window.symm
  | apart =>
    if empty : c.window.size.toNat = 0 then
      .isTrue fun addr common => by
        have place := common.1
        unfold InWindow at place
        omega
    else decidable_of_iff _ (holds_apart empty).symm
  | clock => inferInstanceAs (Decidable (1 ≤ c.clockMultiplier.toNat))

end Rule

variable {c : Config}

/-- The first rule that settings break. -/
def firstBroken? (c : Config) : Option Rule := Rule.all.find? fun r => ¬r.Holds c

theorem firstBroken?_eq_none_iff : c.firstBroken? = none ↔ ∀ r : Rule, r.Holds c := by
  simp [firstBroken?, Rule.mem_all]

/-- Checks rules one after another, up to the first that settings break. -/
def check (c : Config) : List Rule → Except ConfigError Unit
  | [] => .ok ()
  | r :: rest => if ¬r.Holds c then .error (r.error c) else c.check rest

theorem check_eq (c : Config) (rules : List Rule) :
    c.check rules = match rules.find? fun r => ¬r.Holds c with
      | none => .ok ()
      | some r => .error (r.error c) := by
  induction rules with
  | nil => rfl
  | cons r rest ih =>
    by_cases holds : r.Holds c
    · simpa [check, holds] using ih
    · simp [check, holds]

/-- The settings are checked for the rules in their order. -/
theorem validate_eq_check (c : Config) : c.validate = c.check Rule.all := by
  have size : c.window.size = 0 ↔ c.window.size.toNat = 0 := by rw [← UInt16.toNat_inj, UInt16.toNat_zero]
  have boot : ramSize ≤ c.bootAddress.toNat ↔ ¬Rule.boot.Holds c := Nat.not_lt.symm
  have font : c.bootAddress.toNat < c.fontStop ↔ ¬Rule.font.Holds c := by
    rw [Rule.holds_font, Nat.not_le]
  have window : ramSize < c.window.stop ∨ c.window.size = 0 ↔ ¬Rule.window.Holds c := by
    rw [Rule.holds_window, size]
    omega
  refine ite_congr (propext boot) (fun _ => rfl) fun _ => ?_
  refine ite_congr (propext font) (fun _ => rfl) fun _ => ?_
  refine ite_congr (propext window) (fun _ => rfl) fun placed => ?_
  have some : c.window.size.toNat ≠ 0 := (Rule.holds_window.mp (Decidable.not_not.mp placed)).1
  have apart : c.window.address.toNat < c.fontStop ∧ c.fontAddress.toNat < c.window.stop ↔ ¬Rule.apart.Holds c := by
    rw [Rule.holds_apart some]
    omega
  have clock : c.clockMultiplier = 0 ↔ ¬Rule.clock.Holds c := by
    rw [Rule.holds_clock, Decidable.not_not]
  refine ite_congr (propext apart) (fun _ => rfl) fun _ => ?_
  exact ite_congr (propext clock) (fun _ => rfl) fun _ => rfl

/-! ### Memory -/

/-- The font lies inside memory, and the program starts there behind it. -/
theorem bounds_of_holds (holds : ∀ r : Rule, r.Holds c) :
    c.fontAddress.toNat + Font.size ≤ c.bootAddress.toNat ∧ c.bootAddress.toNat < ramSize :=
  ⟨Rule.holds_font.mp (holds .font), holds .boot⟩

theorem blank_complete (inside : c.fontAddress.toNat + Font.size ≤ ramSize) :
    ∃ ram, Ram.blank? c.fontAddress = some ram ∧ ram.font = c.fontAddress ∧
      (∀ addr, c.InFont addr → addr < ramSize ∧ Font.table[addr - c.fontAddress.toNat]? = some (ram.read addr)) ∧
      ∀ addr < ramSize, ¬c.InFont addr → ram.read addr = 0 := by
  obtain ⟨ram, blank, place, shows⟩ := Ram.showsFont_blank inside
  refine ⟨ram, blank, place, fun addr own => ?_, fun addr hk free => ?_⟩
  · obtain ⟨k, rfl⟩ := Nat.exists_eq_add_of_le own.1
    have part : k < Font.size := Nat.add_lt_add_iff_left.mp own.2
    have sprite := shows k part
    rw [place] at sprite
    exact ⟨by omega, by rwa [Nat.add_sub_cancel_left]⟩
  · exact Ram.zero_of_clear blank hk free

/-- Settings are accepted just if they keep all rules, and else they are refused for the first rule that they break.
With settings that are accepted, memory has the whole font in it and nothing else when the machine is built, and of any
program as much is loaded as fits between the start address and the end of memory, none of it into the font. -/
theorem validate_decides_layout (c : Config) :
    (c.validate = .ok () ↔ ∀ r : Rule, r.Holds c) ∧
    (∀ e, c.validate = .error e ↔ ∃ r, c.firstBroken? = some r ∧ r.error c = e) ∧
    (c.validate = .ok () →
      (∃ ram, Ram.blank? c.fontAddress = some ram ∧ ram.font = c.fontAddress ∧
        (∀ addr, c.InFont addr → addr < ramSize ∧ Font.table[addr - c.fontAddress.toNat]? = some (ram.read addr)) ∧
        ∀ addr < ramSize, ¬c.InFont addr → ram.read addr = 0) ∧
      ∀ (ram : Ram) (program : List UInt8), ∃ loaded, ram.load? program c.bootAddress = some loaded ∧
        loaded.value.1 = min program.length (ramSize - c.bootAddress.toNat) ∧
        ram.TakesIn c.bootAddress.toNat program loaded.value.1 loaded.value.2 ∧
        ∀ k < loaded.value.1, ¬c.InFont (c.bootAddress.toNat + k)) := by
  have checked : c.validate = match c.firstBroken? with
      | none => .ok ()
      | some r => .error (r.error c) := (validate_eq_check c).trans (check_eq c Rule.all)
  have accepted : c.validate = .ok () ↔ ∀ r : Rule, r.Holds c := by
    rw [checked, ← firstBroken?_eq_none_iff]
    rcases c.firstBroken? with _ | r <;> simp
  refine ⟨accepted, fun e => ?_, fun valid => ?_⟩
  · rw [checked]
    rcases c.firstBroken? with _ | r <;> simp
  · obtain ⟨below, inside⟩ := bounds_of_holds (accepted.mp valid)
    refine ⟨blank_complete (by omega), fun ram program => ?_⟩
    obtain ⟨loaded, load, -⟩ := ram.load?_of_le (Nat.le_of_lt inside) program
    obtain ⟨counted, taken⟩ := Ram.takesIn_load load
    refine ⟨loaded, load, counted, taken, fun k _ own => ?_⟩
    simp only [InFont] at own
    omega

/-- The settings that a machine has if nothing is chosen are accepted, and a program of 4096 bytes is cut off. -/
theorem default_layout_is_accepted :
    let c : Config := {}
    c.validate = .ok () ∧ (∀ r : Rule, r.Holds c) ∧
      ∃ ram, Ram.blank? 0x50 = some ram ∧ Font.table[79]? = some (ram.read 0x9f) ∧ ram.read 0xa0 = 0 ∧
        ∃ loaded, ram.load? (List.replicate 0x1000 0xaa) 0x200 = some loaded ∧ loaded.value.1 = 0xe00 ∧
          loaded.value.2.read 0x9f = ram.read 0x9f := by
  intro c
  have accepted : c.validate = .ok () := rfl
  obtain ⟨kept, -, laid⟩ := validate_decides_layout c
  obtain ⟨⟨ram, blank, -, sprites, zeros⟩, loads⟩ := laid accepted
  obtain ⟨loaded, load, counted, taken, -⟩ := loads ram (List.replicate 0x1000 0xaa)
  have cut : min (List.replicate 0x1000 (0xaa : UInt8)).length (ramSize - c.bootAddress.toNat) = 0xe00 := by
    rw [List.length_replicate]
    rfl
  have last : c.InFont 0x9f := by unfold InFont; decide
  have next : ¬c.InFont 0xa0 := by unfold InFont; decide
  exact ⟨accepted, kept.mp accepted, ram, blank, (sprites 0x9f last).2, zeros 0xa0 (by decide) next, loaded, load,
    counted.trans cut, taken.kept 0x9f (by decide) (Or.inl (by decide))⟩

-- Of two broken rules the first is named; a window may touch the font.
example : ({ window := ⟨0x50, 0x20⟩, clockMultiplier := 0 } : Config).firstBroken? = some .apart := by decide

example : ({ window := ⟨0xa0, 0x20⟩ } : Config).firstBroken? = none := by decide

end Chip8.Config
