import Chip8.Bench
import Chip8.Proofs.Machine.Bounds
import Chip8.Proofs.Machine.Memory
import Chip8.Proofs.World.Turns

/-!
The font is never overwritten. Guest stores and messages spare it, wherever they go and however long they
are, and a program is loaded behind it; so a sprite that the program asks for is the one in the table.
-/

namespace Chip8

namespace Machine

/-- The font stands where the settings put it, below the beginning of the program. -/
structure Lettered (config : Config) (m : Machine) : Prop where
  boot : m.config.bootAddress = config.bootAddress
  font : m.ram.font = config.fontAddress
  shows : m.ram.ShowsFont

namespace Lettered
variable {config : Config} {m n : Machine}

theorem inside (valid : config.Valid) (h : m.Lettered config) : m.ram.font.toNat + Font.size ≤ ramSize := by
  have below : config.fontStop ≤ config.bootAddress.toNat := valid.font
  have boot : config.bootAddress.toNat < ramSize := valid.boot
  unfold Config.fontStop at below
  rw [h.font]
  omega

theorem of_spares (valid : config.Valid) (h : m.Lettered config)
    (boot : n.config.bootAddress = m.config.bootAddress) (spares : m.ram.Spares n.ram) : n.Lettered config where
  boot := boot.trans h.boot
  font := spares.font.trans h.font
  shows := h.shows.of_spares spares (h.inside valid)

theorem of_same (h : m.Lettered config) (boot : n.config.bootAddress = m.config.bootAddress) (ram : n.ram = m.ram) :
    n.Lettered config where
  boot := boot.trans h.boot
  font := (congrArg Ram.font ram).trans h.font
  shows := by
    rw [ram]
    exact h.shows

theorem of_effect (valid : config.Valid) (h : m.Lettered config) (effect : Effect m n) : n.Lettered config := by
  obtain ⟨logging, clock, same⟩ := effect.config
  have boot : n.config.bootAddress = m.config.bootAddress := by rw [same]
  rcases effect.ram with ram | ⟨bytes, ram⟩
  · exact h.of_same boot ram
  · exact h.of_spares valid boot (ram ▸ Ram.spares_storeAll ..)

theorem cleared (valid : config.Valid) (h : m.Lettered config) (hn : m.cleared? = some n) : n.Lettered config := by
  obtain ⟨ram, clear, font, shows⟩ := Ram.showsFont_clear (h.inside valid)
  rw [cleared?, clear] at hn
  cases hn
  exact ⟨h.boot, font.trans h.font, shows⟩

theorem loaded (valid : config.Valid) (h : m.Lettered config) {program : List UInt8} {loaded : Noted (Nat × Machine)}
    (hl : m.load? program = some loaded) : loaded.value.2.Lettered config := by
  have below : m.ram.font.toNat + Font.size ≤ m.config.bootAddress.toNat := by
    rw [h.font, h.boot]
    exact valid.font
  have inside : m.config.bootAddress.toNat ≤ ramSize := by
    rw [h.boot]
    exact Nat.le_of_lt valid.boot
  obtain ⟨memory, load, rfl⟩ := Option.map_eq_some_iff.mp hl
  obtain ⟨font, shows⟩ := h.shows.load below inside load
  exact ⟨h.boot, font.trans h.font, shows⟩

theorem restarted (valid : config.Valid) (h : m.Lettered config) (again : Restarted m n) : n.Lettered config := by
  cases again with
  | crashed _ => exact h
  | cleared hn => exact h.cleared valid hn
  | loaded hn hl => exact (h.cleared valid hn).loaded valid hl
  | running hn hl => exact ((h.cleared valid hn).loaded valid hl).of_same rfl rfl

theorem fulfilled {done : Executed} (valid : config.Valid) (h : done.machine.Lettered config)
    (fulfilled : Fulfilled done n) : n.Lettered config := by
  cases fulfilled with
  | kept _ => exact h
  | restarted _ again => exact h.restarted valid again

theorem stepped (valid : config.Valid) (h : m.Lettered config) (step : Stepped m n) : n.Lettered config := by
  have counted : m.counted.Lettered config := h.of_same rfl rfl
  cases step with
  | idle _ => exact h
  | key _ _ => exact h.of_same rfl rfl
  | pastEnd _ _ => exact h.of_same rfl rfl
  | @carried _ done k _ executed wish =>
    obtain ⟨pc, status, settled⟩ := k.settled done.value.flow
    rw [settled]
    exact ((counted.of_effect valid (effect_of_execute executed)).fulfilled valid wish).of_same rfl rfl

theorem broken (valid : config.Valid) (h : m.Lettered config) (step : Broken m n) : n.Lettered config := by
  have counted : m.counted.Lettered config := h.of_same rfl rfl
  cases step with
  | crashed _ _ => exact counted
  | failed _ executed _ wish => exact (counted.of_effect valid (effect_of_execute executed)).fulfilled valid wish

/-- No move overwrites the font. -/
theorem turned (valid : config.Valid) (h : m.Lettered config) (turn : Turned m n) : n.Lettered config := by
  cases turn with
  | same => exact h
  | restarted again => exact h.restarted valid again
  | stepped step => exact h.stepped valid step
  | broken step => exact h.broken valid step
  | received text => exact h.of_spares valid rfl (Ram.spares_writeAscii ..)
  | written addr text => exact h.of_spares valid rfl (Ram.spares_writeAscii ..)
  | _ =>
    -- The others leave the memory alone.
    exact h.of_same rfl rfl

/-- The sprite that an instruction asks for is the one of its digit. -/
theorem glyph (valid : config.Valid) (h : m.Lettered config) (value : UInt8) :
    ∃ addr, m.ram.glyphAddress? value = some addr ∧
      m.ram.slice? addr Font.glyphBytes = some (Font.glyph (Fin.ofNat 16 value.toNat)) := by
  have inside := h.inside valid
  have digit : value.toNat % 16 < 16 := Nat.mod_lt _ (by decide)
  have part : value.toNat % 16 * Font.glyphBytes + Font.glyphBytes ≤ Font.size := by
    simp only [Font.glyphBytes, Font.size]
    omega
  have small : m.ram.font.toNat + value.toNat % 16 * Font.glyphBytes < 2 ^ 16 := by
    simp only [ramSize] at inside
    omega
  have place := UInt16.toNat_ofNat_of_lt' small
  exact ⟨_, if_pos small, h.shows.slice? inside place part⟩

end Lettered

/-- A machine shows the font from the beginning. -/
theorem lettered_of_build {config : Config} (valid : config.validate = .ok ()) (entropy : UInt64) :
    ∃ m, build config entropy = .ok m ∧ m.Lettered config := by
  have fits : config.Valid := Config.validate_eq_ok_iff.mp valid
  have inside : config.fontStop ≤ ramSize := Nat.le_of_lt (Nat.lt_of_le_of_lt fits.font fits.boot)
  obtain ⟨ram, blank, font, shows⟩ := Ram.showsFont_blank inside
  simp only [build, valid, blank]
  exact ⟨_, rfl, rfl, font, shows⟩

end Machine

namespace World
variable {δ : Type} [Devices δ]

/-- Whatever is done with a machine whose settings pass their check, and whatever its program does, the
font stays where it is. A program that asks for the sprite of a digit finds it at I. -/
theorem font_stays {config : Config} (valid : config.validate = .ok ()) (entropy : UInt64) (devices : δ)
    (network : Network) :
    ∃ m, Machine.build config entropy = .ok m ∧
      let start : World δ := ⟨m, devices, network, []⟩
      (∀ operations, start.Reaches (start.after operations)) ∧
      ∀ w, start.Reaches w →
        w.machine.ram.slice? config.fontAddress Font.size = some Font.table ∧
        ∀ x, w.machine.next? = some (.loadGlyph x) →
          ∃ after, Act.step w = (.ok (), after) ∧ after.machine.v = w.machine.v ∧
            after.machine.ram.slice? after.machine.i Font.glyphBytes =
              some (Font.glyph (Fin.ofNat 16 w.machine.v[x].toNat)) := by
  obtain ⟨m, built, lettered⟩ := Machine.lettered_of_build valid entropy
  have fits : config.Valid := Config.validate_eq_ok_iff.mp valid
  refine ⟨m, built, reaches_after _, fun w reached => ?_⟩
  have still : w.machine.Lettered config :=
    reached.keeps (fun _ _ turn h => h.turned fits turn) lettered
  constructor
  · have place : config.fontAddress.toNat = w.machine.ram.font.toNat + 0 := by rw [still.font]; rfl
    exact still.shows.slice? (still.inside fits) place (Nat.le_refl _)
  · intro x next
    obtain ⟨addr, found, sprite⟩ := still.glyph fits w.machine.v[x]
    have executed : w.machine.counted.execute (.loadGlyph x) = some ({ w.machine.counted with i := addr }.goOn) :=
      congrArg (Option.map _) found
    obtain ⟨after, pc, status, stepped, same⟩ := Act.step_settles next executed rfl
    refine ⟨after, stepped, ?_⟩
    rw [same]
    exact ⟨rfl, sprite⟩

/-- A program that puts 1A into V0 and asks for a sprite finds the one of A. -/
theorem font_shows_digit :
    let config : Config := { program := some [0x60, 0x1a, 0xf0, 0x29] }
    config.validate = .ok () ∧ ∃ m, Machine.build config 0 = .ok m ∧
      let w := World.after (⟨m, {}, {}, []⟩ : World Bench) [.reset, .step]
      w.machine.next? = some (.loadGlyph 0) ∧ ∃ after, Act.step w = (.ok (), after) ∧
        after.machine.ram.slice? after.machine.i Font.glyphBytes = some [0xf0, 0x90, 0xf0, 0x90, 0x90] := by
  intro config
  have valid : config.validate = .ok () := rfl
  obtain ⟨m, built, reaches, shows⟩ := font_stays valid 0 ({} : Bench) {}
  have run : (Machine.build config 0).toOption.map (fun m =>
      let w := World.after (⟨m, {}, {}, []⟩ : World Bench) [.reset, .step]
      (w.machine.next?, w.machine.v[(0 : Register)])) = some (some (.loadGlyph 0), 0x1a) := by decide +kernel
  rw [built] at run
  obtain ⟨next, digit⟩ := Prod.mk.inj (Option.some.inj run)
  obtain ⟨after, stepped, -, sprite⟩ := (shows _ (reaches [.reset, .step])).2 0 next
  refine ⟨valid, m, built, next, after, stepped, sprite.trans ?_⟩
  rw [digit]
  rfl

end World
end Chip8
