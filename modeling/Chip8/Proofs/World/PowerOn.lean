import Chip8.Proofs.World.Font

/-!
A reset is a start from the beginning. What was done with the machine before leaves no trace in it: the program
and the font stand in a memory that is blank elsewhere, and all that a program can see is as it was when the
machine was first switched on, but for the settings that it has changed itself, the tone and the random numbers.
-/

namespace Chip8

namespace Ram

/-- What memory holds at the start of a program: the font, as much of the program as fits, and zeros. -/
structure Holds (ram : Ram) (font boot : UInt16) (program : List UInt8) : Prop where
  place : ram.font = font
  sprites : ∀ k < Font.size, Font.table[k]? = some (ram.read (font.toNat + k))
  loaded : ∀ k < min program.length (ramSize - boot.toNat), program[k]? = some (ram.read (boot.toNat + k))
  blank : ∀ k < ramSize, ¬(font.toNat ≤ k ∧ k < font.toNat + Font.size) →
    ¬(boot.toNat ≤ k ∧ k < boot.toNat + min program.length (ramSize - boot.toNat)) → ram.read k = 0

variable {ram after : Ram} {font boot : UInt16} {program : List UInt8} {k : Nat}

/-- A program that is copied into cleared memory, behind the font. -/
theorem holds_load {loaded : Noted (Nat × Ram)} (below : ram.font.toNat + Font.size ≤ boot.toNat)
    (inside : boot.toNat ≤ ramSize) (clear : ram.clear? = some after) (h : after.load? program boot = some loaded) :
    loaded.value.2.Holds ram.font boot program := by
  have fits : ram.font.toNat + Font.size ≤ ramSize := by omega
  obtain ⟨cleared, clear', font, shows⟩ := showsFont_clear fits
  obtain rfl := Option.some.inj (clear.symm.trans clear')
  obtain ⟨place, shows⟩ := shows.load (font ▸ below) inside h
  obtain ⟨counted, taken⟩ := takesIn_load h
  refine ⟨place.trans font, ?_, ?_, ?_⟩
  · intro k hk
    rw [shows k hk, place, font]
  · intro k hk
    exact taken.stored k (counted ▸ hk)
  · intro k hk own fresh
    rw [taken.kept k hk (by omega), zero_of_clear clear hk own]

theorem ext_read (place : after.font = ram.font) (same : ∀ k < ramSize, after.read k = ram.read k) : after = ram := by
  obtain ⟨bytes, font⟩ := ram
  obtain ⟨bytes', font'⟩ := after
  obtain rfl : font' = font := place
  congr 1
  refine Vector.ext fun k hk => ?_
  have equal := same k hk
  simpa only [read, wrap_of_lt hk] using equal

/-- No two memories hold the same in all three respects. -/
theorem Holds.unique (h : ram.Holds font boot program) (h' : after.Holds font boot program) : after = ram := by
  refine ext_read (h'.place.trans h.place.symm) fun k hk => ?_
  by_cases own : font.toNat ≤ k ∧ k < font.toNat + Font.size
  · obtain ⟨offset, rfl⟩ := Nat.exists_eq_add_of_le own.1
    have part : offset < Font.size := by omega
    exact Option.some.inj ((h'.sprites offset part).symm.trans (h.sprites offset part))
  by_cases loaded : boot.toNat ≤ k ∧ k < boot.toNat + min program.length (ramSize - boot.toNat)
  · obtain ⟨offset, rfl⟩ := Nat.exists_eq_add_of_le loaded.1
    have part : offset < min program.length (ramSize - boot.toNat) := by omega
    exact Option.some.inj ((h'.loaded offset part).symm.trans (h.loaded offset part))
  · rw [h'.blank k hk own loaded, h.blank k hk own loaded]

end Ram

/-- The program that a reset copies in, if it can be had. -/
def Config.program? {δ : Type} [Devices δ] (config : Config) (devices : δ) : Option (List UInt8) :=
  match config.program, config.romPath with
  | some program, _ => some program
  | none, some path => (Devices.load path devices).value.1.toOption
  | none, none => some demoProgram

namespace Machine

/-- A machine at the start of a program. -/
structure PowerOn (config : Config) (program : List UInt8) (m : Machine) : Prop where
  v : m.v = Vector.replicate _ 0
  i : m.i = 0
  pc : m.pc = config.bootAddress
  dt : m.dt = 0
  st : m.st = 0
  sp : m.sp = 0
  stack : m.stack = Vector.replicate _ 0
  keys : m.keys = .none
  instructions : m.instructions = 0
  screen : m.screen = .blank
  status : m.status = .running
  ram : m.ram.Holds config.fontAddress config.bootAddress program

/-- Two machines agree on all that a reset is about. -/
structure SameStart (m n : Machine) : Prop where
  v : n.v = m.v
  i : n.i = m.i
  pc : n.pc = m.pc
  dt : n.dt = m.dt
  st : n.st = m.st
  sp : n.sp = m.sp
  stack : n.stack = m.stack
  keys : n.keys = m.keys
  instructions : n.instructions = m.instructions
  screen : n.screen = m.screen
  status : n.status = m.status
  ram : n.ram = m.ram

section
variable {config config' : Config} {program : List UInt8} {m n : Machine}

theorem PowerOn.same (h : m.PowerOn config program) (h' : n.PowerOn config' program)
    (boot : config'.bootAddress = config.bootAddress) (font : config'.fontAddress = config.fontAddress) :
    m.SameStart n where
  v := h'.v.trans h.v.symm
  i := h'.i.trans h.i.symm
  pc := h'.pc.trans (boot.trans h.pc.symm)
  dt := h'.dt.trans h.dt.symm
  st := h'.st.trans h.st.symm
  sp := h'.sp.trans h.sp.symm
  stack := h'.stack.trans h.stack.symm
  keys := h'.keys.trans h.keys.symm
  instructions := h'.instructions.trans h.instructions.symm
  screen := h'.screen.trans h.screen.symm
  status := h'.status.trans h.status.symm
  ram := by
    have held := h'.ram
    rw [boot, font] at held
    exact h.ram.unique held

/-- A reset is about all but the settings, the tone, the random numbers and the inbox. -/
theorem SameStart.eq (h : m.SameStart n) (config : n.config = m.config) (toneOn : n.toneOn = m.toneOn)
    (random : n.random = m.random) (inbox : n.inbox = m.inbox) : n = m := by
  rcases m with ⟨⟩
  rcases n with ⟨⟩
  rw [Machine.mk.injEq]
  exact ⟨config, h.ram, h.screen, h.v, h.i, h.pc, h.dt, h.st, h.sp, h.stack, h.keys, h.status, h.instructions, toneOn,
    random, inbox⟩

/-- What a machine keeps of its settings: all but the log and the clock, which its program may turn. -/
def Configured (config : Config) (m : Machine) : Prop :=
  ∃ logging clock, m.config = { config with logging, clockMultiplier := clock }

theorem Configured.of_same (h : m.Configured config) (same : n.config = m.config) : n.Configured config := by
  obtain ⟨logging, clock, configured⟩ := h
  exact ⟨logging, clock, same.trans configured⟩

theorem Configured.of_effect (h : m.Configured config) (effect : Effect m n) : n.Configured config := by
  obtain ⟨logging, clock, configured⟩ := h
  obtain ⟨logging', clock', turned⟩ := effect.config
  refine ⟨logging', clock', ?_⟩
  rw [turned, configured]

theorem Configured.restarted (h : m.Configured config) (again : Restarted m n) : n.Configured config := by
  rcases again.eq_or with rfl | ⟨ram, status, rfl⟩
  · exact h
  · exact h.of_same rfl

theorem Configured.fulfilled {done : Executed} (h : done.machine.Configured config) (fulfilled : Fulfilled done n) :
    n.Configured config := by
  cases fulfilled with
  | kept _ => exact h
  | restarted _ again => exact h.restarted again

theorem Configured.turned (h : m.Configured config) (turn : Turned m n) : n.Configured config := by
  have counted : m.counted.Configured config := h.of_same rfl
  cases turn with
  | restarted again => exact h.restarted again
  | stepped step =>
    cases step with
    | idle | key | pastEnd => exact h.of_same rfl
    | @carried _ done k _ executed wish =>
      obtain ⟨pc, status, settled⟩ := k.settled done.value.flow
      rw [settled]
      exact ((counted.of_effect (effect_of_execute executed)).fulfilled wish).of_same rfl
  | broken step =>
    cases step with
    | crashed => exact counted
    | failed _ executed _ wish => exact (counted.of_effect (effect_of_execute executed)).fulfilled wish
  | same | ticked | received | written | connected | polled => exact h.of_same rfl

end

/-- The machine that a reset clears and loads stands at the start of its program. -/
theorem powerOn_of_loaded {config : Config} {program : List UInt8} {m n : Machine} {loaded : Noted (Nat × Machine)}
    (valid : config.Valid) (lettered : m.Lettered config) (cleared : m.cleared? = some n)
    (found : n.load? program = some loaded) :
    PowerOn config program { loaded.value.2 with status := .running } := by
  obtain ⟨ram, clear, rfl⟩ := Option.map_eq_some_iff.mp cleared
  obtain ⟨memory, load, rfl⟩ := Option.map_eq_some_iff.mp found
  have below : m.ram.font.toNat + Font.size ≤ m.config.bootAddress.toNat := by
    rw [lettered.font, lettered.boot]
    exact valid.font
  have inside : m.config.bootAddress.toNat ≤ ramSize := by
    rw [lettered.boot]
    exact Nat.le_of_lt valid.boot
  have held := Ram.holds_load below inside clear load
  rw [lettered.font, lettered.boot] at held
  exact ⟨rfl, rfl, lettered.boot, rfl, rfl, rfl, rfl, rfl, rfl, rfl, rfl, held⟩

end Machine

namespace Act
variable {δ : Type} [Devices δ]

theorem ends_chooseProgram (config : Config) (w : World δ) :
    (chooseProgram config).Ends w
      (fun program after => config.program? w.devices = some program ∧ after.machine = w.machine) fun _ _ => True := by
  unfold chooseProgram Config.program?
  rcases config.program with _ | program
  · rcases config.romPath with _ | path
    · exact ⟨rfl, rfl⟩
    · unfold Ends loadFile callDevice
      dsimp only
      rcases (Devices.load path w.devices).value.1 with cause | program
      · trivial
      · exact ⟨rfl, rfl⟩
  · exact ⟨rfl, rfl⟩

/-- What a reset that succeeds has cleared and loaded. -/
theorem reset_ok {w after : World δ} (run : reset w = (.ok (), after)) :
    ∃ n program loaded, w.machine.cleared? = some n ∧ w.machine.config.program? w.devices = some program ∧
      n.load? program = some loaded ∧ after.machine = { loaded.value.2 with status := .running } := by
  have ends : (reset : Act δ Unit).Ends w (fun _ after => ∃ n program loaded, w.machine.cleared? = some n ∧
      w.machine.config.program? w.devices = some program ∧ n.load? program = some loaded ∧
      after.machine = { loaded.value.2 with status := .running }) fun _ _ => True := by
    unfold reset
    rw [ends_bind, ends_machine, ends_bind]
    rcases cleared : w.machine.cleared? with _ | n
    · trivial
    have config : n.config = w.machine.config := by
      obtain ⟨ram, -, rfl⟩ := Option.map_eq_some_iff.mp cleared
      rfl
    rw [ends_require_some, ends_bind, ends_setMachine]
    refine (ends_chooseProgram n.config _).bind fun program chosen ⟨found, same⟩ => ?_
    rw [ends_bind]
    rcases load : n.load? program with _ | loaded
    · trivial
    rw [ends_require_some, ends_bind, ends_noted, ends_bind, ends_setMachine]
    have shown : ∀ w : World δ, present.Ends w (fun _ _ => True) fun _ _ => True := by
      intro w
      unfold Ends
      split <;> trivial
    exact (shown _).bind fun _ _ _ => ⟨n, program, loaded, rfl, config ▸ found, load, rfl⟩
  unfold Ends at ends
  rw [run] at ends
  exact ends

end Act

namespace World
variable {δ ε : Type} [Devices δ] [Devices ε]

/-- A world to which moves lead from a machine that was just built. -/
def Reachable (config : Config) (w : World δ) : Prop :=
  ∃ entropy m devices network, Machine.build config entropy = .ok m ∧ Reaches ⟨m, devices, network, []⟩ w

theorem reachable_after {config : Config} {entropy : UInt64} {m : Machine} (built : Machine.build config entropy = .ok m)
    (devices : δ) (network : Network) (operations : List Operation) :
    Reachable config (World.after ⟨m, devices, network, []⟩ operations) :=
  ⟨entropy, m, devices, network, built, reaches_after _ operations⟩

theorem Reachable.reaches {config : Config} {w after : World δ} (h : w.Reachable config) (moves : w.Reaches after) :
    after.Reachable config := by
  obtain ⟨entropy, m, devices, network, built, reached⟩ := h
  exact ⟨entropy, m, devices, network, built, reached.trans moves⟩

theorem valid_of_build {config : Config} {entropy : UInt64} {m : Machine}
    (built : Machine.build config entropy = .ok m) : config.validate = .ok () := by
  unfold Machine.build at built
  split at built
  · cases built
  · next valid => exact valid

theorem config_of_build {config : Config} {entropy : UInt64} {m : Machine}
    (built : Machine.build config entropy = .ok m) : m.config = config := by
  unfold Machine.build at built
  split at built
  · cases built
  · split at built
    · cases built
    · cases built
      rfl

/-- The settings of a machine fit together, its font stands where they say, and it keeps all of them but two. -/
theorem Reachable.settings {config : Config} {w : World δ} (h : w.Reachable config) :
    config.Valid ∧ w.machine.Lettered config ∧ w.machine.Configured config := by
  obtain ⟨entropy, m, devices, network, built, reached⟩ := h
  have valid := valid_of_build built
  have fits : config.Valid := Config.validate_eq_ok_iff.mp valid
  obtain ⟨m', built', lettered⟩ := Machine.lettered_of_build valid entropy
  obtain rfl := Except.ok.inj (built.symm.trans built')
  have configured : m.Configured config := ⟨_, _, config_of_build built⟩
  exact ⟨fits, reached.keeps (fun _ _ turn h => h.turned fits turn) lettered,
    reached.keeps (fun _ _ turn h => h.turned turn) configured⟩

theorem Reachable.reset {config : Config} {w after : World δ} (h : w.Reachable config)
    (run : Act.reset w = (.ok (), after)) : after.Reachable config :=
  h.reaches ⟨[.reset], by rw [through_cons]; exact (congrArg Prod.snd run).symm⟩

/-- A reset that succeeds, whatever was done before, leaves the machine at the start of the configured program. -/
theorem Reachable.powerOn {config : Config} {w after : World δ} (h : w.Reachable config)
    (run : Act.reset w = (.ok (), after)) :
    ∃ program, config.program? w.devices = some program ∧ after.machine.PowerOn config program := by
  obtain ⟨valid, lettered, logging, clock, configured⟩ := h.settings
  obtain ⟨n, program, loaded, cleared, chosen, found, same⟩ := Act.reset_ok run
  rw [configured] at chosen
  refine ⟨program, chosen, ?_⟩
  rw [same]
  exact Machine.powerOn_of_loaded valid lettered cleared found

/-- A second reset that finds the same program changes nothing of the machine. -/
theorem Reachable.reset_again {config : Config} {w after again : World δ} (h : w.Reachable config)
    (run : Act.reset w = (.ok (), after)) (run' : Act.reset after = (.ok (), again))
    (program : config.program? after.devices = config.program? w.devices) : again.machine = after.machine := by
  obtain ⟨bytes, chosen, start⟩ := h.powerOn run
  obtain ⟨bytes', chosen', start'⟩ := (h.reset run).powerOn run'
  rw [program, chosen] at chosen'
  obtain rfl := Option.some.inj chosen'
  have same := start.same start' rfl rfl
  obtain ⟨n, program, loaded, cleared, -, found, left⟩ := Act.reset_ok run'
  have restarted : after.machine.Restarted again.machine := left ▸ .running cleared found
  rcases restarted.eq_or with unchanged | ⟨ram, status, unchanged⟩
  · exact unchanged
  · exact same.eq (by rw [unchanged]) (by rw [unchanged]) (by rw [unchanged]) (by rw [unchanged])

/-- A reset is a start from the beginning. Of two machines with the same places for the font and the program and
the same program to load, whatever was done with them before, both agree after a reset that succeeds. The memory
holds the font, what fits of the program, and zeros; and a second reset that succeeds with the same program leaves
the whole machine as it is. -/
theorem reset_forgets_history {config config' : Config} (boot : config'.bootAddress = config.bootAddress)
    (font : config'.fontAddress = config.fontAddress) {w after : World δ} {w' after' : World ε}
    (reached : w.Reachable config) (reached' : w'.Reachable config')
    (program : config'.program? w'.devices = config.program? w.devices)
    (run : Act.reset w = (.ok (), after)) (run' : Act.reset w' = (.ok (), after')) :
    after.machine.SameStart after'.machine ∧
    (∃ bytes, config.program? w.devices = some bytes ∧ after.machine.PowerOn config bytes) ∧
    ∀ again, Act.reset after = (.ok (), again) → config.program? after.devices = config.program? w.devices →
      again.machine = after.machine := by
  obtain ⟨bytes, chosen, start⟩ := reached.powerOn run
  obtain ⟨bytes', chosen', start'⟩ := reached'.powerOn run'
  rw [program, chosen] at chosen'
  obtain rfl := Option.some.inj chosen'
  refine ⟨start.same start' boot font, ⟨bytes, chosen, start⟩, ?_⟩
  intro again twice same
  exact reached.reset_again run twice same

/-- A program that has overwritten itself and then halted starts like the same program from a file. -/
theorem halted_program_starts_anew :
    let bytes : List UInt8 := [0x60, 0x07, 0xa2, 0x00, 0xf0, 0x55, 0x00, 0xee]
    let config : Config := { program := some bytes }
    let config' : Config := { romPath := some "game", clockMultiplier := 3 }
    ∃ m m', Machine.build config 0 = .ok m ∧ Machine.build config' 1 = .ok m' ∧
      let w := World.after (⟨m, {}, {}, []⟩ : World Bench) [.reset, .step, .step, .step, .step]
      let w' := World.after (⟨m', Bench.addFile {} "game" bytes, {}, []⟩ : World Bench) [.reset, .receive "text"]
      (w.machine.status = .halted (.stackUnderflow 0x206) ∧ w.machine.ram.read 0x200 = 0x07) ∧
        config'.program? w'.devices = config.program? w.devices ∧
        ∃ after after', Act.reset w = (.ok (), after) ∧ Act.reset w' = (.ok (), after') ∧
          after.machine.SameStart after'.machine ∧
          ∃ again, Act.reset after = (.ok (), again) ∧ again.machine = after.machine := by
  intro bytes config config'
  obtain ⟨m, built, halted, done, twice⟩ := exists_after config 0 ({} : Bench) {} [.reset, .step, .step, .step, .step]
    (fun w => (w.machine.status = .halted (.stackUnderflow 0x206) ∧ w.machine.ram.read 0x200 = 0x07) ∧
      (Act.reset w).1.isOk = true ∧ (Act.reset (Act.reset w).2).1.isOk = true)
    (by decide +kernel)
  obtain ⟨m', built', found, done'⟩ := exists_after config' 1 (Bench.addFile {} "game" bytes) {} [.reset, .receive "text"]
    (fun w => config'.program? w.devices = some bytes ∧ (Act.reset w).1.isOk = true)
    (by decide +kernel)
  refine ⟨m, m', built, built', ?_⟩
  have reached := reachable_after built ({} : Bench) {} [.reset, .step, .step, .step, .step]
  have reached' := reachable_after built' (Bench.addFile {} "game" bytes) {} [.reset, .receive "text"]
  dsimp only
  generalize World.after (⟨m, {}, {}, []⟩ : World Bench) _ = w at reached halted done twice ⊢
  generalize World.after (⟨m', Bench.addFile {} "game" bytes, {}, []⟩ : World Bench) _ = w' at reached' found done' ⊢
  have ended : ∀ {w : World Bench}, (Act.reset w).1.isOk = true → Act.reset w = (.ok (), (Act.reset w).2) := by
    intro w h
    rcases run : Act.reset w with ⟨_ | _, after⟩
    · rw [run] at h
      cases h
    · rfl
  have given : ∀ devices : Bench, config.program? devices = some bytes := fun _ => rfl
  have same : config'.program? w'.devices = config.program? w.devices := found.trans (given _).symm
  have boot : config'.bootAddress = config.bootAddress := rfl
  have font : config'.fontAddress = config.fontAddress := rfl
  obtain ⟨start, -, again⟩ := reset_forgets_history boot font reached reached' same (ended done) (ended done')
  exact ⟨halted, same, _, _, ended done, ended done', start, _, ended twice,
    again _ (ended twice) ((given _).trans (given _).symm)⟩

end World
end Chip8
