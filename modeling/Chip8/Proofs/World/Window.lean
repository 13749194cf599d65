import Chip8.Proofs.World.MailAddress
import Chip8.Proofs.World.Stopped

/-!
The text window, into which messages come and out of which the guest program sends. What comes in stands there until
the window is written to, and the extension word that sends the window sends what it shows.
-/

namespace Chip8

/-! ### Texts in the window -/

namespace TextWindow

/-- A text stands at the beginning of the window, with a zero byte behind it. -/
structure Shows (window : TextWindow) (ram : Ram) (text : List Char) : Prop where
  room : text.length < window.size.toNat
  bytes : ram.readAll window.address.toNat (text.length + 1) = text.map Ram.asciiByte ++ [0]

variable {window : TextWindow} {ram after : Ram} {text : List Char}

theorem Shows.of_same (h : window.Shows ram text) (inside : window.stop ≤ ramSize)
    (same : ∀ k < ramSize, window.Covers k → after.read k = ram.read k) : window.Shows after text := by
  refine ⟨h.room, (List.map_congr_left fun k hk => ?_).trans h.bytes⟩
  have within := List.mem_range.mp hk
  have room := h.room
  unfold stop at inside
  refine same _ (by omega) ⟨Nat.le_add_right .., ?_⟩
  unfold stop
  omega

end TextWindow

/-- The font keeps out of the window. -/
theorem Config.Valid.isProtected_of_covers {config : Config} (valid : config.Valid) {ram : Ram}
    (font : ram.font = config.fontAddress) {k : Nat} (covers : config.window.Covers k) :
    ram.isProtected (Ram.wrap k) = false := by
  obtain ⟨start, before⟩ := covers
  have inside := valid.window
  have apart := valid.apart
  rw [Ram.wrap_of_lt (Nat.lt_of_lt_of_le before inside), ← Bool.not_eq_true, Ram.isProtected_iff, font]
  unfold Config.fontStop at apart
  omega

/-- A text that stands in the window is read as what it shows. -/
theorem TextWindow.Shows.readAscii {config : Config} (valid : config.Valid) {ram : Ram}
    (font : ram.font = config.fontAddress) {text : List Char} (h : config.window.Shows ram text) :
    (ram.readAscii config.window.address.toNat config.window.size.toNat).value =
      String.ofList (Ram.shownText text) := by
  have bytes := h.bytes
  rw [Ram.readAll_concat] at bytes
  obtain ⟨stored, ends⟩ := List.append_inj' bytes rfl
  refine congrArg String.ofList (Ram.asciiAt_of_readAll (Nat.le_of_lt h.room) stored (fun k hk => ?_) ?_)
  · have room := h.room
    refine valid.isProtected_of_covers font ⟨Nat.le_add_right .., ?_⟩
    unfold TextWindow.stop
    omega
  · exact Or.inl (List.singleton_injective ends)

namespace Machine

/-- A message that comes in stands in the window, as much of it as there is room for. -/
theorem shows_receive {m : Machine} {config : Config} (valid : config.Valid) (lettered : m.Lettered config)
    (configured : m.Configured config) (payload : String) :
    config.window.Shows (m.receive payload).value.2.ram
      (payload.toList.take (min payload.length (config.window.size.toNat - 1))) := by
  obtain ⟨count, bytes⟩ := World.receive_window valid lettered configured payload
  have positive : 0 < config.window.size.toNat :=
    Nat.pos_of_ne_zero fun zero => valid.room (UInt16.toNat_inj.mp zero)
  rw [count, Nat.min_comm] at bytes
  have length : (payload.toList.take (min payload.length (config.window.size.toNat - 1))).length =
      min payload.length (config.window.size.toNat - 1) := by
    rw [List.length_take, String.length_toList]
    omega
  refine ⟨by omega, ?_⟩
  rw [length]
  exact bytes

/-- What the guest program sends out of the window, to the node whose name stands at I. -/
def windowData (m : Machine) : Data where
  target := (Extension.readField m.ram m.i.toNat Extension.targetLimit).value
  payload := (m.ram.readAscii m.config.window.address.toNat m.config.window.size.toNat).value

theorem execute_sendData (m : Machine) :
    ∃ done, m.execute (.extension Extension.sendData) = some done ∧
      done.value = { machine := m, request := .dispatch (.data m.windowData) } := ⟨_, rfl, rfl⟩

end Machine

/-! ### Dispatching -/

namespace World
variable {δ : Type} [Devices δ] {w : World δ}

/-- The next step has a result, and all that the network notices of it is that an envelope is dispatched. -/
def NextDispatches (w : World δ) (envelope : Envelope) : Prop :=
  ∃ before later after, Act.step w = (.ok (), after) ∧ (∀ e ∈ later ++ before, e.source ≠ .network) ∧
    let sent := (Session.perform ⟨w.network, before ++ w.trace⟩ (.dispatch envelope)).2
    after.network = sent.network ∧ after.trace = later ++ sent.trace

theorem nextDispatches_of_next {instruction : Instruction} {done : Noted Executed} {envelope : Envelope}
    (next : w.machine.next? = some instruction) (executed : w.machine.counted.execute instruction = some done)
    (wish : done.value.request = .dispatch envelope) : w.NextDispatches envelope := by
  obtain ⟨before, stepped, foreign⟩ := Act.step_of_execute next executed
  have called := Act.call_apply (.dispatch envelope)
    ({ w with machine := done.value.machine, trace := before ++ w.trace } : World δ)
  obtain ⟨later, settled, foreign'⟩ := Act.settle_notes done.value.flow (Act.call (.dispatch envelope)
    ({ w with machine := done.value.machine, trace := before ++ w.trace } : World δ)).2
  rw [wish] at stepped
  refine ⟨before, later, _, stepped.trans ((Act.bind_of_ok called _).trans settled), ?_, rfl, rfl⟩
  exact fun e he => (List.mem_append.mp he).elim (foreign' e) (foreign e)

/-! ### In and out again -/

/-- A message that comes in is copied into the window as far as there is room for it, and nothing else changes, neither
in memory nor outside. As long as the window is not written to, whatever is done meanwhile, the extension word that sends
it sends what the copied part shows. -/
theorem window_loops_back {config : Config} (reached : w.Reachable config) (payload : String) :
    let count := min payload.length (config.window.size.toNat - 1)
    ∃ received, Act.receive payload w = (.ok count, received) ∧
      (∀ k < ramSize, ¬config.window.Covers k → received.machine.ram.read k = w.machine.ram.read k) ∧
      received.machine = { w.machine with ram := received.machine.ram } ∧ received.devices = w.devices ∧
      received.network = w.network ∧
      ∀ u : World δ, received.Reaches u →
        (∀ k < ramSize, config.window.Covers k → u.machine.ram.read k = received.machine.ram.read k) →
        u.machine.status = .running → u.machine.config.compatibility = false →
        u.machine.ram.word? u.machine.pc = some 0x0e30 →
        u.NextDispatches (.data {
          target := (Extension.readField u.machine.ram u.machine.i.toNat 31).value
          payload := String.ofList (Ram.shownText (payload.toList.take count)) }) := by
  intro count
  obtain ⟨valid, lettered, configured⟩ := reached.settings
  have window : ∀ {m : Machine}, m.Configured config → m.config.window = config.window := by
    rintro m ⟨logging, clock, same⟩
    rw [same]
  have copied : (w.machine.receive payload).value.1 = count :=
    (receive_window valid lettered configured payload).1.trans (Nat.min_comm ..)
  have shows := Machine.shows_receive valid lettered configured payload
  refine ⟨_, congrArg (fun n => (Except.ok n, _)) copied, fun k hk outside => ?_, rfl, rfl, rfl, ?_⟩
  · refine Decidable.byContradiction fun changed => outside ?_
    rw [← window configured]
    exact Machine.covers_of_receive (by rw [window configured]; exact valid.window) hk changed
  · intro u moves same running extended word
    have reachedU : u.Reachable config := reached.reaches (.trans ⟨[.receive payload], rfl⟩ moves)
    obtain ⟨-, letteredU, configuredU⟩ := reachedU.settings
    have next : u.machine.next? = some (.extension Extension.sendData) := by
      refine Machine.next?_eq_some_iff.mpr ⟨running, 0x0e30, word, ?_⟩
      rw [extended]
      rfl
    obtain ⟨done, executed, sends⟩ := u.machine.counted.execute_sendData
    have shown := (shows.of_same valid.window same).readAscii valid letteredU.font
    have data : u.machine.counted.windowData =
        ⟨(Extension.readField u.machine.ram u.machine.i.toNat 31).value,
          String.ofList (Ram.shownText (payload.toList.take count))⟩ := by
      unfold Machine.windowData
      rw [show u.machine.counted.config.window = config.window from window configuredU]
      exact congrArg (Data.mk _) shown
    refine nextDispatches_of_next next executed ?_
    rw [sends, ← data]

/-- Five characters come into a window of four bytes right behind the font. The program names its node, and then sends
what there was room for. -/
theorem window_sends_what_fits :
    let config : Config :=
      { compatibility := false, window := ⟨0xa0, 4⟩, program := some [0xa2, 0x04, 0x0e, 0x30, 0x4c, 0x6f, 0x67, 0] }
    let payload := String.ofList ['é', Char.ofNat 1, 'b', 'c', 'd']
    ∃ m, Machine.build config 0 = .ok m ∧
      let w := World.after (⟨m, {}, {}, []⟩ : World Bench) [.reset]
      let received := (Act.receive payload w).2
      let u := received.after [.step]
      w.Reachable config ∧ Act.receive payload w = (.ok 3, received) ∧ received.Reaches u ∧
        (∀ k < ramSize, config.window.Covers k → u.machine.ram.read k = received.machine.ram.read k) ∧
        u.machine.status = .running ∧ u.machine.config.compatibility = false ∧
        u.machine.ram.word? u.machine.pc = some 0x0e30 ∧ u.NextDispatches (.data ⟨"Log", "?b"⟩) := by
  intro config payload
  obtain ⟨m, built, running, extended, word, kept, named⟩ := exists_after config 0 ({} : Bench) {} [.reset]
    (fun w =>
      let received := (Act.receive payload w).2
      let u := received.after [.step]
      u.machine.status = .running ∧ u.machine.config.compatibility = false ∧
        u.machine.ram.word? u.machine.pc = some 0x0e30 ∧
        u.machine.ram.readAll 0xa0 4 = received.machine.ram.readAll 0xa0 4 ∧
        (Extension.readField u.machine.ram u.machine.i.toNat 31).value = "Log")
    (by decide +kernel)
  refine ⟨m, built, ?_⟩
  have reached : World.Reachable config (World.after (⟨m, {}, {}, []⟩ : World Bench) [.reset]) :=
    reachable_after built ({} : Bench) {} [.reset]
  dsimp only
  generalize World.after (⟨m, {}, {}, []⟩ : World Bench) [.reset] = w at reached running extended word kept named ⊢
  have room : min payload.length (config.window.size.toNat - 1) = 3 := by decide +kernel
  have shown : String.ofList (Ram.shownText (payload.toList.take 3)) = "?b" := by decide +kernel
  obtain ⟨received, receives, -, -, -, -, sends⟩ := window_loops_back reached payload
  rw [room] at receives
  rw [room, shown] at sends
  rw [receives] at running extended word kept named ⊢
  have moves : received.Reaches (received.after [.step]) := reaches_after received [.step]
  have same : ∀ k < ramSize, config.window.Covers k →
      (received.after [.step]).machine.ram.read k = received.machine.ram.read k := by
    rintro k - ⟨start, before⟩
    have low : 0xa0 ≤ k := start
    have high : k < 0xa0 + 4 := before
    have read := List.map_inj_left.mp kept (k - 0xa0) (List.mem_range.mpr (by omega))
    rwa [Nat.add_sub_cancel' low] at read
  have dispatches := sends _ moves same running extended word
  rw [named] at dispatches
  exact ⟨reached, rfl, moves, same, running, extended, word, dispatches⟩

end World
end Chip8
