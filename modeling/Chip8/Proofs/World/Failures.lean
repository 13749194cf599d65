import Chip8.Proofs.World.Composed
import Chip8.Proofs.World.PowerOn
import Chip8.Proofs.World.Tone

/-!
Where failures come from. Whatever is done with a machine is put together from single steps, of which only the calls
of devices can fail, and a step that fails is the last one. So an operation fails if and only if a device did, it
fails with what that device has answered, and all is left as it was at that moment.
-/

namespace Chip8

/-- How devices fail a call: with which fault, and what they are afterwards. -/
inductive DeviceCall.Fails {δ : Type} [Devices δ] (devices : δ) : DeviceCall → Fault → δ → Prop
  | present {screen cause after} : (Devices.present screen devices).value = (.error cause, after) →
      Fails devices (.present screen) (.io cause) after
  | keys {cause after} : (Devices.keys devices).value = (.error cause, after) → Fails devices .keys (.io cause) after
  | beep {text after} : (Devices.beep devices).value = (.error text, after) → Fails devices .beep (.sound text) after
  | stop {text after} : (Devices.stop devices).value = (.error text, after) → Fails devices .stop (.sound text) after
  | load {path cause after} : (Devices.load path devices).value = (.error cause, after) →
      Fails devices (.load path) (.io cause) after

/-- A call fails in a world, and nothing is done after it: but for what the devices make of themselves and what is
noted of the call, the world is left as it was. -/
structure World.CutShort {δ : Type} [Devices δ] (w : World δ) (c : DeviceCall) (fault : Fault) (after : World δ) :
    Prop where
  fails : c.Fails w.devices fault after.devices
  machine : after.machine = w.machine
  network : after.network = w.network
  trace : ∃ notes, after.trace = .called c (some fault) :: notes ++ w.trace ∧ ∀ e ∈ notes, e.ofDevice = true

theorem World.CutShort.calls {δ : Type} [Devices δ] {w after : World δ} {c : DeviceCall} {fault : Fault}
    (h : w.CutShort c fault after) : after.calls = w.calls ++ [(c, some fault)] := by
  obtain ⟨notes, trace, own⟩ := h.trace
  exact World.calls_of_called trace own

namespace Act
variable {δ α β : Type}

theorem callDevice_failed {ε : Type} {c : DeviceCall} {wrap : ε → Fault} {f : δ → Noted (Except ε α × δ)}
    {w after : World δ} {fault : Fault} (run : callDevice c wrap f w = (.error fault, after)) :
    ∃ cause, fault = wrap cause ∧ (f w.devices).value = (.error cause, after.devices) ∧
      after.machine = w.machine ∧ after.network = w.network ∧
      ∃ notes, after.trace = .called c (some fault) :: notes ++ w.trace ∧ ∀ e ∈ notes, e.ofDevice = true := by
  have ended := ends_callDevice c wrap f w
  unfold Ends at ended
  rw [run] at ended
  obtain ⟨-, left⟩ := ended
  unfold callDevice at run
  rcases answer : (f w.devices).value with ⟨cause | a, devices⟩
  · simp only [answer] at run
    cases run
    exact ⟨cause, rfl, rfl, left⟩
  · simp only [answer] at run
    cases run

variable [Devices δ]

/-- Put together from single steps. Only the calls of devices are noted as such, and what the devices are only
shows in their answers. -/
inductive Stepwise : {α : Type} → Act δ α → Prop
  | pure {α : Type} (a : α) : Stepwise (Pure.pure a : Act δ α)
  | bind {α β : Type} {x : Act δ α} {f : α → Act δ β} : Stepwise x → (∀ a, Stepwise (f a)) → Stepwise (x >>= f)
  | require_bind {α β : Type} {o : Option α} {f : α → Act δ β} : (∀ a, o = some a → Stepwise (f a)) →
      Stepwise (Act.require o >>= f)
  | machine : Stepwise Act.machine
  | setMachine (m : Machine) : Stepwise (Act.setMachine m)
  | note {e : Event} (silent : e.call? = none) : Stepwise (Act.note e)
  | noted {α : Type} {x : Noted α} (silent : NoCalls x.notes) : Stepwise (Act.noted x)
  | onNetwork {α : Type} {f : Session → α × Session} (tidy : ∀ s : Session, s.Tidy (f s).2) :
      Stepwise (Act.onNetwork f)
  | quitRequested : Stepwise Act.quitRequested
  | callDevice {α ε : Type} {c : DeviceCall} {wrap : ε → Fault} {f : δ → Noted (Except ε α × δ)}
      (fails : ∀ {devices cause after}, (f devices).value = (.error cause, after) → c.Fails devices (wrap cause) after) :
      Stepwise (Act.callDevice c wrap f)

/-- What is done from a world comes to a call of a device in another one: before it, single steps were made. -/
inductive ComesTo (c : DeviceCall) (u : World δ) : {α : Type} → Act δ α → World δ → Prop
  | here {α ε : Type} {wrap : ε → Fault} {f : δ → Noted (Except ε α × δ)} : ComesTo c u (callDevice c wrap f) u
  | first {α β : Type} {x : Act δ α} {f : α → Act δ β} {w : World δ} : ComesTo c u x w → ComesTo c u (x >>= f) w
  | later {α β : Type} {x : Act δ α} {f : α → Act δ β} {w v : World δ} {a : α} : Stepwise x → x w = (.ok a, v) →
      ComesTo c u (f a) v → ComesTo c u (x >>= f) w

/-- A device fails, and that is the end: the calls before it have succeeded, and none comes after it. -/
def EndsWithDevice (x : Act δ α) (w : World δ) (fault : Fault) (after : World δ) : Prop :=
  ∃ before c u, after.calls = w.calls ++ succeeded before ++ [(c, some fault)] ∧ ComesTo c u x w ∧
    u.CutShort c fault after

namespace Stepwise
variable {x : Act δ α} {w after : World δ} {fault : Fault}

theorem calls (h : Stepwise x) (m : Machine) : Calls m x fun _ _ _ => True := by
  induction h generalizing m with
  | pure a => exact .pure trivial
  | bind _ _ ih ih' => exact (ih m).bind fun a n _ _ => (ih' a n).imp fun _ _ _ _ => trivial
  | require_bind _ ih => exact .require_bind fun a found => ih a found m
  | machine => exact .of_noCalls fun _ _ => ⟨rfl, trivial⟩
  | setMachine n => exact .setMachine trivial
  | note silent => exact .note silent trivial
  | @noted _ x silent =>
    have reversed : NoCalls x.notes.reverse := fun e he => silent e (List.mem_reverse.mp he)
    exact .of_noCalls fun w _ => ⟨World.calls_of_noCalls rfl reversed, trivial⟩
  | onNetwork tidy => exact (Calls.onNetwork tidy).imp fun _ _ _ _ => trivial
  | quitRequested => exact .of_noCalls fun _ _ => ⟨rfl, trivial⟩
  | callDevice => exact (Calls.callDevice _ _ _).imp fun _ _ _ _ => trivial

/-- Something that has a result has only made calls that succeeded. -/
theorem calls_of_ok (h : Stepwise x) {a : α} (run : x w = (.ok a, after)) :
    ∃ made, after.calls = w.calls ++ succeeded made := by
  have ended := h.calls w.machine w rfl
  unfold Ends at ended
  rw [run] at ended
  obtain ⟨made, new, -⟩ := ended
  exact ⟨made, new⟩

/-- Something that fails comes to a call of a device that fails, and is at its end then. -/
theorem cutShort (h : Stepwise x) (run : x w = (.error fault, after)) :
    fault = .crash ∨ ∃ c u, ComesTo c u x w ∧ u.CutShort c fault after := by
  induction h generalizing w after with
  | pure | machine | setMachine | note | noted | onNetwork | quitRequested => cases run
  | @require_bind _ _ o f _ ih =>
    cases o with
    | none =>
      cases run
      exact Or.inl rfl
    | some a =>
      obtain crash | ⟨c, u, comes, cut⟩ := ih a rfl (run : f a w = _)
      · exact Or.inl crash
      · exact Or.inr ⟨c, u, .later (.pure a) rfl comes, cut⟩
  | @bind _ _ x f steps _ ih ih' =>
    rcases first : x w with ⟨fault' | a, between⟩
    · rw [bind_of_error first] at run
      cases run
      obtain crash | ⟨c, u, comes, cut⟩ := ih first
      · exact Or.inl crash
      · exact Or.inr ⟨c, u, .first comes, cut⟩
    · rw [bind_of_ok first] at run
      obtain crash | ⟨c, u, comes, cut⟩ := ih' a run
      · exact Or.inl crash
      · exact Or.inr ⟨c, u, .later steps first comes, cut⟩
  | callDevice fails =>
    obtain ⟨cause, rfl, answer, machine, network, trace⟩ := callDevice_failed run
    exact Or.inr ⟨_, w, .here, fails answer, machine, network, trace⟩

/-- The call that something comes to when it fails is the last one, and the only one that has failed. -/
theorem endsWithDevice (h : Stepwise x) (run : x w = (.error fault, after)) (crash : fault ≠ .crash) :
    EndsWithDevice x w fault after := by
  obtain rfl | ⟨c, u, comes, cut⟩ := h.cutShort run
  · exact absurd rfl crash
  have ended := h.calls w.machine w rfl
  unfold Ends at ended
  rw [run] at ended
  obtain ⟨made, new, before, ⟨rfl, -⟩ | ⟨c', rfl⟩⟩ := ended
  · exact absurd rfl crash
  rw [cut.calls, ← List.append_assoc] at new
  obtain ⟨-, same⟩ := List.append_inj' new rfl
  cases same
  exact ⟨before, c, u, by rw [cut.calls, new], comes, cut⟩

end Stepwise

/-- What is put together from calls of devices fails as the devices do. -/
theorem Composed.stepwise {x : Act δ α} (h : Composed x) : Stepwise x := by
  induction h with
  | pure a => exact .pure a
  | bind _ _ ih ih' => exact .bind ih ih'
  | require_bind _ ih => exact .require_bind ih
  | machine => exact .machine
  | setMachine m => exact .setMachine m
  | note silent => exact .note silent
  | noted silent => exact .noted silent
  | onNetwork use => exact .onNetwork use.tidy
  | quitRequested => exact .quitRequested
  | callDevice made =>
    cases made with
    | present screen => exact .callDevice .present
    | keys => exact .callDevice .keys
    | beep => exact .callDevice .beep
    | stop => exact .callDevice .stop
    | load path => exact .callDevice .load

theorem operate_stepwise (o : Operation) : Stepwise (operate o : Act δ Result) := (operate_composed o).stepwise

end Act

namespace World
variable {δ : Type} [Devices δ]

/-- In a safe world, an operation fails if and only if a call that it makes does. -/
theorem Safe.fails_iff {w : World δ} (safe : w.Safe) (o : Operation) :
    (∃ fault, (Act.operate o w).1 = .error fault) ↔ ∃ c fault, (c, some fault) ∈ Act.callsOf (Act.operate o) w := by
  have crash := (safe.operate o).2
  rcases run : Act.operate o w with ⟨fault | result, after⟩
  · obtain ⟨before, c, u, new, -⟩ := (Act.operate_stepwise o).endsWithDevice run fun same => crash (by rw [run, same])
    rw [List.append_assoc] at new
    rw [Act.callsOf_eq (congrArg Prod.snd run) new]
    exact iff_of_true ⟨fault, rfl⟩ ⟨c, fault, List.mem_append_right _ (List.mem_singleton_self _)⟩
  · obtain ⟨made, new⟩ := (Act.operate_stepwise o).calls_of_ok run
    rw [Act.callsOf_eq (congrArg Prod.snd run) new]
    refine iff_of_false nofun ?_
    rintro ⟨c, fault, failed⟩
    obtain ⟨_, -, same⟩ := List.mem_map.mp failed
    cases same

/-- Faults are neither swallowed nor invented. Whatever was done before, and however the devices answer, an operation
fails if and only if a call of a device does that it makes. It fails with what this device has answered, and with this
call it ends: no other device is called and nothing else is done. So among devices that do not fail, no program makes
an operation fail. -/
theorem fails_with_device {config : Config} (valid : config.validate = .ok ()) (entropy : UInt64) (devices : δ)
    (network : Network) (rest : network.running = []) :
    ∃ m, Machine.build config entropy = .ok m ∧ ∀ (operations : List Operation) (o : Operation),
      let w := World.after ⟨m, devices, network, []⟩ operations
      ((∃ fault, (Act.operate o w).1 = .error fault) ↔ ∃ c fault, (c, some fault) ∈ Act.callsOf (Act.operate o) w) ∧
      (∀ fault after, Act.operate o w = (.error fault, after) → Act.EndsWithDevice (Act.operate o) w fault after) ∧
      ((∀ devices c fault after, ¬DeviceCall.Fails (δ := δ) devices c fault after) →
        ∃ result, (Act.operate o w).1 = .ok result) := by
  obtain ⟨m, built, sound⟩ := Machine.build_of_validate valid entropy
  refine ⟨m, built, fun operations o => ?_⟩
  have begun : Safe (⟨m, devices, network, []⟩ : World δ) := ⟨sound, rest, calm_nil⟩
  have safe := begun.after operations
  dsimp only
  generalize World.after ⟨m, devices, network, []⟩ operations = w at safe ⊢
  have crash := (safe.operate o).2
  have ends : ∀ fault after, Act.operate o w = (.error fault, after) →
      Act.EndsWithDevice (Act.operate o) w fault after := by
    intro fault after run
    exact (Act.operate_stepwise o).endsWithDevice run fun same => crash (by rw [run, same])
  refine ⟨safe.fails_iff o, ends, fun works => ?_⟩
  rcases run : Act.operate o w with ⟨fault | result, after⟩
  · obtain ⟨-, c, u, -, -, cut⟩ := ends fault after run
    exact absurd cut.fails (works _ _ _ _)
  · exact ⟨result, rfl⟩

/-- A frame whose beep fails does not count its sound timer down. -/
theorem broken_beep_ends_frame :
    let config : Config := { program := some [0x61, 0x01, 0xf1, 0x18, 0x12, 0x04], clockMultiplier := 2 }
    config.validate = .ok () ∧ ({} : Network).running = [] ∧ ∃ m, Machine.build config 0 = .ok m ∧
      let w := World.after (⟨m, { broken := some .beep }, {}, []⟩ : World Bench) [.reset]
      Act.callsOf (Act.operate .runTick) w = [(.keys, none), (.beep, some (.sound "beep broken"))] ∧
        ∃ after, Act.operate .runTick w = (.error (.sound "beep broken"), after) ∧ after.machine.st = 1 ∧
          Act.EndsWithDevice (Act.operate .runTick) w (.sound "beep broken") after := by
  intro config
  have valid : config.validate = .ok () := rfl
  obtain ⟨m, built, calls, timer⟩ := exists_after config 0 ({ broken := some .beep } : Bench) {} [.reset]
    (fun w => Act.callsOf (Act.operate .runTick) w = [(.keys, none), (.beep, some (.sound "beep broken"))] ∧
      (Act.operate .runTick w).2.machine.st = 1)
    (by decide +kernel)
  obtain ⟨m', built', fails⟩ := fails_with_device valid 0 ({ broken := some .beep } : Bench) {} rfl
  obtain rfl := Except.ok.inj (built.symm.trans built')
  obtain ⟨iff, ends, -⟩ := fails [.reset] .runTick
  refine ⟨valid, rfl, m, built, calls, ?_⟩
  obtain ⟨fault, failed⟩ := iff.mpr ⟨.beep, .sound "beep broken", by simp [calls]⟩
  generalize World.after (⟨m, { broken := some .beep }, {}, []⟩ : World Bench) [.reset] = w at *
  rcases run : Act.operate .runTick w with ⟨fault' | _, after⟩
  · obtain ⟨before, c, u, new, -⟩ := ends fault' after run
    rw [List.append_assoc] at new
    rw [Act.callsOf_eq (congrArg Prod.snd run) new] at calls
    have parts : succeeded before ++ [(c, some fault')] = [(.keys, none)] ++ [(.beep, some (.sound _))] := calls
    obtain ⟨-, last⟩ := List.append_inj' parts rfl
    cases last
    rw [run] at timer
    exact ⟨after, rfl, timer, ends _ after run⟩
  · rw [run] at failed
    cases failed

end World
end Chip8
