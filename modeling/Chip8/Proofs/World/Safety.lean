import Chip8.Bench
import Chip8.Proofs.Machine.Bounds
import Chip8.Proofs.Network.Changes
import Chip8.Proofs.World.Ends

/-!
The guest program cannot crash its host. Whatever is done with a machine among devices that fail as they
like, it stays inside its bounds, no index leaves its range and no sum of addresses wraps.
-/

namespace Chip8

variable {δ : Type}

/-- A world whose machine is inside its bounds, whose nodes have no handler running, and in which no sum
of addresses has wrapped so far. -/
structure World.Safe (w : World δ) : Prop where
  sound : w.machine.Sound
  rest : w.network.running = []
  calm : Calm w.trace

namespace Act

/-- Done with a machine `m`, something ends in a safe world if it began in one, and its only faults are
those of devices. Of a result and the machine that it leaves, `Q` holds. -/
def Safely {α : Type} (m : Machine) (x : Act δ α) (Q : α → Machine → Prop) : Prop :=
  ∀ w : World δ, w.machine = m → w.Safe →
    x.Ends w (fun a after => after.Safe ∧ Q a after.machine) fun fault after => fault ≠ .crash ∧ after.Safe

namespace Safely
variable {α β : Type} {m n : Machine} {Q : α → Machine → Prop} {R : β → Machine → Prop}

theorem imp {x : Act δ α} {Q' : α → Machine → Prop} (h : Safely m x Q) (hq : ∀ a n, Q a n → Q' a n) :
    Safely m x Q' :=
  fun w hm hw => (h w hm hw).imp fun _ _ ⟨safe, q⟩ => ⟨safe, hq _ _ q⟩

theorem pure {a : α} (h : Q a m) : Safely m (Pure.pure a : Act δ α) Q := by
  rintro w rfl hw
  rw [ends_pure]
  exact ⟨hw, h⟩

theorem bind {x : Act δ α} {f : α → Act δ β} (h : Safely m x Q)
    (hf : ∀ a n, n.Sound → Q a n → Safely n (f a) R) : Safely m (x >>= f) R :=
  fun w hm hw => (h w hm hw).bind fun a after ⟨safe, q⟩ => hf a after.machine safe.sound q after rfl safe

theorem machine_bind {f : Machine → Act δ β} (h : Safely m (f m) R) : Safely m (machine >>= f) R := by
  rintro w rfl hw
  rw [ends_bind, ends_machine]
  exact h w rfl hw

theorem setMachine (h : n.Sound) : Safely m (setMachine n : Act δ Unit) fun _ after => after = n := by
  intro w _ hw
  rw [ends_setMachine]
  exact ⟨⟨h, hw.rest, hw.calm⟩, rfl⟩

theorem noted {x : Noted α} (calm : Calm x.notes) :
    Safely m (noted x : Act δ α) fun a after => a = x.value ∧ after = m := by
  intro w hm hw
  rw [ends_noted]
  have still : Calm (x.notes.reverse ++ w.trace) := calm_append.mpr ⟨calm_reverse.mpr calm, hw.calm⟩
  exact ⟨⟨hw.sound, hw.rest, still⟩, rfl, hm⟩

theorem note {e : Event} (calm : Calm [e]) : Safely m (note e : Act δ Unit) fun _ after => after = m := by
  intro w hm hw
  rw [ends_note]
  have still : Calm ([e] ++ w.trace) := calm_append.mpr ⟨calm, hw.calm⟩
  exact ⟨⟨hw.sound, hw.rest, still⟩, hm⟩

theorem require {o : Option α} {a : α} (h : o = some a) :
    Safely m (require o : Act δ α) fun b after => b = a ∧ after = m := by
  subst h
  intro w hm hw
  rw [ends_require_some]
  exact ⟨hw, rfl, hm⟩

theorem onNetwork_answers {f : Session → α × Session} {P : α → Prop} (tidy : ∀ s : Session, s.Tidy (f s).2)
    (answers : ∀ s : Session, s.network.running = [] → P (f s).1) :
    Safely m (onNetwork f : Act δ α) fun a after => P a ∧ after = m := by
  intro w hm hw
  obtain ⟨running, es, trace, source⟩ := tidy ⟨w.network, w.trace⟩
  have calm : Calm es := calm_of_source fun e he => by rcases source e he with h | h <;> simp [h]
  rw [ends_onNetwork]
  refine ⟨⟨hw.sound, running.trans hw.rest, ?_⟩, answers _ hw.rest, hm⟩
  rw [trace]
  exact calm_append.mpr ⟨calm, hw.calm⟩

theorem onNetwork {f : Session → α × Session} (tidy : ∀ s : Session, s.Tidy (f s).2) :
    Safely m (onNetwork f : Act δ α) fun _ after => after = m :=
  (onNetwork_answers (P := fun _ => True) tidy fun _ _ => trivial).imp fun _ _ h => h.2

theorem callDevice {ε : Type} {c : DeviceCall} {wrap : ε → Fault} {f : δ → Noted (Except ε α × δ)}
    (wraps : ∀ cause, wrap cause ≠ .crash) : Safely m (callDevice c wrap f) fun _ after => after = m := by
  intro w hm hw
  have calm : ∀ {failure es}, (∀ e ∈ es, e.ofDevice = true) → Calm (.called c failure :: es ++ w.trace) := by
    intro failure es own
    have devices : Calm es := calm_of_source fun e he => by
      have := own e he
      intro source
      simp [Event.ofDevice, source] at this
    rw [calm_append, calm_cons]
    exact ⟨⟨by simp, devices⟩, hw.calm⟩
  refine (ends_callDevice c wrap f w).mono ?_ ?_
  · rintro a after ⟨hm', hn, es, trace, own⟩
    exact ⟨⟨hm' ▸ hw.sound, hn ▸ hw.rest, trace ▸ calm own⟩, hm'.trans hm⟩
  · rintro fault after ⟨⟨cause, rfl⟩, hm', hn, es, trace, own⟩
    exact ⟨wraps cause, hm' ▸ hw.sound, hn ▸ hw.rest, trace ▸ calm own⟩

theorem whenever {condition : Bool} {x : Act δ Unit} {Q : Machine → Prop}
    (h : condition = true → Safely m x fun _ n => Q n) (skip : condition = false → Q m) :
    Safely m (whenever condition x) fun _ n => Q n := by
  unfold Act.whenever
  cases condition with
  | true => exact h rfl
  | false => exact pure (skip rfl)

end Safely

/-! ### Devices and the network -/

section
variable {m : Machine}

theorem call_safely (c : Call) : Safely m (call c : Act δ Unit) fun _ after => after = m :=
  (Safely.onNetwork (Session.perform_tidy c)).bind fun _ _ _ same => .pure same

variable [Devices δ]

theorem present_safely : Safely m (present : Act δ Unit) fun _ after => after = m :=
  .machine_bind (.callDevice nofun)

theorem readKeys_safely : Safely m (readKeys : Act δ Keys) fun _ after => after = m := .callDevice nofun

theorem beep_safely : Safely m (beep : Act δ Unit) fun _ after => after = m := .callDevice nofun

theorem stopTone_safely : Safely m (stopTone : Act δ Unit) fun _ after => after = m := .callDevice nofun

theorem quitRequested_safely : Safely m (quitRequested : Act δ Bool) fun _ after => after = m := by
  intro w hm hw
  rw [ends_quitRequested]
  exact ⟨hw, hm⟩

theorem chooseProgram_safely (config : Config) :
    Safely m (chooseProgram config : Act δ (List UInt8)) fun _ after => after = m := by
  unfold chooseProgram
  split
  · exact .pure rfl
  · exact .callDevice nofun
  · exact .pure rfl

end

/-! ### One step -/

theorem awaitKey_safely {m : Machine} (h : m.Sound) {register : Register} (waiting : m.status = .waiting register) :
    Safely m (awaitKey m register : Act δ Unit) fun _ _ => True := by
  unfold awaitKey
  split
  · exact .pure trivial
  · next key _ =>
    have active : m.isActive = true := by simp [Machine.isActive, Status.isActive, waiting]
    have running : Machine.Sound { m.setRegister register (UInt8.ofNat key.val) with status := .running } :=
      ⟨⟨h.config, h.font, h.sp, h.stack⟩, fun _ => h.pc active⟩
    refine (Safely.setMachine running).bind ?_
    rintro _ _ - rfl
    exact (Safely.note (by simp)).imp fun _ _ _ => trivial

section
variable [Devices δ] {m : Machine}

theorem reset_safely (h : m.Sound) : Safely m (reset : Act δ Unit) fun _ _ => True := by
  obtain ⟨n, cleared, fresh, -, -⟩ := h.toFits.cleared
  refine .machine_bind ((Safely.require cleared).bind ?_)
  rintro _ _ - ⟨rfl, -⟩
  refine (Safely.setMachine fresh.sound).bind ?_
  rintro _ _ - rfl
  refine (chooseProgram_safely _).bind ?_
  rintro program _ - rfl
  obtain ⟨loaded, hl, fresh', -, calm⟩ := fresh.load program
  refine (Safely.require hl).bind ?_
  rintro loaded _ - ⟨rfl, -⟩
  refine (Safely.noted calm).bind ?_
  rintro ⟨count, n⟩ _ - ⟨heq, -⟩
  obtain rfl : n = loaded.value.2 := congrArg Prod.snd heq
  refine (Safely.setMachine fresh'.sound).bind ?_
  rintro _ _ - rfl
  refine present_safely.bind ?_
  rintro _ _ - rfl
  -- The program counter is at the beginning of the program now, so that the machine may run.
  have running : Machine.Fresh { loaded.value.2 with status := .running } :=
    ⟨⟨fresh'.config, fresh'.font, fresh'.sp, fresh'.stack⟩, fresh'.pc, fresh'.instructions⟩
  refine (Safely.setMachine running.sound).bind ?_
  rintro _ _ - rfl
  exact (Safely.note (by simp)).imp fun _ _ _ => trivial

/-- Of what an instruction wants done, only starting over changes the machine. -/
theorem fulfil_safely (h : m.Sound) (request : Request) :
    Safely m (fulfil request : Act δ Unit) fun _ after => request ≠ .reset → after = m := by
  cases request with
  | none => exact .pure fun _ => rfl
  | present => exact present_safely.imp fun _ _ same _ => same
  | dispatch envelope => exact (call_safely _).imp fun _ _ same _ => same
  | reset =>
    refine (reset_safely h).bind fun _ n _ _ => ?_
    exact (call_safely _).imp fun _ _ _ other => absurd rfl other

theorem carryOut_safely (h : m.Sound) (pc : m.pc.toNat ≤ Machine.lastPlace) (word : Opcode) :
    Safely m (carryOut word : Act δ Unit) fun _ _ => True := by
  have counted : Machine.Sound { m with instructions := m.instructions + 1 } :=
    ⟨⟨h.config, h.font, h.sp, h.stack⟩, fun _ => Or.inl pc⟩
  refine .machine_bind ((Safely.setMachine counted).bind ?_)
  rintro _ _ - rfl
  refine (Safely.whenever (fun _ => .note (by simp)) fun _ => rfl).bind ?_
  rintro _ _ - rfl
  refine (Safely.note (by simp)).bind ?_
  rintro _ _ - rfl
  obtain ⟨done, executed, keeps⟩ := counted.toFits.execute pc fun addr => Instruction.lt_of_decode_jumpOffset
  refine (Safely.require executed).bind ?_
  rintro done _ - ⟨rfl, -⟩
  refine (Safely.noted keeps.calm).bind ?_
  rintro _ _ - ⟨rfl, -⟩
  have inside : done.value.machine.pc.toNat ≤ Machine.lastPlace := keeps.pc ▸ pc
  have carried : done.value.machine.Sound := ⟨keeps.fits, fun _ => Or.inl inside⟩
  refine (Safely.setMachine carried).bind ?_
  rintro _ _ - rfl
  refine (fulfil_safely carried done.value.request).bind ?_
  rintro _ n sound same
  have place : done.value.flow ≠ .stay → n.pc.toNat ≤ Machine.lastPlace := by
    intro moves
    rw [same fun reset => moves (keeps.stay reset)]
    exact inside
  obtain ⟨fits, calm⟩ := sound.toFits.follow place
  refine .machine_bind ((Safely.noted calm).bind ?_)
  rintro _ _ - ⟨rfl, -⟩
  obtain ⟨ended, calm⟩ := fits.checkEnd
  refine (Safely.noted calm).bind ?_
  rintro _ _ - ⟨rfl, -⟩
  exact (Safely.setMachine ended).imp fun _ _ _ => trivial

theorem step_safely (h : m.Sound) : Safely m (step : Act δ Unit) fun _ _ => True := by
  refine .machine_bind ?_
  split
  · exact .pure trivial
  · exact .pure trivial
  · next register waiting => exact awaitKey_safely h waiting
  · split
    · next word found =>
      have pc : m.pc.toNat ≤ Machine.lastPlace := by
        unfold Ram.word? at found
        split at found
        · next inside =>
          simp only [ramSize] at inside
          simp only [Machine.lastPlace, ramSize]
          omega
        · cases found
      exact carryOut_safely h pc _
    · obtain ⟨halted, calm⟩ := h.toFits.halt (.outOfBounds m.pc)
      refine (Safely.noted calm).bind ?_
      rintro _ _ - ⟨rfl, -⟩
      exact (Safely.setMachine halted).imp fun _ _ _ => trivial

end

/-! ### Frames -/

section
variable {m : Machine}

theorem receive_safely (h : m.Sound) (text : String) : Safely m (receive text : Act δ Nat) fun _ _ => True := by
  obtain ⟨sound, calm⟩ := h.receive text
  refine .machine_bind ((Safely.noted calm).bind ?_)
  rintro ⟨count, n⟩ _ - ⟨heq, -⟩
  obtain rfl : n = (m.receive text).value.2 := congrArg Prod.snd heq
  exact (Safely.setMachine sound).bind fun _ _ _ _ => .pure trivial

theorem writeAscii_safely (h : m.Sound) (addr : UInt16) (text : String) :
    Safely m (writeAscii addr text : Act δ Nat) fun _ _ => True := by
  obtain ⟨sound, calm⟩ := h.writeAscii addr text
  refine .machine_bind ((Safely.noted calm).bind ?_)
  rintro ⟨count, n⟩ _ - ⟨heq, -⟩
  obtain rfl : n = (m.writeAscii addr text).value.2 := congrArg Prod.snd heq
  exact (Safely.setMachine sound).bind fun _ _ _ _ => .pure trivial

theorem connectInbox_safely (h : m.Sound) :
    Safely m (connectInbox : Act δ (Except RouteError Unit)) fun _ _ => True := by
  refine .machine_bind ((Safely.onNetwork (Session.addInbox_tidy _)).bind ?_)
  rintro answer m - rfl
  cases answer with
  | error cause => exact .pure trivial
  | ok id =>
    have connected : Machine.Sound { m with inbox := some id } := ⟨⟨h.config, h.font, h.sp, h.stack⟩, h.pc⟩
    exact (Safely.setMachine connected).bind fun _ _ _ _ => .pure trivial

theorem deliverMail_safely (h : m.Sound) : Safely m (deliverMail : Act δ Unit) fun _ _ => True := by
  refine .machine_bind ?_
  split
  · exact .pure trivial
  · next id _ =>
    refine (Safely.onNetwork_answers (P := fun taken => ∃ payload, taken = some payload)
      (Session.takeMail?_tidy id) fun s rest => Session.takeMail?_of_rest rest id).bind ?_
    rintro _ _ - ⟨⟨taken, rfl⟩, rfl⟩
    refine (Safely.require rfl).bind ?_
    rintro taken _ - ⟨rfl, rfl⟩
    cases taken with
    | none => exact .pure trivial
    | some payload =>
      refine (Safely.note (by simp)).bind ?_
      rintro _ _ - rfl
      refine (receive_safely h payload).bind ?_
      rintro _ n - -
      refine (Safely.onNetwork fun _ => ⟨rfl, [], rfl, by simp⟩).bind ?_
      rintro left _ - rfl
      exact .whenever (fun _ => (Safely.note (by simp)).imp fun _ _ _ => trivial) fun _ => trivial

variable [Devices δ]

theorem silence_safely (h : m.Sound) : Safely m (silence : Act δ Unit) fun _ _ => True := by
  refine .machine_bind (.whenever (fun _ => stopTone_safely.bind ?_) fun _ => trivial)
  rintro _ m - rfl
  have silent : Machine.Sound { m with toneOn := false } := ⟨⟨h.config, h.font, h.sp, h.stack⟩, h.pc⟩
  exact (Safely.setMachine silent).imp fun _ _ _ => trivial

theorem soundTone_safely (h : m.Sound) : Safely m (soundTone : Act δ Unit) fun _ _ => True := by
  refine .machine_bind (.whenever (fun _ => beep_safely.bind ?_) fun _ => trivial)
  rintro _ m - rfl
  have sounding : Machine.Sound { m with toneOn := true } := ⟨⟨h.config, h.font, h.sp, h.stack⟩, h.pc⟩
  exact (Safely.setMachine sounding).imp fun _ _ _ => trivial

theorem tickTimers_safely (h : m.Sound) : Safely m (tickTimers : Act δ Unit) fun _ _ => True := by
  refine .machine_bind (.whenever (fun _ => (silence_safely h).bind ?_) fun _ => trivial)
  rintro _ n hn -
  have delayed : Machine.Sound { n with dt := countDown n.dt } := ⟨⟨hn.config, hn.font, hn.sp, hn.stack⟩, hn.pc⟩
  refine .machine_bind ((Safely.setMachine delayed).bind ?_)
  rintro _ _ - rfl
  refine (soundTone_safely delayed).bind ?_
  rintro _ k hk -
  have counted : Machine.Sound { k with st := countDown k.st } := ⟨⟨hk.config, hk.font, hk.sp, hk.stack⟩, hk.pc⟩
  refine .machine_bind ?_
  exact (Safely.setMachine counted).imp fun _ _ _ => trivial

theorem takeSteps_safely (h : m.Sound) (count : Nat) :
    Safely m (takeSteps count : Act δ Bool) fun _ _ => True := by
  induction count generalizing m with
  | zero => exact .pure trivial
  | succ count ih =>
    refine .machine_bind ((step_safely h).bind ?_)
    rintro _ n hn -
    refine .machine_bind ?_
    split
    · exact .pure trivial
    · exact ih hn
    · exact ih hn
    · exact .pure trivial
    · exact .pure trivial

theorem runTick_safely (h : m.Sound) : Safely m (runTick : Act δ Unit) fun _ _ => True := by
  refine (deliverMail_safely h).bind ?_
  rintro _ n hn -
  refine .machine_bind (.whenever (fun _ => readKeys_safely.bind ?_) fun _ => trivial)
  rintro keys n - rfl
  have seen : Machine.Sound { n with keys } := ⟨⟨hn.config, hn.font, hn.sp, hn.stack⟩, hn.pc⟩
  refine .machine_bind ((Safely.setMachine seen).bind ?_)
  rintro _ _ - rfl
  refine (takeSteps_safely seen _).bind ?_
  rintro going k hk -
  exact .whenever (fun _ => tickTimers_safely hk) fun _ => trivial

theorem runFrames_safely (h : m.Sound) (budget ticks : Nat) :
    Safely m (runFrames budget ticks : Act δ Nat) fun _ _ => True := by
  induction budget generalizing m ticks with
  | zero => exact .pure trivial
  | succ budget ih =>
    refine .machine_bind (quitRequested_safely.bind ?_)
    rintro quit m - rfl
    split
    · exact (runTick_safely h).bind fun _ _ hn _ => ih hn _
    · exact .pure trivial

theorem mainLoop_safely (h : m.Sound) (budget : Option Nat) :
    Safely m (mainLoop budget : Act δ Nat) fun _ _ => True := by
  refine (runFrames_safely h _ 0).bind ?_
  rintro ticks n - -
  have ended : Safely n (endFrames ticks : Act δ Unit) fun _ _ => True :=
    .machine_bind ((Safely.note (by simp)).imp fun _ _ _ => trivial)
  exact ended.bind fun _ _ _ _ => .pure trivial

/-! ### Operations -/

theorem operate_safely (h : m.Sound) (o : Operation) : Safely m (operate o : Act δ Result) fun _ _ => True := by
  cases o with
  | reset => exact (reset_safely h).bind fun _ _ _ _ => .pure trivial
  | step => exact (step_safely h).bind fun _ _ _ _ => .pure trivial
  | tickTimers => exact (tickTimers_safely h).bind fun _ _ _ _ => .pure trivial
  | runTick => exact (runTick_safely h).bind fun _ _ _ _ => .pure trivial
  | mainLoop budget => exact (mainLoop_safely h budget).bind fun _ _ _ _ => .pure trivial
  | receive text => exact (receive_safely h text).bind fun _ _ _ _ => .pure trivial
  | writeAscii addr text => exact (writeAscii_safely h addr text).bind fun _ _ _ _ => .pure trivial
  | connectInbox => exact (connectInbox_safely h).bind fun _ _ _ _ => .pure trivial
  | network c => exact (Safely.onNetwork (Session.change_tidy c)).bind fun _ _ _ _ => .pure trivial

end

end Act

namespace World
variable [Devices δ]

theorem Safe.operate {w : World δ} (hw : w.Safe) (o : Operation) :
    (Act.operate o w).2.Safe ∧ (Act.operate o w).1 ≠ .error .crash := by
  have ended := Act.operate_safely hw.sound o w rfl hw
  unfold Act.Ends at ended
  split at ended
  · next result after h =>
    rw [h]
    exact ⟨ended.1, by simp⟩
  · next fault after h =>
    rw [h]
    exact ⟨ended.2, fun crash => ended.1 (Except.error.inj crash)⟩

theorem Safe.after {w : World δ} (hw : w.Safe) (operations : List Operation) : (w.after operations).Safe := by
  induction operations generalizing w with
  | nil => exact hw
  | cons o rest ih => exact ih (hw.operate o).1

/-- Settings that pass their check make a machine, and whatever its program is, whatever operations are
carried out on it and however its devices answer or fail, it stays in its bounds. No operation leaves a
range, and no sum of addresses wraps. -/
theorem guest_cannot_crash {config : Config} (valid : config.validate = .ok ()) (entropy : UInt64)
    (devices : δ) (network : Network) (rest : network.running = []) :
    ∃ m, Machine.build config entropy = .ok m ∧ ∀ operations : List Operation,
      let w := World.after ⟨m, devices, network, []⟩ operations
      w.machine.InBounds ∧ (∀ o, (Act.operate o w).1 ≠ .error .crash) ∧
        ∀ addr count, .addressWrapped addr count ∉ w.trace := by
  obtain ⟨m, built, sound⟩ := Machine.build_of_validate valid entropy
  refine ⟨m, built, fun operations => ?_⟩
  have begun : Safe (⟨m, devices, network, []⟩ : World δ) := ⟨sound, rest, calm_nil⟩
  have safe := begun.after operations
  exact ⟨safe.sound.inBounds, fun o => (safe.operate o).2, safe.calm⟩

/-- Not even a program that starts at the very end of memory. -/
theorem guest_at_end_cannot_crash :
    ({ bootAddress := 4095 } : Config).validate = .ok () ∧
    ∃ m, Machine.build { bootAddress := 4095 } 0 = .ok m ∧ ∀ operations : List Operation,
      (World.after (⟨m, {}, {}, []⟩ : World Bench) operations).machine.InBounds := by
  have valid : ({ bootAddress := 4095 } : Config).validate = .ok () := rfl
  obtain ⟨m, built, safe⟩ := guest_cannot_crash valid 0 ({} : Bench) {} rfl
  exact ⟨valid, m, built, fun operations => (safe operations).1⟩

end World
end Chip8
