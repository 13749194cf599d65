import Chip8.Proofs.World.Landmarks

/-!
Frames, told by their landmarks. After its message a frame comes to carry out an instruction if the keys can
be read and the machine runs, or waits for a key that is down and has a step left after it has taken the key.
-/

namespace Chip8

/-- Events among which an instruction was carried out. -/
def Executes (events : List Event) : Prop := ∃ instruction, .executed instruction ∈ events

theorem Executes.append {events : List Event} (h : Executes events) (later : List Event) :
    Executes (later ++ events) := by
  obtain ⟨instruction, executed⟩ := h
  exact ⟨instruction, List.mem_append_right _ executed⟩

namespace Machine

/-- Whether some steps come to carry out an instruction. -/
def Proceeds (m : Machine) (count : Nat) : Prop :=
  m.pc.toNat + 1 < ramSize ∧
    (m.status = .running ∧ 1 ≤ count ∨
      (∃ register, m.status = .waiting register) ∧ m.keys.first? ≠ none ∧ 2 ≤ count)

variable {m n : Machine} {es : List Event} {instruction : Instruction}

theorem proceeds_of_next? (next : m.next? = some instruction) (count : Nat) : m.Proceeds (count + 1) :=
  ⟨pc_of_next? next, Or.inl ⟨(next?_eq_some_iff.mp next).1, Nat.le_add_left 1 count⟩⟩

theorem executes_after (es : List Event) : Executes (es ++ [.executed instruction]) :=
  ⟨instruction, List.mem_append_right _ (List.mem_singleton_self _)⟩

theorem Breaks.executes (h : m.Breaks n es) (count : Nat) : Executes es ∧ m.Proceeds (count + 1) := by
  cases h with
  | crashed next => exact ⟨executes_after [], proceeds_of_next? next count⟩
  | failed next => exact ⟨executes_after _, proceeds_of_next? next count⟩

theorem not_proceeds_of_idle (stopped : m.status ≠ .running)
    (blind : ∀ register, m.status = .waiting register → m.keys.first? = none) (count : Nat) : ¬m.Proceeds count := by
  rintro ⟨-, ⟨running, -⟩ | ⟨⟨register, waiting⟩, down, -⟩⟩
  · exact stopped running
  · exact down (blind register waiting)

theorem not_proceeds_of_outside (outside : m.ram.word? m.pc = none) (count : Nat) : ¬m.Proceeds count := by
  rintro ⟨inside, -⟩
  simp [Ram.word?, inside] at outside

/-- The step that takes the key is one of the steps. -/
theorem proceeds_of_key {register : Register} {key : Fin 16} (waiting : m.status = .waiting register)
    (down : m.keys.first? = some key) (value : UInt8) (count : Nat) :
    Proceeds { m.setRegister register value with status := .running } count ↔ m.Proceeds (count + 1) := by
  simp [Proceeds, setRegister, waiting, down]

end Machine

namespace Act
open Machine

variable {δ : Type} [Devices δ] {Work : Session → Session → Prop} {m n : Machine} {before : List Event}

theorem takeSteps_passes (calls : ∀ c s, Work s (s.perform c).2) (count : Nat) :
    Passes Work m [] (takeSteps count : Act δ Bool) (fun _ _ es => Executes es ↔ m.Proceeds count)
      fun _ es => Executes es ↔ m.Proceeds count := by
  induction count generalizing m with
  | zero => exact .pure (by simp [Executes, Proceeds])
  | succ count ih =>
    refine .machine_bind (((step_passes (Or.inr calls)).mono (fun _ _ _ => id) ?_).bind ?_)
    · intro n es broken
      obtain ⟨executes, proceeds⟩ := broken.executes count
      exact iff_of_true executes proceeds
    intro _ n es stepped
    refine .machine_bind ?_
    cases stepped with
    | idle stopped blind =>
      have nothing : Executes [] ↔ m.Proceeds (count + 1) :=
        iff_of_false (by simp [Executes]) (not_proceeds_of_idle stopped blind _)
      rcases status : m.status with _ | _ | register | reason
      · exact .pure nothing
      · exact absurd status stopped
      · exact .pure nothing
      · exact .pure nothing
    | @key register key waiting down =>
      have taken := proceeds_of_key waiting down (UInt8.ofNat key.val) count
      rw [waiting, ← taken]
      exact ih
    | pastEnd running outside =>
      rw [running]
      exact .pure (iff_of_false (by simp [Executes]) (not_proceeds_of_outside outside _))
    | @carried instruction done n es next executed fulfilled =>
      -- Whatever is done after it, the instruction was carried out.
      have proceeds : m.Proceeds (count + 1) := proceeds_of_next? next count
      have already : Executes (es ++ [.executed instruction]) := executes_after es
      have going : ∀ n, Passes Work n (es ++ [.executed instruction]) (takeSteps count : Act δ Bool)
          (fun _ _ es => Executes es ↔ m.Proceeds (count + 1)) fun _ es => Executes es ↔ m.Proceeds (count + 1) := by
        intro n
        refine (ih (m := n)).later.mono ?_ ?_
        · rintro _ _ _ ⟨new, rfl, -⟩
          exact iff_of_true (already.append new) proceeds
        · rintro _ _ ⟨new, rfl, -⟩
          exact iff_of_true (already.append new) proceeds
      split
      · exact .pure (iff_of_true already proceeds)
      · exact going _
      · exact going _
      · exact .pure (iff_of_true already proceeds)
      · exact .pure (iff_of_true already proceeds)

/-! ### After the message -/

/-- A frame after its message. -/
def afterMail : Act δ Unit := do
  whenever (← machine).isActive do
    pollKeys
    whenever (← takeSteps (← machine).config.clockMultiplier.toNat) tickTimers

theorem runTick_eq_afterMail : (runTick : Act δ Unit) = deliverMail >>= fun _ => afterMail := runTick_eq

/-- The steps and the timers, of which only the steps carry out instructions. -/
theorem stepsAndTimers_passes (calls : ∀ c s, Work s (s.perform c).2) (count : Nat) :
    Passes Work m [] (do whenever (← (takeSteps count : Act δ Bool)) tickTimers)
      (fun _ _ es => Executes es ↔ m.Proceeds count) fun _ es => Executes es ↔ m.Proceeds count := by
  refine (takeSteps_passes calls count).bind fun going n es proceeds => .whenever (fun _ => ?_) fun _ => proceeds
  have tended : ∀ {k new}, n.Tended k new → (Executes (new ++ es) ↔ m.Proceeds count) := by
    intro k new tended
    rw [← proceeds]
    constructor
    · rintro ⟨instruction, executed⟩
      rcases List.mem_append.mp executed with executed | executed
      · cases tended.events _ executed
      · exact ⟨instruction, executed⟩
    · intro executes
      exact executes.append new
  refine tickTimers_passes.later.mono ?_ ?_
  · rintro _ k _ ⟨new, rfl, h⟩
    exact tended h
  · rintro k _ ⟨new, rfl, h⟩
    exact tended h

theorem ends_pollKeys (Work : Session → Session → Prop) (w : World δ) :
    pollKeys.Ends w
      (fun _ after => w.session.Passage Work [.called .keys none] after.session ∧
        ∃ keys, (Devices.keys w.devices).value.1 = .ok keys ∧ after.machine = { w.machine with keys })
      fun _ after => (∃ fault, w.session.Passage Work [.called .keys (some fault)] after.session) ∧
        ∀ keys, (Devices.keys w.devices).value.1 ≠ .ok keys := by
  have passed : Passes Work w.machine [] (pollKeys : Act δ Unit)
      (fun _ n es => (∃ keys, n = { w.machine with keys }) ∧ es = [.called .keys none])
      fun _ es => ∃ fault, es = [.called .keys (some fault)] := pollKeys_passes fun fault => ⟨fault, rfl⟩
  have ended := passed w rfl
  simp only [List.append_nil] at ended
  unfold Ends at ended ⊢
  rcases answer : (Devices.keys w.devices).value.1 with cause | keys
  · have failed : (pollKeys w).1 = .error (.io cause) := by
      simp [pollKeys, readKeys, callDevice, bind_apply, answer]
    split
    · next run => simp [run] at failed
    · next run =>
      rw [run] at ended
      obtain ⟨es, passage, fault, rfl⟩ := ended
      exact ⟨⟨fault, passage⟩, by simp⟩
  · have polled : (pollKeys w).1 = .ok () ∧ (pollKeys w).2.machine = { w.machine with keys } := by
      simp [pollKeys, readKeys, callDevice, bind_apply, machine, setMachine, answer]
    split
    · next run =>
      rw [run] at ended polled
      obtain ⟨es, passage, -, rfl⟩ := ended
      exact ⟨passage, keys, rfl, polled.2⟩
    · next run => simp [run] at polled

end Act

namespace World
variable {δ : Type} [Devices δ] {Work : Session → Session → Prop}

/-- Whether the next frame comes to carry out an instruction. -/
def Attentive (w : World δ) : Prop :=
  ∃ keys, (Devices.keys w.devices).value.1 = .ok keys ∧
    Machine.Proceeds { w.machine with keys } w.machine.config.clockMultiplier.toNat

theorem isActive_of_attentive {w : World δ} (h : w.Attentive) : w.machine.isActive = true := by
  obtain ⟨keys, -, -, ⟨running, -⟩ | ⟨⟨register, waiting⟩, -⟩⟩ := h
  · simp_all [Machine.isActive, Status.isActive]
  · simp_all [Machine.isActive, Status.isActive]

theorem attentive_iff {w : World δ} {keys : Keys} (answer : (Devices.keys w.devices).value.1 = .ok keys) :
    w.Attentive ↔ Machine.Proceeds { w.machine with keys } w.machine.config.clockMultiplier.toNat := by
  constructor
  · rintro ⟨keys', answer', proceeds⟩
    cases answer.symm.trans answer'
    exact proceeds
  · intro proceeds
    exact ⟨keys, answer, proceeds⟩

/-- A frame carries out an instruction after its message if and only if it is attentive. -/
theorem afterMail_passage (calls : ∀ c s, Work s (s.perform c).2) (w : World δ) :
    ∃ es, w.session.Passage Work es (Act.afterMail w).2.session ∧ (Executes es ↔ w.Attentive) := by
  refine Act.Ends.answer (P := fun _ after => ∃ es, w.session.Passage Work es after.session ∧
    (Executes es ↔ w.Attentive)) ?_
  rw [Act.afterMail, Act.ends_bind, Act.ends_machine, Act.whenever]
  by_cases active : w.machine.isActive = true
  · rw [if_pos active]
    refine Act.ends_bind.mpr ((Act.ends_pollKeys Work w).mono ?_ ?_)
    · rintro _ polled ⟨passage, keys, answer, machine⟩
      have after : ∀ {es last}, polled.session.Passage Work es last →
          (Executes (es ++ []) ↔ polled.machine.Proceeds polled.machine.config.clockMultiplier.toNat) →
          ∃ es, w.session.Passage Work es last ∧ (Executes es ↔ w.Attentive) := by
        intro es last further executes
        refine ⟨_, passage.trans further, ?_⟩
        rw [List.append_nil, machine] at executes
        rw [attentive_iff answer, ← executes]
        simp [Executes]
      rw [Act.ends_bind, Act.ends_machine]
      refine (Act.stepsAndTimers_passes calls _ polled rfl).mono ?_ ?_
      · rintro _ last ⟨es, further, executes⟩
        exact after further executes
      · rintro _ last ⟨es, further, executes⟩
        exact after further executes
    · rintro _ after ⟨⟨fault, passage⟩, unread⟩
      refine ⟨_, passage, iff_of_false (by simp [Executes]) ?_⟩
      rintro ⟨keys, answer, -⟩
      exact unread keys answer
  · rw [if_neg active]
    exact ⟨[], .refl _, iff_of_false (by simp [Executes]) fun attentive => active (isActive_of_attentive attentive)⟩

end World
end Chip8
