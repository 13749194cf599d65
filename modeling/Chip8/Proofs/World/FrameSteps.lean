import Chip8.Proofs.World.Frames
import Chip8.Proofs.World.Soundings

/-!
What a frame does: it reads the keys once, takes some steps, and ticks once. The most steps are settled as it begins. It
takes fewer only if the machine stops or waits for a key in vain, and it ticks unless it has come to either.
-/

namespace Chip8

/-- Whether the machine waits for a key. -/
def Machine.Waits (m : Machine) : Prop := ∃ register, m.status = .waiting register

namespace World
variable {δ : Type} {w mail polled before next last after : World δ}

variable [Devices δ] {going : Bool} {count taken : Nat}

/-- Whether the next step begins and ends waiting for a key. -/
def Stalls (w : World δ) : Prop := w.machine.Waits ∧ (Act.step w).2.machine.Waits

/-- Some steps after which a frame takes another one: none of them fails or stalls, and none stops the machine. -/
inductive StepsOn : World δ → Nat → World δ → Prop
  | none (w : World δ) : StepsOn w 0 w
  | more {count : Nat} {w next last : World δ} : Act.step w = (.ok (), next) → next.machine.isActive = true →
      ¬w.Stalls → StepsOn next count last → StepsOn w (count + 1) last

/-- The calls of a step have to do neither with the keys nor with the sound. -/
theorem ofStep_of_step (w : World δ) : ∀ c ∈ Act.callsOf Act.step w, c.1.ofStep = true := by
  have steps : Act.Passes Session.Tidy w.machine [] (Act.step : Act δ Unit)
      (fun _ _ es => ∀ c failure, .called c failure ∈ es → c.ofStep = true)
      fun _ es => ∀ c failure, .called c failure ∈ es → c.ofStep = true :=
    (Act.step_passes (Or.inr Session.perform_tidy)).mono (fun _ _ _ step _ _ => step.ofStep) fun _ _ step _ _ =>
      step.ofStep
  obtain ⟨es, among, -, landmarks⟩ := steps.calls rfl
  exact fun c hc => among c.1 c.2 (landmarks c hc)

theorem StepsOn.calls (h : w.StepsOn count last) :
    ∃ made, last.calls = w.calls ++ made ∧ ∀ c ∈ made, c.1.ofStep = true := by
  induction h with
  | none w => exact ⟨[], (List.append_nil _).symm, by simp⟩
  | @more count w next last stepped _ _ _ ih =>
    obtain ⟨made, later, ofStep⟩ := ih
    have first : next.calls = w.calls ++ Act.callsOf Act.step w := by
      have moved : (Act.step w).2.calls = w.calls ++ Act.callsOf Act.step w := w.calls_move .step
      rwa [stepped] at moved
    refine ⟨Act.callsOf Act.step w ++ made, by rw [later, first, List.append_assoc], ?_⟩
    exact List.forall_mem_append.mpr ⟨ofStep_of_step w, ofStep⟩

end World
end Chip8
