import Chip8.Proofs.World.Display
import Chip8.Proofs.World.Ticks

/-!
The tone is started and stopped in turns. Only the timers call the sound: they start a tone when none is on and the sound
timer runs out, and they stop it while it is on. Which of the two comes next is what the machine keeps track of, and
neither a failure nor a reset makes it lose track.
-/

namespace Chip8

/-! ### What is called besides the sound -/

/-- Whether a call can be one of a step: the screen is shown, or a program is loaded. -/
def DeviceCall.ofStep : DeviceCall → Bool
  | present _ | load _ => true
  | keys | beep | stop => false

theorem Event.ofStep_of_isLoad {c : DeviceCall} {failure : Option Fault} (h : (called c failure).isLoad = true) :
    c.ofStep = true := by
  cases c with
  | load => rfl
  | _ => cases h

namespace Machine
variable {m n : Machine} {es : List Event} {c : DeviceCall} {failure : Option Fault}

theorem Restarts.ofStep (again : m.Restarts n es) (made : .called c failure ∈ es) : c.ofStep = true := by
  cases again with
  | crashed => cases made
  | unloaded _ loading => exact Event.ofStep_of_isLoad (loading _ made)
  | unshown _ loading =>
    rcases List.mem_cons.mp made with shown | loads
    · cases shown
      rfl
    · exact Event.ofStep_of_isLoad (loading _ loads)
  | running _ loading =>
    rcases List.mem_cons.mp made with restarted | made
    · cases restarted
    rcases List.mem_cons.mp made with shown | loads
    · cases shown
      rfl
    · exact Event.ofStep_of_isLoad (loading _ loads)

theorem Fulfils.ofStep {done : Executed} (fulfilled : Fulfils done n es) (made : .called c failure ∈ es) :
    c.ofStep = true := by
  cases fulfilled with
  | kept => cases made
  | shown =>
    cases List.mem_singleton.mp made
    rfl
  | restarted _ again => exact again.ofStep made

/-- What an instruction wants done comes after it. -/
theorem Fulfils.ofStep_of_executed {done : Executed} {instruction : Instruction} (fulfilled : Fulfils done n es)
    (made : .called c failure ∈ es ++ [.executed instruction]) : c.ofStep = true := by
  rcases List.mem_append.mp made with made | executed
  · exact fulfilled.ofStep made
  · cases List.mem_singleton.mp executed

theorem Steps.ofStep (step : m.Steps n es) (made : .called c failure ∈ es) : c.ofStep = true := by
  cases step with
  | idle | key | pastEnd => cases made
  | carried _ _ fulfilled => exact fulfilled.ofStep_of_executed made

theorem Breaks.ofStep (step : m.Breaks n es) (made : .called c failure ∈ es) : c.ofStep = true := by
  cases step with
  | crashed => cases List.mem_singleton.mp made
  | failed _ _ _ fulfilled => exact fulfilled.ofStep_of_executed made

theorem Broken.toneOn (step : Broken m n) : n.toneOn = m.toneOn := by
  cases step with
  | crashed => rfl
  | @failed _ done _ _ executed _ fulfilled =>
    have same : done.value.machine.toneOn = m.toneOn := (effect_of_execute executed).toneOn
    cases fulfilled with
    | kept => exact same
    | restarted _ again => exact again.toneOn.trans same

end Machine

namespace Act
open Machine

variable {δ α : Type} {m : Machine}

/-- The calls that something makes are among the landmarks that it passes. -/
theorem Passes.calls {x : Act δ α} {P : Machine → List Event → Prop} (h : Passes Session.Tidy m [] x (fun _ => P) P)
    {w : World δ} (hm : w.machine = m) :
    ∃ es, P (x w).2.machine es ∧ (x w).2.calls = w.calls ++ callsOf x w ∧
      ∀ c ∈ callsOf x w, .called c.1 c.2 ∈ es := by
  obtain ⟨new, trace, p⟩ := h.noted hm
  have made : callsOf x w = new.reverse.filterMap Event.call? := callsOf_eq rfl (World.calls_of_noted trace)
  refine ⟨_, p, by rw [made, World.calls_of_noted trace], fun c hc => ?_⟩
  obtain ⟨e, he, called⟩ := List.mem_filterMap.mp (made ▸ hc)
  cases e with
  | called =>
    cases called
    exact List.mem_filter.mpr ⟨List.mem_reverse.mp he, rfl⟩
  | _ => cases called

variable [Devices δ]

end Act

/-! ### Turns -/

/-- The calls of a tone that is started and stopped in turns. -/
def DeviceCall.turns (count : Nat) : List DeviceCall :=
  (List.range count).map fun k => if k % 2 = 0 then .beep else .stop

/-- The calls that have started or stopped the tone. -/
def sounded (calls : List (DeviceCall × Option Fault)) : List DeviceCall :=
  World.soundCalls (calls.filter fun c => c.2.isNone)

/-- The tone was started and stopped in turns, and it is on if the last of these calls has started it. -/
def InTurns (on : Bool) (calls : List (DeviceCall × Option Fault)) : Prop :=
  ∃ count, sounded calls = DeviceCall.turns count ∧ on = decide (count % 2 = 1)

namespace DeviceCall

theorem turns_succ (count : Nat) :
    turns (count + 1) = turns count ++ [if count % 2 = 0 then .beep else .stop] := by
  simp [turns, List.range_succ]

/-- A tone that is started and stopped in turns was started once more than stopped, if it is on. -/
theorem count_turns (count : Nat) : (turns count).count .beep = (turns count).count .stop + count % 2 := by
  induction count with
  | zero => rfl
  | succ count ih =>
    rw [turns_succ, List.count_append, List.count_append, ih]
    rcases Nat.mod_two_eq_zero_or_one count with even | odd
    · rw [if_pos even, even, show (count + 1) % 2 = 1 by omega]
      rfl
    · rw [if_neg (by omega), odd, show (count + 1) % 2 = 0 by omega]
      rfl

end DeviceCall

section
variable {calls made : List (DeviceCall × Option Fault)} {on : Bool} {m : Machine}

theorem sounded_append : sounded (calls ++ made) = sounded calls ++ sounded made := by
  simp [sounded, World.soundCalls]

theorem sounded_eq_nil (h : ∀ c ∈ made, c.1.isSound = false ∨ c.2 ≠ none) : sounded made = [] := by
  refine List.filter_eq_nil_iff.mpr fun c hc sound => ?_
  obtain ⟨answered, among, rfl⟩ := List.mem_map.mp hc
  obtain ⟨among, fine⟩ := List.mem_filter.mp among
  rcases h answered among with silent | failed
  · simp [silent] at sound
  · exact failed (Option.isNone_iff_eq_none.mp fine)

theorem sounded_stops : sounded (succeeded m.stops) = m.stops := by
  cases on : m.toneOn <;> simp [Machine.stops, on, sounded, succeeded, World.soundCalls, DeviceCall.isSound]

theorem sounded_beeps : sounded (succeeded m.beeps) = m.beeps := by
  by_cases due : m.st = 1 <;> simp [Machine.beeps, due, sounded, succeeded, World.soundCalls, DeviceCall.isSound]

namespace InTurns

/-- Calls that have to do with something else, or that fail. -/
theorem besides (h : InTurns on calls) (others : ∀ c ∈ made, c.1.isSound = false ∨ c.2 ≠ none) :
    InTurns on (calls ++ made) := by
  obtain ⟨count, turns, last⟩ := h
  exact ⟨count, by rw [sounded_append, sounded_eq_nil others, List.append_nil, turns], last⟩

/-- A tone that is on is stopped. -/
theorem stops (h : InTurns m.toneOn calls) : InTurns false (calls ++ succeeded m.stops) := by
  obtain ⟨count, turns, last⟩ := h
  rw [InTurns, sounded_append, sounded_stops, turns, Machine.stops, last]
  rcases Nat.mod_two_eq_zero_or_one count with even | odd
  · exact ⟨count, by simp [even], by simp [even]⟩
  · refine ⟨count + 1, ?_, ?_⟩
    · simp [DeviceCall.turns_succ, odd]
    · simp only [false_eq_decide_iff]
      omega

/-- While no tone is on, the one that is due is started. -/
theorem beeps (h : InTurns false calls) : InTurns (decide (m.st = 1)) (calls ++ succeeded m.beeps) := by
  obtain ⟨count, turns, last⟩ := h
  have even : count % 2 = 0 := by
    simp only [false_eq_decide_iff] at last
    omega
  rw [InTurns, sounded_append, sounded_beeps, turns, Machine.beeps]
  by_cases due : m.st = 1
  · refine ⟨count + 1, ?_, ?_⟩
    · rw [DeviceCall.turns_succ, if_pos even, if_pos due]
    · rw [decide_eq_true due, eq_comm, decide_eq_true_iff]
      omega
  · exact ⟨count, by simp [due], by simp [due, even]⟩

theorem ticks {n : Machine} {answer : Except Fault Unit} (h : InTurns m.toneOn calls) (ticks : m.Ticks answer n made) :
    InTurns n.toneOn (calls ++ made) := by
  cases ticks with
  | counted =>
    rw [succeeded_append, ← List.append_assoc]
    exact h.stops.beeps
  | unstopped on => exact h.besides fun c hc => Or.inr (by simp [List.mem_singleton.mp hc])
  | unstarted due =>
    rw [← List.append_assoc]
    exact h.stops.besides fun c hc => Or.inr (by simp [List.mem_singleton.mp hc])

theorem count (h : InTurns on calls) :
    (sounded calls).count .beep = (sounded calls).count .stop + on.toNat := by
  obtain ⟨count, turns, rfl⟩ := h
  rw [turns, DeviceCall.count_turns]
  rcases Nat.mod_two_eq_zero_or_one count with even | odd
  · simp [even]
  · simp [odd]

end InTurns
end

namespace World
variable {δ : Type}

variable [Devices δ] {w : World δ} {mv : Move}

end World
end Chip8
