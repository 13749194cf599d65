import Chip8.Bench
import Chip8.Proofs.Machine.Bounds
import Chip8.Proofs.World.Landmarks

/-!
The display shows what is on the screen. Whatever changes the screen presents it afterwards, but for one
case: starting over clears the screen before it chooses the program, and a file that cannot be loaded ends it
there. Then the machine is off, and nothing but another start gets it going again, which presents the screen.
-/

namespace Chip8

namespace Event

/-- The screen that the display was given, if it took it. -/
@[simp] def shown? : Event → Option Screen
  | called (.present screen) none => some screen
  | _ => none

/-- Whether the display refused a screen. -/
@[simp] def isRefused : Event → Bool
  | called (.present _) (some _) => true
  | _ => false

@[simp] def isRestart : Event → Bool
  | restarted .. => true
  | _ => false

@[simp] def isDrawing : Event → Bool
  | executed instruction => instruction.draws
  | _ => false

variable {e : Event}

theorem unseen_of_unconcerned (h : e.concernsDisplay = false) :
    e.shown? = none ∧ e.isRestart = false ∧ e.isDrawing = false := by
  cases e with
  | executed | restarted => cases h
  | called c failure =>
    cases c with
    | present => cases h
    | _ => exact ⟨rfl, rfl, rfl⟩
  | _ => exact ⟨rfl, rfl, rfl⟩

theorem unconcerned_of_isLoad (h : e.isLoad = true) : e.concernsDisplay = false := by
  unfold isLoad at h
  split at h
  · rfl
  · cases h

end Event

/-- The screens that the display took, the latest first. -/
def shownFrames (events : List Event) : List Screen := events.filterMap Event.shown?

/-- How often the display must have been given a screen: after each start and each drawing. -/
def dueFrames (events : List Event) : Nat := events.countP Event.isRestart + events.countP Event.isDrawing

section
variable {e : Event} {events : List Event}

@[simp] theorem shownFrames_cons : shownFrames (e :: events) = e.shown?.toList ++ shownFrames events := by
  cases shown : e.shown? with
  | none => rw [shownFrames, List.filterMap_cons_none shown]; rfl
  | some screen => rw [shownFrames, List.filterMap_cons_some shown]; rfl

@[simp] theorem dueFrames_cons :
    dueFrames (e :: events) = dueFrames events + e.isRestart.toNat + e.isDrawing.toNat := by
  simp only [dueFrames, List.countP_cons]
  cases e.isRestart <;> cases e.isDrawing <;> simp <;> omega

theorem frames_of_unconcerned (before : List Event) (h : ∀ e ∈ events, e.concernsDisplay = false) :
    shownFrames (events ++ before) = shownFrames before ∧ dueFrames (events ++ before) = dueFrames before := by
  induction events with
  | nil => exact ⟨rfl, rfl⟩
  | cons e rest ih =>
    obtain ⟨he, hrest⟩ := List.forall_mem_cons.mp h
    obtain ⟨shown, due⟩ := ih hrest
    obtain ⟨unshown, going, undrawn⟩ := Event.unseen_of_unconcerned he
    rw [List.cons_append, shownFrames_cons, dueFrames_cons, shown, due, unshown, going, undrawn]
    exact ⟨rfl, rfl⟩

end

namespace Machine

/-- The display shows the screen, unless the machine is off, and it was given each picture once. -/
structure UpToDate (m : Machine) (events : List Event) : Prop where
  shown : m.status ≠ .off → (shownFrames events).head? = some m.screen
  count : (shownFrames events).length = dueFrames events

variable {m n : Machine} {before es : List Event}

/-- A new machine is off and silent. -/
theorem silent_of_build {config : Config} {entropy : UInt64} (built : build config entropy = .ok m) :
    m.status = .off ∧ m.toneOn = false := by
  unfold build at built
  split at built
  · cases built
  · split at built
    · cases built
    · cases built
      exact ⟨rfl, rfl⟩

theorem status_of_build {config : Config} {entropy : UInt64} (built : build config entropy = .ok m) :
    m.status = .off := (silent_of_build built).1

/-- A machine that is off stays off when the program goes on. -/
theorem off_of_settled {flow : Flow} (h : (n.follow flow).value.checkEnd.value.status ≠ .off) : n.status ≠ .off := by
  intro off
  have inactive : (n.follow flow).value.isActive = false := by
    cases flow <;> simp [follow, isActive, Status.isActive, off]
  rw [checkEnd, inactive] at h
  cases flow <;> exact h off

namespace UpToDate

theorem settled (h : n.UpToDate es) (flow : Flow) : UpToDate (n.follow flow).value.checkEnd.value es where
  shown := by
    intro on
    obtain ⟨pc, status, same⟩ := Machine.settled n flow
    rw [h.shown (off_of_settled on), same]
  count := h.count

theorem apart (h : m.UpToDate before) (apart : m.Apart n es) : n.UpToDate (es ++ before) := by
  obtain ⟨shown, due⟩ := frames_of_unconcerned before apart.events
  refine ⟨?_, ?_⟩
  · intro on
    rw [shown, apart.screen]
    exact h.shown (apart.status ▸ on)
  · rw [shown, due]
    exact h.count

theorem restarts (h : m.UpToDate before) (again : m.Restarts n es) (taken : ∀ e ∈ es, e.isRefused = false) :
    n.UpToDate (es ++ before) := by
  cases again with
  | crashed => exact h
  | unloaded cleared loading =>
    obtain ⟨ram, -, rfl⟩ := Option.map_eq_some_iff.mp cleared
    obtain ⟨shown, due⟩ := frames_of_unconcerned before fun e he => Event.unconcerned_of_isLoad (loading e he)
    refine ⟨fun on => absurd rfl on, ?_⟩
    rw [shown, due]
    exact h.count
  | unshown => cases taken _ List.mem_cons_self
  | running cleared loading found =>
    obtain ⟨shown, due⟩ := frames_of_unconcerned before fun e he => Event.unconcerned_of_isLoad (loading e he)
    refine ⟨fun _ => by simp, ?_⟩
    have count := h.count
    simp [shown, due, count]

/-- What an instruction has changed is shown, if it is not the display that fails. -/
theorem executed {instruction : Instruction} {done : Noted Executed} (h : m.UpToDate before)
    (next : m.next? = some instruction) (executed : m.counted.execute instruction = some done)
    (fulfilled : Fulfils done.value n es) (taken : ∀ e ∈ es, e.isRefused = false) :
    n.UpToDate (es ++ [.executed instruction] ++ before) := by
  have running : m.status = .running := (next?_eq_some_iff.mp next).1
  have shown : (shownFrames before).head? = some m.counted.screen := h.shown (by simp [running])
  have count := h.count
  rw [List.append_assoc]
  have outward := outward_of_execute executed
  cases draws : instruction.draws with
  | true =>
    have wish : done.value.request = .present := outward.wish.mpr draws
    cases fulfilled with
    | kept other _ => exact absurd wish other
    | restarted reset _ => simp [wish] at reset
    | shown failure _ =>
      cases failure with
      | some fault => cases taken _ List.mem_cons_self
      | none => exact ⟨fun _ => by simp, by simp [draws, count]⟩
  | false =>
    -- The picture is the one before the instruction, so the display shows it.
    have still : done.value.machine.UpToDate (.executed instruction :: before) :=
      ⟨fun _ => by simpa [outward.screen draws] using shown, by simp [draws, count]⟩
    cases fulfilled with
    | kept _ _ => exact still
    | shown _ wish => simp [outward.wish.mp wish] at draws
    | restarted _ again => exact still.restarts again taken

theorem steps (h : m.UpToDate before) (stepped : m.Steps n es) (taken : ∀ e ∈ es, e.isRefused = false) :
    n.UpToDate (es ++ before) := by
  cases stepped with
  | idle => exact h
  | key waiting => exact ⟨fun _ => h.shown (by simp [waiting]), h.count⟩
  | pastEnd running => exact ⟨fun _ => h.shown (by simp [running]), h.count⟩
  | carried next executed fulfilled =>
    exact (h.executed next executed fulfilled fun e he => taken e (List.mem_append_left _ he)).settled _

theorem breaks (h : m.UpToDate before) (broken : m.Breaks n es) (taken : ∀ e ∈ es, e.isRefused = false) :
    n.UpToDate (es ++ before) := by
  cases broken with
  | failed next executed _ fulfilled =>
    exact h.executed next executed fulfilled fun e he => taken e (List.mem_append_left _ he)
  | @crashed instruction next failed =>
    have running : m.status = .running := (next?_eq_some_iff.mp next).1
    have shown : (shownFrames before).head? = some m.counted.screen := h.shown (by simp [running])
    -- An instruction that draws cannot leave a range.
    have draws : instruction.draws = false := by
      cases instruction with
      | clearScreen | draw => cases failed
      | _ => rfl
    exact ⟨fun _ => by simpa using shown, by simp [draws, h.count]⟩

theorem moves (h : m.UpToDate before) (moved : m.Moves n es) (taken : ∀ e ∈ es, e.isRefused = false) :
    n.UpToDate (es ++ before) := by
  cases moved with
  | restarted again => exact h.restarts again taken
  | stepped stepped => exact h.steps stepped taken
  | broken broken => exact h.breaks broken taken
  | apart apart => exact h.apart apart

end UpToDate
end Machine

namespace World
variable {δ : Type} [Devices δ]

end World
end Chip8
