import Chip8.Proofs.World.Safety

/-!
What a run is made of. A frame is several moves: a message out of the mail, a look at the keys, the steps,
and the timers. All other operations are one move, and a run of frames is its frames. So a world that is
reached by moves may stand between two operations, or within a frame between two instructions.
-/

namespace Chip8

inductive Move
  | reset
  | step
  | tickTimers
  | receive (text : String)
  | writeAscii (addr : UInt16) (text : String)
  | connectInbox
  | deliverMail
  | pollKeys
  /-- A run of frames is over. -/
  | endFrames (ticks : Nat)
  | network (change : Change)

namespace Act
variable {δ : Type} [Devices δ]

def pollKeys : Act δ Unit := do
  let keys ← readKeys
  let m ← machine
  setMachine { m with keys }

def move : Move → Act δ Unit
  | .reset => reset
  | .step => step
  | .tickTimers => tickTimers
  | .receive text => do
    let _ ← receive text
  | .writeAscii addr text => do
    let _ ← writeAscii addr text
  | .connectInbox => do
    let _ ← connectInbox
  | .deliverMail => deliverMail
  | .pollKeys => pollKeys
  | .endFrames ticks => endFrames ticks
  | .network change => do
    let _ ← onNetwork (·.change change)

end Act

namespace World
variable {δ : Type} [Devices δ]

/-- A world after moves that are made one after another, also when one of them fails. -/
def through (w : World δ) (moves : List Move) : World δ :=
  moves.foldl (fun w mv => (Act.move mv w).2) w

theorem through_cons (w : World δ) (mv : Move) (rest : List Move) :
    w.through (mv :: rest) = (Act.move mv w).2.through rest := rfl

theorem through_append (w : World δ) (first later : List Move) :
    w.through (first ++ later) = (w.through first).through later := List.foldl_append

/-- Some moves lead from one world to another. -/
def Reaches (w after : World δ) : Prop := ∃ moves, after = w.through moves

theorem Reaches.refl (w : World δ) : w.Reaches w := ⟨[], rfl⟩

theorem Reaches.trans {u v w : World δ} (h₁ : u.Reaches v) (h₂ : v.Reaches w) : u.Reaches w := by
  obtain ⟨first, rfl⟩ := h₁
  obtain ⟨later, rfl⟩ := h₂
  exact ⟨first ++ later, (through_append ..).symm⟩

/-- Some moves lead from one world to another, and each of them is allowed. -/
def ReachesBy (allowed : Move → Prop) (w after : World δ) : Prop :=
  ∃ moves, (∀ mv ∈ moves, allowed mv) ∧ after = w.through moves

namespace ReachesBy
variable {allowed more : Move → Prop} {u v w : World δ}

theorem refl (w : World δ) : w.ReachesBy allowed w := ⟨[], by simp, rfl⟩

theorem trans (h₁ : u.ReachesBy allowed v) (h₂ : v.ReachesBy allowed w) : u.ReachesBy allowed w := by
  obtain ⟨first, allowed₁, rfl⟩ := h₁
  obtain ⟨later, allowed₂, rfl⟩ := h₂
  exact ⟨first ++ later, List.forall_mem_append.mpr ⟨allowed₁, allowed₂⟩, (through_append ..).symm⟩

theorem move {mv : Move} (h : allowed mv) (w : World δ) : w.ReachesBy allowed (Act.move mv w).2 :=
  ⟨[mv], fun _ same => List.mem_singleton.mp same ▸ h, rfl⟩

theorem mono (h : u.ReachesBy allowed v) (hm : ∀ mv, allowed mv → more mv) : u.ReachesBy more v := by
  obtain ⟨moves, legal, same⟩ := h
  exact ⟨moves, fun mv hmv => hm mv (legal mv hmv), same⟩

theorem reaches (h : u.ReachesBy allowed v) : u.Reaches v := by
  obtain ⟨moves, -, same⟩ := h
  exact ⟨moves, same⟩

end ReachesBy
end World

/-! ### Operations are made of moves -/

/-- Whether a move may be one of an operation: an inbox is connected, and a change of the network made, only
for an operation that is just that. -/
def Operation.Makes (o : Operation) : Move → Prop
  | .connectInbox => o = .connectInbox
  | .network change => o = .network change
  | _ => True

namespace Act
variable {δ α β : Type} [Devices δ]

/-- Whatever comes of it, moves lead to where it ends, and each of them is allowed. -/
def MadeOf (allowed : Move → Prop) (x : Act δ α) : Prop := ∀ w : World δ, w.ReachesBy allowed (x w).2

/-- Whatever comes of it, moves lead to where it ends. -/
def MadeOfMoves (x : Act δ α) : Prop := ∀ w : World δ, w.Reaches (x w).2

namespace MadeOf
variable {allowed : Move → Prop}

theorem madeOfMoves {x : Act δ α} (h : MadeOf allowed x) : MadeOfMoves x := fun w => (h w).reaches

theorem pure (a : α) : MadeOf allowed (Pure.pure a : Act δ α) := World.ReachesBy.refl

theorem machine : MadeOf allowed (Act.machine : Act δ Machine) := World.ReachesBy.refl

theorem quitRequested : MadeOf allowed (Act.quitRequested : Act δ Bool) := World.ReachesBy.refl

theorem bind {x : Act δ α} {f : α → Act δ β} (hx : MadeOf allowed x) (hf : ∀ a, MadeOf allowed (f a)) :
    MadeOf allowed (x >>= f) := by
  intro w
  have first := hx w
  rw [bind_apply]
  split
  · next a after h =>
    rw [h] at first
    exact first.trans (hf a after)
  · next fault after h =>
    rw [h] at first
    exact first

theorem whenever {condition : Bool} {x : Act δ Unit} (hx : MadeOf allowed x) :
    MadeOf allowed (whenever condition x) := by
  cases condition with
  | true => exact hx
  | false => exact pure ()

theorem move (mv : Move) (h : allowed mv) : MadeOf allowed (Act.move mv : Act δ Unit) :=
  World.ReachesBy.move h

/-- A move whose result is not looked at. -/
theorem of_discarded {x : Act δ α} (mv : Move) (allows : allowed mv)
    (h : (Act.move mv : Act δ Unit) = x >>= fun _ => Pure.pure ()) : MadeOf allowed x := by
  intro w
  have reached := World.ReachesBy.move allows w
  rw [h, bind_apply] at reached
  split at reached
  · next after h => exact h ▸ reached
  · next after h => exact h ▸ reached

end MadeOf

/-- A frame, as the moves that it makes. -/
theorem runTick_eq :
    (runTick : Act δ Unit) = (do
      deliverMail
      whenever (← machine).isActive do
        pollKeys
        whenever (← takeSteps (← machine).config.clockMultiplier.toNat) tickTimers) := by
  unfold runTick pollKeys
  simp only [bind_assoc]
  rfl

section
variable (o : Operation)

theorem takeSteps_madeOf (count : Nat) : MadeOf o.Makes (takeSteps count : Act δ Bool) := by
  induction count with
  | zero => exact .pure true
  | succ count ih =>
    refine .bind .machine fun before => .bind (.move .step trivial) fun _ => .bind .machine fun m => ?_
    split
    · exact .pure false
    · exact ih
    · exact ih
    · exact .pure true
    · exact .pure true

theorem runTick_madeOf : MadeOf o.Makes (runTick : Act δ Unit) := by
  rw [runTick_eq]
  refine .bind (.move .deliverMail trivial) fun _ => .bind .machine fun m => .whenever ?_
  refine .bind (.move .pollKeys trivial) fun _ => .bind .machine fun m => ?_
  exact .bind (takeSteps_madeOf o _) fun _ => .whenever (.move .tickTimers trivial)

theorem runFrames_madeOf (budget ticks : Nat) : MadeOf o.Makes (runFrames budget ticks : Act δ Nat) := by
  induction budget generalizing ticks with
  | zero => exact .pure ticks
  | succ budget ih =>
    refine .bind .machine fun m => .bind .quitRequested fun quit => ?_
    split
    · exact .bind (runTick_madeOf o) fun _ => ih _
    · exact .pure ticks

theorem operate_madeOf : MadeOf o.Makes (operate o : Act δ Result) := by
  cases o with
  | reset => exact .bind (.move .reset trivial) fun _ => .pure _
  | step => exact .bind (.move .step trivial) fun _ => .pure _
  | tickTimers => exact .bind (.move .tickTimers trivial) fun _ => .pure _
  | runTick => exact .bind (runTick_madeOf _) fun _ => .pure _
  | mainLoop budget =>
    refine .bind (.bind (runFrames_madeOf _ _ 0) fun ticks => ?_) fun _ => .pure _
    exact .bind (.move (.endFrames ticks) trivial) fun _ => .pure _
  | receive text => exact .bind (.of_discarded (.receive text) trivial rfl) fun _ => .pure _
  | writeAscii addr text => exact .bind (.of_discarded (.writeAscii addr text) trivial rfl) fun _ => .pure _
  | connectInbox => exact .bind (.of_discarded .connectInbox rfl rfl) fun _ => .pure _
  | network change => exact .bind (.of_discarded (.network change) rfl rfl) fun _ => .pure _

theorem operate_madeOfMoves : MadeOfMoves (operate o : Act δ Result) := (operate_madeOf o).madeOfMoves

end
end Act

namespace World
variable {δ : Type} [Devices δ]

theorem after_cons (w : World δ) (o : Operation) (rest : List Operation) :
    w.after (o :: rest) = (Act.operate o w).2.after rest := rfl

theorem after_append (w : World δ) (first later : List Operation) :
    w.after (first ++ later) = (w.after first).after later := List.foldl_append

/-- Where operations lead, moves lead too. -/
theorem reaches_after (w : World δ) (operations : List Operation) : w.Reaches (w.after operations) := by
  induction operations generalizing w with
  | nil => exact .refl w
  | cons o rest ih => exact (Act.operate_madeOfMoves o w).trans (ih _)

/-- What can be computed of a world after operations, from the settings of its machine on. -/
theorem exists_after (config : Config) (entropy : UInt64) (devices : δ) (network : Network)
    (operations : List Operation) (P : World δ → Prop) [DecidablePred P]
    (run : (Machine.build config entropy).toOption.any
      (fun m => decide (P (World.after ⟨m, devices, network, []⟩ operations))) = true) :
    ∃ m, Machine.build config entropy = .ok m ∧ P (World.after ⟨m, devices, network, []⟩ operations) := by
  rcases built : Machine.build config entropy with invalid | m
  · rw [built] at run
    cases run
  · rw [built] at run
    exact ⟨m, rfl, of_decide_eq_true run⟩

end World
end Chip8
