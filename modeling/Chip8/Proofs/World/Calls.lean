import Chip8.Bench
import Chip8.Proofs.World.Turns

/-!
Calls and their returns. While a call is open, the entry that it has made and the entries below it stay as
they are: only calls write to the stack, and they write above. So a return that closes the call goes on
behind it, however many calls were made and closed in between.
-/

namespace Chip8

namespace Machine

/-- The call that `caller` is about to make has been made, and there was no return from it yet. -/
structure Inside (caller m : Machine) : Prop where
  deep : caller.sp.toNat < m.sp.toNat
  entry : m.stack[caller.sp.toNat]? = some caller.pc
  below : ∀ k < caller.sp.toNat, m.stack[k]? = caller.stack[k]?

namespace Inside
variable {caller m n : Machine}

theorem of_same (h : Inside caller m) (sp : n.sp = m.sp) (stack : n.stack = m.stack) : Inside caller n where
  deep := by
    rw [sp]
    exact h.deep
  entry := by
    rw [stack]
    exact h.entry
  below := by
    rw [stack]
    exact h.below

/-- An instruction that does not return from the call keeps what the call has left on the stack. -/
theorem of_stacks (h : Inside caller m) (stacked : Stacks m n) (deep : caller.sp.toNat < n.sp.toNat) :
    Inside caller n := by
  cases stacked with
  | kept sp stack => exact h.of_same sp stack
  | popped sp stack =>
    refine ⟨deep, ?_, ?_⟩
    · rw [stack]
      exact h.entry
    · rw [stack]
      exact h.below
  | pushed room sp stack =>
    -- The new entry is above all those of the call.
    have above := h.deep
    refine ⟨deep, ?_, fun k hk => ?_⟩
    · rw [stack, Vector.getElem?_set_ne _ (by omega)]
      exact h.entry
    · rw [stack, Vector.getElem?_set_ne _ (by omega)]
      exact h.below k hk

end Inside

section
variable {caller m n : Machine}

/-- No call is left when a machine starts over. -/
theorem Restarted.eq_of_deep (again : Restarted m n) (deep : caller.sp.toNat < n.sp.toNat) : n = m := by
  rcases again.eq_or with same | ⟨ram, status, rfl⟩
  · exact same
  · simp at deep

theorem Fulfilled.eq_of_deep {done : Executed} (fulfilled : Fulfilled done n)
    (deep : caller.sp.toNat < n.sp.toNat) : n = done.machine := by
  cases fulfilled with
  | kept _ => rfl
  | restarted _ again => exact again.eq_of_deep deep

theorem Inside.stepped (h : Inside caller m) (step : Stepped m n) (deep : caller.sp.toNat < n.sp.toNat) :
    Inside caller n := by
  have counted : Inside caller m.counted := h.of_same rfl rfl
  cases step with
  | idle _ => exact h
  | key _ _ => exact h.of_same rfl rfl
  | pastEnd _ _ => exact h.of_same rfl rfl
  | @carried _ done k _ executed fulfilled =>
    obtain ⟨pc, status, settled⟩ := k.settled done.value.flow
    rw [settled] at deep ⊢
    have same : k = done.value.machine := fulfilled.eq_of_deep deep
    subst same
    exact (counted.of_stacks (effect_of_execute executed).stack deep).of_same rfl rfl

theorem Inside.broken (h : Inside caller m) (step : Broken m n) (deep : caller.sp.toNat < n.sp.toNat) :
    Inside caller n := by
  have counted : Inside caller m.counted := h.of_same rfl rfl
  cases step with
  | crashed _ _ => exact counted
  | failed _ executed _ fulfilled =>
    obtain rfl := fulfilled.eq_of_deep deep
    exact counted.of_stacks (effect_of_execute executed).stack deep

/-- A move that does not return from a call keeps what the call has left on the stack. -/
theorem Inside.turned (h : Inside caller m) (turn : Turned m n) (deep : caller.sp.toNat < n.sp.toNat) :
    Inside caller n := by
  cases turn with
  | restarted again =>
    obtain rfl := again.eq_of_deep deep
    exact h
  | stepped step => exact h.stepped step deep
  | broken step => exact h.broken step deep
  | _ =>
    -- The others leave the stack alone.
    exact h.of_same rfl rfl

end

end Machine

namespace World
variable {δ : Type} [Devices δ] {w : World δ}

theorem inside_of_call {target : UInt16} (call : w.machine.next? = some (.call target))
    (room : w.machine.sp.toNat < 16) : w.machine.Inside (Act.step w).2.machine := by
  obtain ⟨after, pc, status, stepped, left⟩ :=
    Act.step_settles call (Machine.call_of_room (m := w.machine.counted) room target) rfl
  have higher : (w.machine.sp + 1).toNat = w.machine.sp.toNat + 1 := Machine.toNat_add_one (by omega)
  rw [stepped, left]
  exact {
    deep := by
      change w.machine.sp.toNat < (w.machine.sp + 1).toNat
      omega
    entry := Vector.getElem?_set_self room
    below := fun k hk => Vector.getElem?_set_ne room (by omega) }

/-- What a call has left on the stack stays there during moves that never return from it. -/
theorem inside_through {caller : Machine} {moves : List Move} (h : caller.Inside w.machine)
    (open_ : ∀ k ≤ moves.length, caller.sp.toNat < (w.through (moves.take k)).machine.sp.toNat) :
    caller.Inside (w.through moves).machine := by
  induction moves generalizing w with
  | nil => exact h
  | cons mv rest ih =>
    have next : caller.Inside (Act.move mv w).2.machine :=
      h.turned (w.turned_move mv) (open_ 1 (by simp))
    rw [through_cons]
    exact ih next fun k hk => open_ (k + 1) (by simpa using hk)

theorem step_of_ret {caller : Machine} (ret : w.machine.next? = some .ret) (h : caller.Inside w.machine)
    (top : w.machine.sp.toNat = caller.sp.toNat + 1) (place : caller.pc.toNat + 1 < ramSize) :
    ∃ after, Act.step w = (.ok (), after) ∧ after.machine.sp = caller.sp ∧
      after.machine.pc.toNat = caller.pc.toNat + 2 ∧
      after.machine.status =
        (if 4094 < caller.pc.toNat + 2 then .halted (.outOfBounds after.machine.pc) else .running) ∧
      after.machine.stack = w.machine.stack := by
  obtain ⟨used, entry⟩ := Vector.getElem?_eq_some_iff.mp h.entry
  obtain ⟨after, stepped, left⟩ :=
    Act.step_of_next ret (Machine.ret_of_top (m := w.machine.counted) top used) rfl
  have running : w.machine.status = .running := (Machine.next?_eq_some_iff.mp ret).1
  -- The machine behind the call, before it is looked at whether memory ends there.
  let back : Machine :=
    { w.machine.counted with sp := w.machine.sp - 1, pc := w.machine.stack[caller.sp.toNat] + 2 }
  have settled : after.machine = back.checkEnd.value := left
  rw [Machine.checkEnd_of_running (m := back) running] at settled
  have behind : back.pc.toNat = caller.pc.toNat + 2 := by
    change (w.machine.stack[caller.sp.toNat] + 2).toNat = _
    rw [entry, UInt16.toNat_add]
    simp only [ramSize] at place
    change (caller.pc.toNat + 2) % 65536 = caller.pc.toNat + 2
    omega
  have lower : w.machine.sp - 1 = caller.sp := by
    have nonzero : w.machine.sp ≠ 0 := fun zero => by simp [zero] at top
    have less := Machine.toNat_sub_one nonzero
    exact UInt8.toNat_inj.mp (by omega)
  have past : ramSize ≤ back.pc.toNat + 1 ↔ 4094 < caller.pc.toNat + 2 := by
    simp only [behind, ramSize]
    omega
  refine ⟨after, stepped, ?_⟩
  rw [settled]
  refine ⟨lower, behind, ?_, rfl⟩
  simp only [past]

/-- A call that is made at any time, with room on the stack, is closed by the first return that takes its
entry away, whatever was done in between: the program goes on right behind the call, and halts if memory
ends there. The calls that were open before are still open. -/
theorem call_returns {target : UInt16} (call : w.machine.next? = some (.call target))
    (room : w.machine.sp.toNat < 16) {moves : List Move}
    (open_ : ∀ k ≤ moves.length,
      w.machine.sp.toNat < ((Act.step w).2.through (moves.take k)).machine.sp.toNat)
    (ret : ((Act.step w).2.through moves).machine.next? = some .ret)
    (top : ((Act.step w).2.through moves).machine.sp.toNat = w.machine.sp.toNat + 1) :
    ∃ after, Act.step ((Act.step w).2.through moves) = (.ok (), after) ∧
      after.machine.sp = w.machine.sp ∧
      after.machine.pc.toNat = w.machine.pc.toNat + 2 ∧
      after.machine.status =
        (if 4094 < w.machine.pc.toNat + 2 then .halted (.outOfBounds after.machine.pc) else .running) ∧
      ∀ k < w.machine.sp.toNat, after.machine.stack[k]? = w.machine.stack[k]? := by
  have inside : w.machine.Inside ((Act.step w).2.through moves).machine :=
    inside_through (inside_of_call call room) open_
  obtain ⟨after, stepped, sp, pc, status, stack⟩ := step_of_ret ret inside top (Machine.pc_of_next? call)
  refine ⟨after, stepped, sp, pc, status, ?_⟩
  rw [stack]
  exact inside.below

/-- The call at 200 is closed by the return at 206, after the call at 204 was made and closed. -/
theorem nested_call_returns :
    let config : Config := { program := some [0x22, 0x04, 0x12, 0x02, 0x22, 0x08, 0x00, 0xee, 0x00, 0xee] }
    let moves : List Move := [.step, .tickTimers, .step]
    ∃ m, Machine.build config 0 = .ok m ∧
      let w := World.after (⟨m, {}, {}, []⟩ : World Bench) [.reset]
      let between := (Act.step w).2.through moves
      (w.machine.next? = some (.call 0x204) ∧ w.machine.sp.toNat < 16 ∧
        (∀ k ≤ moves.length, w.machine.sp.toNat < ((Act.step w).2.through (moves.take k)).machine.sp.toNat) ∧
        between.machine.next? = some .ret ∧ between.machine.sp.toNat = w.machine.sp.toNat + 1) ∧
      ∃ after, Act.step between = (.ok (), after) ∧ after.machine.sp = w.machine.sp ∧
        after.machine.pc.toNat = w.machine.pc.toNat + 2 := by
  intro config moves
  have valid : config.validate = .ok () := rfl
  obtain ⟨m, built, -⟩ := Machine.build_of_validate valid 0
  have run : (Machine.build config 0).toOption.map (fun m =>
      let w := World.after (⟨m, {}, {}, []⟩ : World Bench) [.reset]
      let between := (Act.step w).2.through moves
      decide (w.machine.next? = some (.call 0x204) ∧ w.machine.sp.toNat < 16 ∧
        (∀ k ≤ moves.length, w.machine.sp.toNat < ((Act.step w).2.through (moves.take k)).machine.sp.toNat) ∧
        between.machine.next? = some .ret ∧ between.machine.sp.toNat = w.machine.sp.toNat + 1)) = some true := by
    decide +kernel
  rw [built] at run
  obtain ⟨call, room, open_, ret, top⟩ := of_decide_eq_true (Option.some.inj run)
  obtain ⟨after, stepped, sp, pc, -⟩ := call_returns call room open_ ret top
  exact ⟨m, built, ⟨call, room, open_, ret, top⟩, after, stepped, sp, pc⟩

end World
end Chip8
