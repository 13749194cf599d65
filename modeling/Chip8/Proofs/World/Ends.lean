import Chip8.World.Operation

/-!
How something done in a world ends: with a result or with a fault, and either way in a world. What is
known of both ends is found by going through the doing step by step; each elementary step has one
equation.
-/

namespace Chip8.Act

variable {δ α β : Type}

/-- From a world, something ends with a result as `Q` says or with a fault as `E` says. -/
def Ends (x : Act δ α) (w : World δ) (Q : α → World δ → Prop) (E : Fault → World δ → Prop) : Prop :=
  match x w with
  | (.ok a, after) => Q a after
  | (.error fault, after) => E fault after

section
variable {w : World δ} {Q Q' : α → World δ → Prop} {R : β → World δ → Prop} {E E' : Fault → World δ → Prop}

theorem Ends.mono {x : Act δ α} (h : x.Ends w Q E) (hq : ∀ a after, Q a after → Q' a after)
    (he : ∀ fault after, E fault after → E' fault after) : x.Ends w Q' E' := by
  unfold Ends at h ⊢
  split at h
  · exact hq _ _ h
  · exact he _ _ h

theorem Ends.imp {x : Act δ α} (h : x.Ends w Q E) (hq : ∀ a after, Q a after → Q' a after) : x.Ends w Q' E :=
  h.mono hq fun _ _ => id

theorem Ends.answer {x : Act δ α} {P : Except Fault α → World δ → Prop}
    (h : x.Ends w (fun a => P (.ok a)) fun fault => P (.error fault)) : P (x w).1 (x w).2 := by
  unfold Ends at h
  split at h
  · next run => exact run ▸ h
  · next run => exact run ▸ h

theorem ends_of_eq {x : Act δ α} {after : World δ} {a : α} (h : x w = (.ok a, after)) (q : Q a after) :
    x.Ends w Q E := by
  unfold Ends
  rw [h]
  exact q

/-- What cannot fail has a result. -/
theorem Ends.result {x : Act δ α} (h : x.Ends w Q fun _ _ => False) : ∃ a after, x w = (.ok a, after) ∧ Q a after := by
  unfold Ends at h
  split at h
  · next a after run => exact ⟨a, after, run, h⟩
  · exact h.elim

/-- One thing and then another end as the second ends where the first one has ended. -/
theorem ends_bind {x : Act δ α} {f : α → Act δ β} :
    (x >>= f).Ends w R E ↔ x.Ends w (fun a after => (f a).Ends after R E) E := by
  unfold Ends
  rw [bind_apply]
  rcases x w with ⟨fault | a, after⟩ <;> rfl

/-- One thing and then another have a result if each of them has one. -/
theorem bind_eq_ok {x : Act δ α} {f : α → Act δ β} {b : β} {last : World δ} :
    (x >>= f) w = (.ok b, last) ↔ ∃ a after, x w = (.ok a, after) ∧ f a after = (.ok b, last) := by
  rw [bind_apply]
  rcases x w with ⟨fault | a, after⟩
  · simp
  · refine ⟨fun run => ⟨a, after, rfl, run⟩, ?_⟩
    rintro ⟨_, _, same, run⟩
    cases same
    exact run

/-- What only wraps the result of something leaves the same world. -/
theorem snd_bind_pure (x : Act δ α) (f : α → β) (w : World δ) : ((x >>= fun a => pure (f a)) w).2 = (x w).2 := by
  rw [bind_apply]
  rcases x w with ⟨fault | a, after⟩ <;> rfl

theorem Ends.bind {x : Act δ α} {f : α → Act δ β} (h : x.Ends w Q E)
    (hf : ∀ a after, Q a after → (f a).Ends after R E) : (x >>= f).Ends w R E := ends_bind.mpr (h.imp hf)

@[simp] theorem ends_pure {a : α} : (pure a : Act δ α).Ends w Q E ↔ Q a w := Iff.rfl

@[simp] theorem ends_noted {x : Noted α} :
    (noted x).Ends w Q E ↔ Q x.value { w with trace := x.notes.reverse ++ w.trace } := Iff.rfl

@[simp] theorem ends_require_some {a : α} : (require (some a) : Act δ α).Ends w Q E ↔ Q a w := Iff.rfl

@[simp] theorem ends_onNetwork {f : Session → α × Session} :
    (onNetwork f).Ends w Q E ↔
      Q (f ⟨w.network, w.trace⟩).1
        { w with network := (f ⟨w.network, w.trace⟩).2.network, trace := (f ⟨w.network, w.trace⟩).2.trace } :=
  Iff.rfl

end

section
variable {w : World δ} {Q : Unit → World δ → Prop} {E : Fault → World δ → Prop}

@[simp] theorem ends_machine {Q : Machine → World δ → Prop} : machine.Ends w Q E ↔ Q w.machine w := Iff.rfl

@[simp] theorem ends_setMachine {m : Machine} :
    (setMachine m).Ends w Q E ↔ Q () { w with machine := m } := Iff.rfl

@[simp] theorem ends_note {e : Event} : (note e).Ends w Q E ↔ Q () { w with trace := e :: w.trace } := Iff.rfl

@[simp] theorem ends_quitRequested [Devices δ] {Q : Bool → World δ → Prop} :
    quitRequested.Ends w Q E ↔ Q (Devices.quitRequested w.devices) w := Iff.rfl

end

/-- A call of a device has no influence on the machine and on the network. What is noted of it comes from
the device or is the call itself. -/
theorem ends_callDevice {ε : Type} (c : DeviceCall) (wrap : ε → Fault) (f : δ → Noted (Except ε α × δ))
    (w : World δ) :
    (callDevice c wrap f).Ends w
      (fun _ after => after.machine = w.machine ∧ after.network = w.network ∧ ∃ es,
        after.trace = .called c none :: es ++ w.trace ∧ ∀ e ∈ es, e.ofDevice = true)
      (fun fault after => (∃ cause, fault = wrap cause) ∧ after.machine = w.machine ∧
        after.network = w.network ∧ ∃ es,
        after.trace = .called c (some fault) :: es ++ w.trace ∧ ∀ e ∈ es, e.ofDevice = true) := by
  have own : ∀ e ∈ ((f w.devices).notes.filter Event.ofDevice).reverse, e.ofDevice = true := fun e he =>
    (List.mem_filter.mp (List.mem_reverse.mp he)).2
  unfold Ends callDevice
  dsimp only
  split
  · next a after h =>
    split at h
    · cases h
      exact ⟨rfl, rfl, _, rfl, own⟩
    · cases h
  · next fault after h =>
    split at h
    · cases h
    · cases h
      exact ⟨⟨_, rfl⟩, rfl, rfl, _, rfl, own⟩

end Chip8.Act
