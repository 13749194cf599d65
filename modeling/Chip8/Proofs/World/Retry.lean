import Chip8.Proofs.Screen
import Chip8.Proofs.World.Failures

/-!
What comes of trying a drawing instruction again whose picture could not be shown. The step fails when the sprite is on
the screen and the flag in VF already, and before it goes on to the next instruction. So the next step carries out the
same instruction, on the screen and the registers that the first try has left, and draws the sprite once more.
-/

namespace Chip8

/-- The display takes every screen. -/
def DisplayWorks {δ : Type} [Devices δ] (devices : δ) : Prop :=
  ∀ screen, ∃ after, (Devices.present screen devices).value = (.ok (), after)

namespace Machine
variable {m : Machine} {x y : Register} {n : Fin 16}

/-- The rows of the sprite at I. -/
def sprite (m : Machine) (n : Fin 16) : List UInt8 := m.ram.readAll m.i.toNat n.val

/-- The sprite at I drawn, and whether that darkened a pixel. -/
def drawing (m : Machine) (x y : Register) (n : Fin 16) : Bool × Screen := m.screen.draw m.v[x] m.v[y] (m.sprite n)

/-- The machine when a drawing instruction is counted and has done its part. -/
def painted (m : Machine) (x y : Register) (n : Fin 16) : Machine := (m.counted.draw x y n).value.machine

theorem painted_eq (m : Machine) (x y : Register) (n : Fin 16) :
    m.painted x y n = { m with
      screen := (m.drawing x y n).2
      v := m.v.setIfInBounds flagRegister (bit (m.drawing x y n).1)
      instructions := m.instructions + 1 } := rfl

theorem length_sprite (m : Machine) (n : Fin 16) : (m.sprite n).length ≤ Screen.height := by
  have small := n.isLt
  simp only [sprite, Ram.readAll, List.length_map, List.length_range, Screen.height]
  omega

theorem bit_eq_one_iff {condition : Bool} : bit condition = 1 ↔ condition = true := by
  cases condition <;> decide

@[simp] theorem sprite_painted (k : Fin 16) : (m.painted x y n).sprite k = m.sprite k := rfl

@[simp] theorem next?_painted : (m.painted x y n).next? = m.next? := rfl

/-- A register other than VF is none of drawing's business. -/
theorem getElem_painted {register : Register} (other : register ≠ flagRegister) :
    (m.painted x y n).v[register] = m.v[register] :=
  Vector.getElem_setIfInBounds_ne register.isLt fun same => other (Fin.ext same.symm)

/-- Drawing a sprite again takes it back, unless its place has depended on VF. -/
theorem screen_painted_painted (hx : x ≠ flagRegister) (hy : y ≠ flagRegister) :
    ((m.painted x y n).painted x y n).screen = m.screen := by
  have drawn : ((m.painted x y n).painted x y n).screen =
      ((m.painted x y n).screen.draw (m.painted x y n).v[x] (m.painted x y n).v[y] (m.sprite n)).2 := rfl
  rw [drawn, getElem_painted hx, getElem_painted hy]
  exact Screen.draw_draw (m.length_sprite n) _ _

/-- VF tells then whether the first drawing had lit a pixel. -/
theorem flag_painted_painted (hx : x ≠ flagRegister) (hy : y ≠ flagRegister) :
    ((m.painted x y n).painted x y n).v[flagRegister] = 1 ↔
      ∃ s ∈ Screen.covered m.v[x].toNat m.v[y].toNat (m.sprite n), m.screen.lit s = false := by
  have drawn : ((m.painted x y n).painted x y n).v[flagRegister] =
      bit ((m.painted x y n).screen.draw (m.painted x y n).v[x] (m.painted x y n).v[y] (m.sprite n)).1 :=
    Vector.getElem_setIfInBounds_self _
  rw [drawn, getElem_painted hx, getElem_painted hy, bit_eq_one_iff]
  exact Screen.darkened_draw_draw (m.length_sprite n) _ _

/-- A sprite with nothing in it leaves the screen and VF as the drawing before it has left them; any other one does
not leave the screen. -/
theorem painted_painted_iff :
    ((m.painted x y n).painted x y n).screen = (m.painted x y n).screen ∧
      ((m.painted x y n).painted x y n).v = (m.painted x y n).v ↔ ∀ row ∈ m.sprite n, row = 0 := by
  constructor
  · rintro ⟨same, -⟩
    exact (Screen.draw_eq_self_iff (m.length_sprite n) _ _).mp same
  · intro nothing
    have still : ∀ k : Machine, k.sprite n = m.sprite n → k.drawing x y n = (false, k.screen) := by
      intro k same
      rw [drawing, same, Screen.draw, Screen.covered_eq_nil_iff.mpr nothing]
      rfl
    rw [painted_eq (m.painted x y n), still (m.painted x y n) rfl, painted_eq m, still m rfl]
    exact ⟨rfl, Vector.setIfInBounds_setIfInBounds _⟩

/-- It makes no difference whether the machine goes on before the sprite is drawn or after. -/
theorem settled_painted (m : Machine) (x y : Register) (n : Fin 16) :
    ((m.painted x y n).follow .next).value.checkEnd.value = (m.follow .next).value.checkEnd.value.painted x y n := by
  generalize moved : (m.follow .next).value = k
  have same : ((m.painted x y n).follow .next).value = k.painted x y n := by
    rw [← moved]
    rfl
  rw [same]
  unfold checkEnd
  change (if (k.isActive && k.isPastEnd) = true then _ else _ : Noted Machine).value = _
  split <;> rfl

end Machine

namespace Act
variable {δ : Type}

theorem callDevice_of_ok {α ε : Type} {c : DeviceCall} {wrap : ε → Fault} {f : δ → Noted (Except ε α × δ)}
    {w : World δ} {a : α} {devices : δ} (answer : (f w.devices).value = (.ok a, devices)) :
    ∃ notes, callDevice c wrap f w = (.ok a, { w with devices, trace := notes ++ w.trace }) := by
  refine ⟨.called c none :: ((f w.devices).notes.filter Event.ofDevice).reverse, ?_⟩
  unfold callDevice
  simp only [answer, List.cons_append]

theorem callDevice_of_error {α ε : Type} {c : DeviceCall} {wrap : ε → Fault} {f : δ → Noted (Except ε α × δ)}
    {w : World δ} {cause : ε} {devices : δ} (answer : (f w.devices).value = (.error cause, devices)) :
    ∃ notes, callDevice c wrap f w = (.error (wrap cause), { w with devices, trace := notes ++ w.trace }) := by
  refine ⟨.called c (some (wrap cause)) :: ((f w.devices).notes.filter Event.ofDevice).reverse, ?_⟩
  unfold callDevice
  simp only [answer, List.cons_append]

variable [Devices δ] {w : World δ}

theorem present_of_ok {devices : δ} (answer : (Devices.present w.machine.screen w.devices).value = (.ok (), devices)) :
    ∃ notes, present w = (.ok (), { w with devices, trace := notes ++ w.trace }) := callDevice_of_ok answer

theorem present_of_fails {fault : Fault} {broken : δ}
    (fails : DeviceCall.Fails w.devices (.present w.machine.screen) fault broken) :
    ∃ notes, present w = (.error fault, { w with devices := broken, trace := notes ++ w.trace }) := by
  cases fails with
  | present answer => exact callDevice_of_error answer

section
variable {x y : Register} {n : Fin 16} (next : w.machine.next? = some (.draw x y n))
include next

/-- A drawing instruction, from the moment at which only the display is left. -/
theorem step_of_draw :
    ∃ notes, step w =
      (present >>= fun _ => settle .next) { w with machine := w.machine.painted x y n, trace := notes ++ w.trace } := by
  obtain ⟨notes, stepped, -⟩ := step_of_execute next rfl
  exact ⟨notes, stepped⟩

theorem step_of_draw_shown (works : DisplayWorks w.devices) :
    ∃ after, step w = (.ok (), after) ∧
      after.machine = (w.machine.follow .next).value.checkEnd.value.painted x y n := by
  obtain ⟨notes, stepped⟩ := step_of_draw next
  obtain ⟨devices, answer⟩ := works (w.machine.painted x y n).screen
  obtain ⟨notes', shown⟩ :=
    present_of_ok (w := { w with machine := w.machine.painted x y n, trace := notes ++ w.trace }) answer
  rw [bind_of_ok shown] at stepped
  exact ⟨_, stepped, Machine.settled_painted w.machine x y n⟩

/-- If the picture cannot be shown, the machine has drawn it all the same, and has not gone on. -/
theorem step_of_draw_unshown {fault : Fault} {broken : δ}
    (fails : DeviceCall.Fails w.devices (.present (w.machine.painted x y n).screen) fault broken) :
    ∃ failed, step w = (.error fault, failed) ∧ failed.machine = w.machine.painted x y n ∧ failed.devices = broken := by
  obtain ⟨notes, stepped⟩ := step_of_draw next
  obtain ⟨notes', unshown⟩ :=
    present_of_fails (w := { w with machine := w.machine.painted x y n, trace := notes ++ w.trace }) fails
  rw [bind_of_error unshown] at stepped
  exact ⟨_, stepped, rfl, rfl⟩

end
end Act

namespace World
variable {δ : Type} [Devices δ]

/-- A drawing instruction whose picture cannot be shown fails with its sprite drawn and the program counter where it
was. Tried again with a display that works, it draws the sprite on top of that: next to the one step with a working
display there is one drawing more, and one instruction more is counted. All else is the same, so for a sprite with
nothing in it the retry makes no difference, and for any other one it does. Unless the sprite's place depends on VF, the
retry takes the sprite off the screen again, and VF tells whether the first try had lit a pixel. -/
theorem retried_draw_draws_again {w : World δ} {x y : Register} {n : Fin 16}
    (next : w.machine.next? = some (.draw x y n)) {fault : Fault} {broken working working' : δ}
    (fails : DeviceCall.Fails w.devices (.present (w.machine.painted x y n).screen) fault broken)
    (works : DisplayWorks working) (works' : DisplayWorks working') :
    ∃ failed retried single, Act.step w = (.error fault, failed) ∧ failed.devices = broken ∧
      Act.step { failed with devices := working } = (.ok (), retried) ∧
      Act.step { w with devices := working' } = (.ok (), single) ∧
      retried.machine = single.machine.painted x y n ∧
      (x ≠ Machine.flagRegister → y ≠ Machine.flagRegister →
        retried.machine.screen = w.machine.screen ∧
        (retried.machine.v[Machine.flagRegister] = 1 ↔
          ∃ s ∈ Screen.covered w.machine.v[x].toNat w.machine.v[y].toNat (w.machine.sprite n),
            w.machine.screen.lit s = false)) ∧
      (retried.machine.screen = single.machine.screen ∧ retried.machine.v = single.machine.v ↔
        ∀ row ∈ w.machine.sprite n, row = 0) := by
  obtain ⟨failed, stepped, left, devices⟩ := Act.step_of_draw_unshown next fails
  have next' : failed.machine.next? = some (.draw x y n) := by rw [left, Machine.next?_painted, next]
  obtain ⟨retried, again, result⟩ := Act.step_of_draw_shown (w := { failed with devices := working }) next' works
  obtain ⟨single, once, result'⟩ := Act.step_of_draw_shown (w := { w with devices := working' }) next works'
  have both : retried.machine = single.machine.painted x y n := by
    rw [result, result', left, Machine.settled_painted]
  obtain ⟨pc, status, settled⟩ := w.machine.settled .next
  refine ⟨failed, retried, single, stepped, devices, again, once, both, fun hx hy => ⟨?_, ?_⟩, ?_⟩
  · rw [both, result', Machine.screen_painted_painted hx hy, settled]
  · rw [both, result', Machine.flag_painted_painted hx hy, settled]
    rfl
  · rw [both, result', Machine.painted_painted_iff, settled]
    rfl

/-- The glyph of zero, drawn at the corner of an empty screen, is gone after the retry. -/
theorem glyph_gone_after_retry :
    ∃ m, Machine.build { program := some [0xa0, 0x50, 0xd0, 0x05] } 0 = .ok m ∧
      let drawing := World.after (⟨m, {}, {}, []⟩ : World Bench) [.reset, .step]
      let w := { drawing with devices := ({ broken := some .display } : Bench) }
      w.machine.next? = some (.draw 0 0 5) ∧
      DeviceCall.Fails w.devices (.present (w.machine.painted 0 0 5).screen) (.io (.device .other "display broken"))
        w.devices ∧
      DisplayWorks ({} : Bench) ∧
      ∃ failed retried single, Act.step w = (.error (.io (.device .other "display broken")), failed) ∧
        Act.step { failed with devices := ({} : Bench) } = (.ok (), retried) ∧
        Act.step { w with devices := ({} : Bench) } = (.ok (), single) ∧
        retried.machine.screen.lit (Screen.wrapped 0 0) = false ∧
        ¬(retried.machine.screen = single.machine.screen ∧ retried.machine.v = single.machine.v) := by
  obtain ⟨m, built, next, empty, glyph⟩ := exists_after { program := some [0xa0, 0x50, 0xd0, 0x05] } 0 ({} : Bench) {}
    [.reset, .step]
    (fun w => w.machine.next? = some (.draw 0 0 5) ∧ w.machine.screen.lit (Screen.wrapped 0 0) = false ∧
      (w.machine.sprite 5).head? = some 0xf0)
    (by decide +kernel)
  refine ⟨m, built, ?_⟩
  generalize World.after (⟨m, {}, {}, []⟩ : World Bench) [.reset, .step] = drawing at next empty glyph ⊢
  have works : DisplayWorks ({} : Bench) := fun screen => ⟨_, rfl⟩
  have fails : DeviceCall.Fails ({ broken := some .display } : Bench) (.present (drawing.machine.painted 0 0 5).screen)
      (.io (.device .other "display broken")) { broken := some .display } := .present rfl
  obtain ⟨failed, retried, single, stepped, -, again, once, -, erased, differs⟩ :=
    retried_draw_draws_again (w := { drawing with devices := ({ broken := some .display } : Bench) })
      next fails works works
  refine ⟨next, fails, works, failed, retried, single, stepped, again, once,
    (erased (by decide) (by decide)).1 ▸ empty, fun same => ?_⟩
  have nothing := differs.mp same _ (List.mem_of_head? glyph)
  cases nothing

/-- One step draws the glyph of zero and darkens no pixel. A step that fails and its retry leave an empty screen, and
the flag in VF that a pixel was darkened. -/
theorem retry_differs_from_step :
    ∃ m, Machine.build { program := some [0xa0, 0x50, 0xd0, 0x05] } 0 = .ok m ∧
      let w := World.after (⟨m, {}, {}, []⟩ : World Bench) [.reset, .step]
      let failed := Act.step { w with devices := { w.devices with broken := some .display } }
      let retried := Act.step { failed.2 with devices := { failed.2.devices with broken := none } }
      let single := Act.step w
      w.machine.next? = some (.draw 0 0 5) ∧ failed.1 = .error (.io (.device .other "display broken")) ∧
        retried.1 = .ok () ∧ single.1 = .ok () ∧
        single.2.machine.screen.lit (Screen.wrapped 0 0) = true ∧ single.2.machine.v[Machine.flagRegister] = 0 ∧
        retried.2.machine.screen.lit (Screen.wrapped 0 0) = false ∧ retried.2.machine.v[Machine.flagRegister] = 1 :=
  exists_after { program := some [0xa0, 0x50, 0xd0, 0x05] } 0 ({} : Bench) {} [.reset, .step]
    (fun w =>
      let failed := Act.step { w with devices := { w.devices with broken := some .display } }
      let retried := Act.step { failed.2 with devices := { failed.2.devices with broken := none } }
      let single := Act.step w
      w.machine.next? = some (.draw 0 0 5) ∧ failed.1 = .error (.io (.device .other "display broken")) ∧
        retried.1 = .ok () ∧ single.1 = .ok () ∧
        single.2.machine.screen.lit (Screen.wrapped 0 0) = true ∧ single.2.machine.v[Machine.flagRegister] = 0 ∧
        retried.2.machine.screen.lit (Screen.wrapped 0 0) = false ∧ retried.2.machine.v[Machine.flagRegister] = 1)
    (by decide +kernel)

end World
end Chip8
