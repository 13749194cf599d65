import Chip8.Bench
import Chip8.Proofs.Screen.Drawings
import Chip8.Proofs.World.Retry

/-!
Drawing the same sprite twice in a program. What happens to the screen does not depend on the order of the drawings, and
the second of two equal ones takes the first one back; VF tells then whether the first one had left a pixel lit.
-/

namespace Chip8

namespace Machine

theorem bit_eq_zero_or_one (condition : Bool) : bit condition = 0 ∨ bit condition = 1 := by
  cases condition <;> decide

section
variable {m n : Machine} {instruction : Instruction} {done : Noted Executed} (next : m.next? = some instruction)
  (executed : m.counted.execute instruction = some done) (wish : done.value.request ≠ .reset)
include next executed wish

omit next executed in
theorem Fulfilled.kept_of_wish (fulfilled : Fulfilled done.value n) : n = done.value.machine := by
  cases fulfilled with
  | kept _ => rfl
  | restarted reset _ => exact absurd reset wish

/-- A step leaves what its instruction has left, but for where it goes on. -/
theorem Stepped.left (step : m.Stepped n) : ∃ pc status, n = { done.value.machine with pc, status } := by
  obtain ⟨done', k, executed', fulfilled, rfl⟩ := step.of_next next
  obtain rfl := Option.some.inj (executed.symm.trans executed')
  rw [fulfilled.kept_of_wish wish]
  exact done.value.machine.settled done.value.flow

theorem Broken.left (step : m.Broken n) : n = done.value.machine :=
  (step.of_next next executed).kept_of_wish wish

end
end Machine

namespace World
variable {δ : Type} [Devices δ] {w : World δ}

theorem machine_of_step {instruction : Instruction} {done : Noted Executed} (next : w.machine.next? = some instruction)
    (executed : w.machine.counted.execute instruction = some done) (wish : done.value.request ≠ .reset) :
    ∃ pc status, (Act.step w).2.machine = { done.value.machine with pc, status } := by
  have ended := Act.step_leaves (m := w.machine) w rfl
  refine Act.Ends.answer (P := fun _ after => ∃ pc status, after.machine = { done.value.machine with pc, status })
    (ended.mono ?_ ?_)
  · intro _ after stepped
    exact stepped.left next executed wish
  · intro _ after broken
    exact ⟨_, _, broken.left next executed wish⟩

section
variable {x y : Register} {n : Fin 16}

theorem step_paints (next : w.machine.next? = some (.draw x y n)) :
    (Act.step w).2.machine.screen = (w.machine.drawing x y n).2 ∧
    (Act.step w).2.machine.v[Machine.flagRegister] = Machine.bit (w.machine.drawing x y n).1 ∧
    (∀ r : Register, r ≠ Machine.flagRegister → (Act.step w).2.machine.v[r] = w.machine.v[r]) ∧
    (Act.step w).2.machine.sprite n = w.machine.sprite n := by
  have executed : w.machine.counted.execute (.draw x y n) = some (w.machine.counted.draw x y n) := rfl
  obtain ⟨pc, status, painted⟩ := machine_of_step next executed (by simp [Machine.draw])
  rw [painted]
  exact ⟨rfl, Vector.getElem_setIfInBounds_self _, fun r other => Machine.getElem_painted other, rfl⟩

/-- A second drawing from the same registers and bytes, on the screen that the first one has left. -/
theorem redraw (hx : x ≠ Machine.flagRegister) (hy : y ≠ Machine.flagRegister) {later : World δ}
    (next : w.machine.next? = some (.draw x y n))
    (screen : later.machine.screen = (Act.step w).2.machine.screen)
    (atX : later.machine.v[x] = (Act.step w).2.machine.v[x]) (atY : later.machine.v[y] = (Act.step w).2.machine.v[y])
    (sprite : later.machine.sprite n = (Act.step w).2.machine.sprite n) :
    later.machine.drawing x y n =
      (w.machine.drawing x y n).2.draw w.machine.v[x] w.machine.v[y] (w.machine.sprite n) := by
  obtain ⟨painted, -, kept, bytes⟩ := step_paints next
  rw [Machine.drawing, screen, atX, atY, sprite, painted, kept x hx, kept y hy, bytes]

end

/-- Sprites drawn one after the other turn pixels over: a pixel is lit in the end if it was lit before or by the same
sprites on an empty screen, but not both. So their order does not matter, and those that occur an even number of times
can be left out. A machine that draws what it has drawn before, from the same registers other than VF and with the same
bytes at I, has its former screen again, wherever I points; VF tells whether a bit of the sprite comes to lie on a pixel
that was lit in between. -/
theorem drawing_is_order_free :
    (∀ (screen : Screen) (ds es : List Drawing), ds.Perm es → screen.drawAll ds = screen.drawAll es) ∧
    (∀ (screen : Screen) (ds : List Drawing) (d : Drawing), ds.count d % 2 = 0 →
      screen.drawAll (ds.filter (· ≠ d)) = screen.drawAll ds) ∧
    (∀ (screen : Screen) (ds : List Drawing) (s : Spot),
      (screen.drawAll ds).lit s = (screen.lit s ^^ (Screen.blank.drawAll ds).lit s)) ∧
    ∀ (w later : World δ) (x y : Register) (n : Fin 16), x ≠ Machine.flagRegister → y ≠ Machine.flagRegister →
      w.machine.next? = some (.draw x y n) → later.machine.next? = some (.draw x y n) →
      let first := (Act.step w).2.machine
      let second := (Act.step later).2.machine
      later.machine.screen = first.screen → later.machine.v[x] = first.v[x] → later.machine.v[y] = first.v[y] →
      later.machine.sprite n = first.sprite n →
      let covering := Screen.coverings w.machine.v[x].toNat w.machine.v[y].toNat (w.machine.sprite n)
      second.screen = w.machine.screen ∧
      (second.v[Machine.flagRegister] = 0 ∨ second.v[Machine.flagRegister] = 1) ∧
      (second.v[Machine.flagRegister] = 1 ↔ ∃ s, (covering s).Nonempty ∧ first.screen.lit s = true) := by
  refine ⟨fun screen ds es => Screen.drawAll_of_perm, fun screen ds d => Screen.drawAll_filter,
    fun screen => Screen.lit_drawAll_blank, ?_⟩
  intro w later x y n hx hy next next' first second screen atX atY sprite covering
  have again := redraw hx hy next screen atX atY sprite
  obtain ⟨painted, flag, -⟩ := step_paints next'
  rw [again] at painted flag
  have fits := w.machine.length_sprite n
  have between : first.screen = (w.machine.drawing x y n).2 := (step_paints next).1
  refine ⟨painted.trans (Screen.draw_draw fits _ _), ?_, ?_⟩
  · rw [flag]
    exact Machine.bit_eq_zero_or_one _
  · have once := Screen.covered_nodup fits w.machine.v[x].toNat w.machine.v[y].toNat
    rw [flag, Machine.bit_eq_one_iff, between, Screen.draw, Screen.darkened_flipAll once]
    exact exists_congr fun s => and_congr_left fun _ => Screen.coverings_nonempty_iff.symm

/-- A sprite of three rows, the first one in the last byte of memory and the others in the font at its beginning, is drawn
by a word and taken off the screen by the next. -/
theorem wrapped_sprite_comes_off :
    let config : Config := { fontAddress := 0, program := some [0xaf, 0xff, 0xd0, 0x13, 0xd0, 0x13] }
    ∃ m, Machine.build config 0 = .ok m ∧
      let w := World.after (⟨m, {}, {}, []⟩ : World Bench) [.reset, .step]
      let between := (Act.step w).2
      w.machine.next? = some (.draw 0 1 3) ∧ between.machine.next? = some (.draw 0 1 3) ∧
        w.machine.sprite 3 = [0x00, 0xf0, 0x90] ∧ between.machine.screen.lit (Screen.wrapped 0 1) = true ∧
        (Act.step between).2.machine.screen = w.machine.screen ∧
        (Act.step between).2.machine.v[Machine.flagRegister] = 1 := by
  intro config
  obtain ⟨m, built, next, next', rows, corner, lit⟩ := exists_after config 0 ({} : Bench) {} [.reset, .step]
    (fun w => w.machine.next? = some (.draw 0 1 3) ∧ (Act.step w).2.machine.next? = some (.draw 0 1 3) ∧
      w.machine.sprite 3 = [0x00, 0xf0, 0x90] ∧
      (w.machine.v[(0 : Register)] = 0 ∧ w.machine.v[(1 : Register)] = 0) ∧
      (Act.step w).2.machine.screen.lit (Screen.wrapped 0 1) = true)
    (by decide +kernel)
  refine ⟨m, built, ?_⟩
  dsimp only
  generalize World.after (⟨m, {}, {}, []⟩ : World Bench) [.reset, .step] = w at next next' rows corner lit ⊢
  obtain ⟨-, -, -, redrawn⟩ := drawing_is_order_free (δ := Bench)
  obtain ⟨restored, -, flag⟩ := redrawn w (Act.step w).2 0 1 3 (by decide) (by decide) next next' rfl rfl rfl rfl
  have covers : (Screen.coverings w.machine.v[(0 : Register)].toNat w.machine.v[(1 : Register)].toNat
      (w.machine.sprite 3) (Screen.wrapped 0 1)).Nonempty := by
    rw [corner.1, corner.2, rows]
    exact Screen.coverings_nonempty_iff.mpr (by decide)
  exact ⟨next, next', rows, lit, restored, flag.mpr ⟨_, covers, lit⟩⟩

end World
end Chip8
