import Chip8.Machine.Execute

/-!
What the registers hold after they were set.
-/

namespace Chip8.Machine

variable (m : Machine) (x r : Register) (value flag : UInt8)

theorem getElem_setRegister : (m.setRegister x value).v[r] = if r = x then value else m.v[r] := by
  by_cases same : r = x
  · subst same
    rw [if_pos rfl]
    exact Vector.getElem_setIfInBounds_self r.isLt
  · rw [if_neg same]
    exact Vector.getElem_setIfInBounds_ne r.isLt fun place => same (Fin.ext place.symm)

/-- The flag goes in last. -/
theorem getElem_setWithFlag :
    (m.setWithFlag x value flag).v[r] = if r = flagRegister then flag else if r = x then value else m.v[r] := by
  rw [setWithFlag, getElem_setRegister, getElem_setRegister]

theorem getElem_loadRegisters :
    (m.loadRegisters x).v[r] = if r ≤ x then m.ram.read (m.i.toNat + r.val) else m.v[r] := by
  unfold loadRegisters
  exact Vector.getElem_ofFn r.isLt

end Chip8.Machine
