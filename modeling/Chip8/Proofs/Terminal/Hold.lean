import Chip8.Terminal.Keyboard

/-!
How long a press lasts. What is known of a key at a reading is read off what was typed: it is down if it was struck
since the last reading or in one of the five before, and what was typed of other keys does not matter. That the user
wants to stop is never forgotten.
-/

namespace Chip8.Terminal

namespace TypedEvent

/-- A press of a key of the machine. Letters count in either case, and C with CONTROL does not count. -/
inductive Strikes (key : Fin 16) : TypedEvent → Prop
  | char {press : KeyPress} {c : Char} : press.code = .char c → ¬(c = 'c' ∧ press.control = true) →
      machineKey? c.toLower = some key → Strikes key (.key press)

/-- A press that asks to stop. -/
inductive Quits : TypedEvent → Prop
  | escape {press : KeyPress} : press.code = .escape → Quits (.key press)
  | interrupt {press : KeyPress} : press.code = .char 'c' → press.control = true → Quits (.key press)

variable {e : TypedEvent} {key other : Fin 16}

theorem Strikes.unique (h : e.Strikes key) (h' : e.Strikes other) : other = key := by
  obtain ⟨code, -, maps⟩ := h
  obtain ⟨code', -, maps'⟩ := h'
  obtain rfl := KeyCode.char.inj (code.symm.trans code')
  exact Option.some.inj (maps'.symm.trans maps)

theorem Strikes.not_quits (h : e.Strikes key) : ¬e.Quits := by
  obtain ⟨code, ordinary, -⟩ := h
  rintro (escape | ⟨interrupt, control⟩)
  · cases code.symm.trans escape
  · exact ordinary ⟨KeyCode.char.inj (code.symm.trans interrupt), control⟩

end TypedEvent

namespace Keyboard
open TypedEvent (Strikes Quits)

variable {k : Keyboard} {e : TypedEvent} {typed : List TypedEvent} {key : Fin 16}

theorem isQuit_iff {press : KeyPress} : isQuit press = true ↔ Quits (.key press) := by
  simp only [isQuit, Bool.or_eq_true, Bool.and_eq_true, beq_iff_eq]
  constructor
  · rintro (escape | ⟨interrupt, control⟩)
    · exact .escape escape
    · exact .interrupt interrupt control
  · rintro (escape | ⟨interrupt, control⟩)
    · exact Or.inl escape
    · exact Or.inr ⟨interrupt, control⟩

/-- What an event makes of a keyboard. -/
inductive Hears (k : Keyboard) (e : TypedEvent) : Keyboard → Prop
  | quit : e.Quits → Hears k e { k with quit := true }
  | struck {key : Fin 16} : e.Strikes key → Hears k e { k with held := k.held.setIfInBounds key holdReadings }
  | ignored : ¬e.Quits → (∀ key, ¬e.Strikes key) → Hears k e k

theorem hears_hear (k : Keyboard) (e : TypedEvent) : k.Hears e (k.hear e).value := by
  cases e with
  | mouse | other =>
    refine .ignored ?_ fun key => ?_
    · rintro ⟨⟩
    · rintro ⟨⟩
  | key press =>
    rw [hear]
    split
    · next asks => exact .quit (isQuit_iff.mp asks)
    · next goes =>
      have goes : ¬Quits (.key press) := fun quits => goes (isQuit_iff.mpr quits)
      split
      · next c code =>
        split
        · next key maps =>
          have plain : ¬(c = 'c' ∧ press.control = true) := by
            rintro ⟨rfl, control⟩
            exact goes (.interrupt code control)
          exact .struck (.char code plain maps)
        · next unmapped =>
          refine .ignored goes ?_
          rintro key ⟨code', -, maps⟩
          obtain rfl := KeyCode.char.inj (code.symm.trans code')
          cases unmapped.symm.trans maps
      · next plain =>
        refine .ignored goes ?_
        rintro key ⟨code, -⟩
        exact plain _ code

theorem held_hear_of_strikes (h : e.Strikes key) : (k.hear e).value.held.get key = holdReadings := by
  have heard := k.hears_hear e
  generalize (k.hear e).value = after at heard
  cases heard with
  | quit quits => exact absurd quits h.not_quits
  | struck struck =>
    obtain rfl := h.unique struck
    exact Vector.getElem_setIfInBounds_self ..
  | ignored _ free => exact absurd h (free key)

theorem held_hear_of_not (h : ¬e.Strikes key) : (k.hear e).value.held.get key = k.held.get key := by
  have heard := k.hears_hear e
  generalize (k.hear e).value = after at heard
  cases heard with
  | quit | ignored => rfl
  | @struck other struck =>
    refine Vector.getElem_setIfInBounds_ne _ fun same => h ?_
    rwa [← Fin.ext same]

theorem quit_hear : (k.hear e).value.quit = true ↔ k.quit = true ∨ e.Quits := by
  have heard := k.hears_hear e
  generalize (k.hear e).value = after at heard
  cases heard with
  | quit quits => exact iff_of_true rfl (Or.inr quits)
  | struck struck => exact (or_iff_left struck.not_quits).symm
  | ignored goes => exact (or_iff_left goes).symm

/-! ### Batches -/

/-- Whether a key was struck in a batch. -/
def Struck (typed : List TypedEvent) (key : Fin 16) : Prop := ∃ e ∈ typed, e.Strikes key

theorem struck_cons {rest : List TypedEvent} : Struck (e :: rest) key ↔ e.Strikes key ∨ Struck rest key := by
  simp [Struck]

theorem held_hearAll_of_not (h : ¬Struck typed key) : (k.hearAll typed).value.held.get key = k.held.get key := by
  induction typed generalizing k with
  | nil => rfl
  | cons e rest ih =>
    obtain ⟨first, later⟩ := not_or.mp (mt struck_cons.mpr h)
    exact (ih later).trans (held_hear_of_not first)

theorem quit_hearAll : (k.hearAll typed).value.quit = true ↔ k.quit = true ∨ ∃ e ∈ typed, e.Quits := by
  induction typed generalizing k with
  | nil => simp [hearAll]
  | cons e rest ih =>
    change ((k.hear e).value.hearAll rest).value.quit = true ↔ _
    simp only [ih, quit_hear, List.mem_cons, exists_eq_or_imp, or_assoc]

/-- However often a key is struck, and whatever is typed besides, it is held from then on. -/
theorem held_hearAll_of_struck (h : Struck typed key) : (k.hearAll typed).value.held.get key = holdReadings := by
  induction typed generalizing k with
  | nil => simp [Struck] at h
  | cons e rest ih =>
    change ((k.hear e).value.hearAll rest).value.held.get key = _
    by_cases later : Struck rest key
    · exact ih later
    · have first : e.Strikes key := (struck_cons.mp h).resolve_right later
      rw [held_hearAll_of_not later, held_hear_of_strikes first]

/-! ### Readings -/

/-- A keyboard that was never read before, after as many readings; before each of them a batch was typed. -/
def before (typed : Nat → List TypedEvent) : (readings : Nat) → Keyboard
  | 0 => {}
  | t + 1 => ((before typed t).poll (typed t)).value.2

section
variable (typed : Nat → List TypedEvent) (key : Fin 16) {t left : Nat}

/-- A batch only matters for the keys that are struck in it. -/
theorem lt_held_hearAll_iff
    (earlier : left < (before typed t).held.get key ↔ ∃ s < t, t + left ≤ s + 5 ∧ Struck (typed s) key) :
    left < ((before typed t).hearAll (typed t)).value.held.get key ↔
      ∃ s ≤ t, t + left ≤ s + 5 ∧ Struck (typed s) key := by
  by_cases now : Struck (typed t) key
  · have full : ((before typed t).hearAll (typed t)).value.held.get key = 6 := held_hearAll_of_struck now
    rw [full]
    constructor
    · intro lt
      exact ⟨t, Nat.le_refl t, by omega, now⟩
    · rintro ⟨s, le, near, -⟩
      omega
  · rw [held_hearAll_of_not now, earlier]
    constructor
    · rintro ⟨s, lt, lately⟩
      exact ⟨s, Nat.le_of_lt lt, lately⟩
    · rintro ⟨s, le, near, struck⟩
      refine ⟨s, Nat.lt_of_le_of_ne le ?_, near, struck⟩
      rintro rfl
      exact now struck

/-- For how many more readings a key is held tells how long ago it was struck. -/
theorem lt_held_before_iff (t left : Nat) :
    left < (before typed t).held.get key ↔ ∃ s < t, t + left ≤ s + 5 ∧ Struck (typed s) key := by
  induction t generalizing left with
  | zero =>
    have released : (before typed 0).held.get key = 0 := Vector.getElem_replicate ..
    simp [released]
  | succ t ih =>
    have counted : (before typed (t + 1)).held.get key = ((before typed t).hearAll (typed t)).value.held.get key - 1 :=
      Vector.getElem_map ..
    rw [counted, Nat.lt_sub_iff_add_lt, lt_held_hearAll_iff typed key (ih (left + 1))]
    simp only [Nat.lt_succ_iff, Nat.add_assoc, Nat.add_comm 1]

theorem quit_before_iff (t : Nat) : (before typed t).quit = true ↔ ∃ s < t, ∃ e ∈ typed s, e.Quits := by
  induction t with
  | zero => simp [before]
  | succ t ih =>
    change ((before typed t).hearAll (typed t)).value.quit = true ↔ _
    rw [quit_hearAll, ih]
    constructor
    · rintro (⟨s, lt, asked⟩ | asked)
      · exact ⟨s, Nat.lt_succ_of_lt lt, asked⟩
      · exact ⟨t, Nat.lt_succ_self t, asked⟩
    · rintro ⟨s, lt, asked⟩
      rcases Nat.lt_succ_iff_lt_or_eq.mp lt with earlier | rfl
      · exact Or.inl ⟨s, earlier, asked⟩
      · exact Or.inr asked

end

/-- Whatever is typed before each reading of a keyboard, a key is down at a reading if and only if it was struck in the
batch before it or in one of the last five before that, and the user is known to want to stop from the reading on before
which escape, or C with CONTROL, was typed for the first time. -/
theorem key_down_iff_struck_lately (typed : Nat → List TypedEvent) (t : Nat) :
    let reading := ((before typed t).poll (typed t)).value
    (∀ key : Fin 16, reading.1.get key = true ↔ ∃ s ≤ t, t ≤ s + 5 ∧ ∃ e ∈ typed s, e.Strikes key) ∧
    (reading.2.quit = true ↔ ∃ s ≤ t, ∃ e ∈ typed s, e.Quits) := by
  refine ⟨fun key => ?_, ?_⟩
  · have down : ((before typed t).poll (typed t)).value.1.get key =
        decide (0 < ((before typed t).hearAll (typed t)).value.held.get key) := Vector.getElem_map ..
    rw [down, decide_eq_true_iff]
    exact lt_held_hearAll_iff typed key (lt_held_before_iff typed key t 0)
  · have known := quit_before_iff typed (t + 1)
    simp only [Nat.lt_succ_iff] at known
    exact known

/-- A press before the second reading lasts for six readings. -/
example :
    let typed : Nat → List TypedEvent := fun t => if t = 1 then [.key { code := .char 'Q' }] else []
    (List.range 8).map (fun t => ((before typed t).poll (typed t)).value.1.get 4) =
      [false, true, true, true, true, true, true, false] := by
  decide +kernel

end Keyboard
end Chip8.Terminal
