import Chip8.Event

/-!
Values with the events that were noted on the way to them. What is noted has no influence on the
value: the value of a sequence of steps is that of the steps without their notes.
-/

namespace Chip8

/-- A value and what was noted in arriving at it, the oldest event first. -/
@[ext]
structure Noted (α : Type) where
  value : α
  notes : List Event

namespace Noted

variable {α β : Type}

instance : Monad Noted where
  pure a := ⟨a, []⟩
  bind x f := ⟨(f x.value).value, x.notes ++ (f x.value).notes⟩

def note (e : Event) : Noted Unit := ⟨(), [e]⟩

def noteIf (condition : Bool) (e : Event) : Noted Unit := ⟨(), if condition then [e] else []⟩

@[simp] theorem value_pure (a : α) : (pure a : Noted α).value = a := rfl

@[simp] theorem notes_pure (a : α) : (pure a : Noted α).notes = [] := rfl

@[simp] theorem value_bind (x : Noted α) (f : α → Noted β) : (x >>= f).value = (f x.value).value := rfl

@[simp] theorem notes_bind (x : Noted α) (f : α → Noted β) :
    (x >>= f).notes = x.notes ++ (f x.value).notes := rfl

@[simp] theorem value_map (f : α → β) (x : Noted α) : (f <$> x).value = f x.value := rfl

@[simp] theorem notes_map (f : α → β) (x : Noted α) : (f <$> x).notes = x.notes := by
  simp [Functor.map]

@[simp] theorem notes_note (e : Event) : (note e).notes = [e] := rfl

@[simp] theorem notes_noteIf (c : Bool) (e : Event) :
    (noteIf c e).notes = if c then [e] else [] := rfl

instance : LawfulMonad Noted :=
  LawfulMonad.mk' Noted
    (fun x => Noted.ext rfl (by simp))
    (fun _ _ => Noted.ext rfl (by simp))
    (fun _ _ _ => Noted.ext rfl (by simp))

end Noted
end Chip8
