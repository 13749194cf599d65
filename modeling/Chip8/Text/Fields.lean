/-!
Texts that a mark divides into fields. Cutting and dividing lose nothing: the parts with their marks
are the text again, and fields without the mark are found again in the text that they make.
-/

namespace Chip8.Text

variable {mark : Char} {text first rest before after : List Char}

/-- What stands before the first `mark` and what stands after it. -/
def cut? (mark : Char) : List Char → Option (List Char × List Char)
  | [] => none
  | c :: rest =>
    if c = mark then some ([], rest)
    else (cut? mark rest).map fun parts => (c :: parts.1, parts.2)

/-- The first field and the fields after it. A text without the mark is one field. -/
def divide (mark : Char) : List Char → List Char × List (List Char)
  | [] => ([], [])
  | c :: rest =>
    let parts := divide mark rest
    if c = mark then ([], parts.1 :: parts.2) else (c :: parts.1, parts.2)

/-- The fields one after another, a mark before each but the first. -/
def unite (mark : Char) (fields : List Char × List (List Char)) : List Char :=
  fields.1 ++ fields.2.flatMap (mark :: ·)

/-! ### Cutting -/

theorem cut?_eq_none_iff : cut? mark text = none ↔ mark ∉ text := by
  induction text with
  | nil => simp [cut?]
  | cons c rest ih =>
    by_cases h : c = mark
    · simp [cut?, h]
    · simp [cut?, h, ih, Ne.symm h]

theorem cut?_eq_some_iff :
    cut? mark text = some (before, after) ↔ text = before ++ mark :: after ∧ mark ∉ before := by
  induction text generalizing before with
  | nil => simp [cut?]
  | cons c rest ih =>
    by_cases h : c = mark
    · subst h
      cases before with
      | nil => simp [cut?, eq_comm]
      | cons b before =>
        simp only [cut?, if_true, List.cons_append, List.cons.injEq, List.mem_cons, not_or]
        constructor
        · rintro ⟨⟩
        · rintro ⟨⟨rfl, -⟩, hne, -⟩
          exact absurd rfl hne
    · cases before with
      | nil => simp [cut?, h]
      | cons b before =>
        simp only [cut?, if_neg h, Option.map_eq_some_iff, Prod.mk.injEq, List.cons.injEq,
          List.cons_append, List.mem_cons, not_or, Prod.exists]
        constructor
        · rintro ⟨x, y, hcut, ⟨rfl, rfl⟩, rfl⟩
          obtain ⟨rfl, hx⟩ := ih.mp hcut
          exact ⟨⟨rfl, rfl⟩, fun e => h e.symm, hx⟩
        · rintro ⟨⟨rfl, rfl⟩, -, hx⟩
          exact ⟨before, after, ih.mpr ⟨rfl, hx⟩, ⟨rfl, rfl⟩, rfl⟩

/-! ### Dividing -/

theorem unite_divide (mark : Char) (text : List Char) : unite mark (divide mark text) = text := by
  induction text with
  | nil => rfl
  | cons c rest ih =>
    by_cases h : c = mark
    · simpa [divide, unite, h] using ih
    · simpa [divide, unite, h] using ih

theorem divide_of_not_mem (h : mark ∉ text) : divide mark text = (text, []) := by
  induction text with
  | nil => rfl
  | cons c rest ih =>
    simp only [List.mem_cons, not_or] at h
    simp [divide, ih h.2, Ne.symm h.1]

theorem divide_append (h : mark ∉ first) :
    divide mark (first ++ mark :: rest) =
      (first, (divide mark rest).1 :: (divide mark rest).2) := by
  induction first with
  | nil => simp [divide]
  | cons c first ih =>
    simp only [List.mem_cons, not_or] at h
    simp [divide, ih h.2, Ne.symm h.1]

theorem divide_unite {fields : List (List Char)} (hfirst : mark ∉ first)
    (hfields : ∀ f ∈ fields, mark ∉ f) :
    divide mark (unite mark (first, fields)) = (first, fields) := by
  induction fields generalizing first with
  | nil => simpa [unite] using divide_of_not_mem hfirst
  | cons f fields ih =>
    have hf := ih (hfields f (by simp)) fun g hg => hfields g (by simp [hg])
    simp only [unite, List.flatMap_cons, List.cons_append] at hf ⊢
    rw [divide_append hfirst, hf]

/-- No field contains the mark. -/
theorem not_mem_divide (mark : Char) (text : List Char) :
    ∀ f ∈ (divide mark text).1 :: (divide mark text).2, mark ∉ f := by
  induction text with
  | nil => simp [divide]
  | cons c rest ih =>
    by_cases h : c = mark
    · simpa [divide, h] using ih
    · simpa [divide, h, Ne.symm h] using ih

theorem divide_eq_iff {fields : List (List Char)} :
    divide mark text = (first, fields) ↔ text = unite mark (first, fields) ∧ ∀ f ∈ first :: fields, mark ∉ f := by
  constructor
  · intro divided
    have whole := unite_divide mark text
    have free := not_mem_divide mark text
    rw [divided] at whole free
    exact ⟨whole.symm, free⟩
  · rintro ⟨rfl, free⟩
    obtain ⟨hfirst, hfields⟩ := List.forall_mem_cons.mp free
    exact divide_unite hfirst hfields

/-- The marks in a text are those that stand between its fields. -/
theorem length_divide (mark : Char) (text : List Char) : (divide mark text).2.length = text.count mark := by
  induction text with
  | nil => rfl
  | cons c rest ih =>
    by_cases h : c = mark
    · simp [divide, h, ih]
    · simp [divide, h, ih]

end Chip8.Text
