import Chip8.Envelope

/-!
Envelopes on the wire. A text is refused if it has no bar, or if it begins with one; any other is read, and it is the
text of what was read. So a message that was written is read again just if its parts can be told apart: the target is
not empty, and no part contains the mark that ends it.
-/

namespace Chip8

namespace Envelope

theorem toList_fieldsText (verb : String) (args : List String) :
    (fieldsText verb args).toList = Text.unite fieldSeparator (verb.toList, args.map String.toList) := by
  simp only [fieldsText, Text.unite, String.toList_append, String.toList_join, String.toList_singleton,
    List.flatMap_map, List.singleton_append]

/-- What is split off is what stands before the first bar, if there is something before it. -/
theorem splitTarget_eq_ok_iff {text : String} {target rest : List Char} :
    splitTarget text = .ok (target, rest) ↔
      text.toList = target ++ targetSeparator :: rest ∧ targetSeparator ∉ target ∧ target ≠ [] := by
  rw [← and_assoc, ← Text.cut?_eq_some_iff, splitTarget]
  rcases Text.cut? targetSeparator text.toList with _ | ⟨_ | ⟨c, before⟩, after⟩
  · simp
  · simp only [reduceCtorEq, Option.some.injEq, Prod.mk.injEq, false_iff, not_and]
    rintro ⟨rfl, -⟩ some
    exact some rfl
  · simp only [Except.ok.injEq, Option.some.injEq, Prod.mk.injEq, iff_self_and]
    rintro ⟨rfl, -⟩
    exact List.cons_ne_nil c before

/-- How a text is answered that is read as an envelope: with which of the two errors, and when with none. -/
structure Answers {α : Type} (text : String) (answer : Except CodecError α) : Prop where
  missing : answer = .error (.missingSeparator text) ↔ '|' ∉ text.toList
  nameless : answer = .error (.emptyTarget text) ↔ text.toList.head? = some '|'
  read : (∃ a, answer = .ok a) ↔ '|' ∈ text.toList ∧ text.toList.head? ≠ some '|'

/-- An envelope of any kind is read from its parts, so that reading it fails only where the target is split off. -/
theorem answers_map_splitTarget {α : Type} (text : String) (f : List Char × List Char → α) :
    Answers text ((splitTarget text).map f) := by
  unfold splitTarget
  rcases cut : Text.cut? targetSeparator text.toList with _ | ⟨_ | ⟨c, target⟩, rest⟩
  · have unmarked : '|' ∉ text.toList := Text.cut?_eq_none_iff.mp cut
    have other : text.toList.head? ≠ some '|' := fun head => unmarked (List.mem_of_head? head)
    exact ⟨by simp [Except.map, unmarked], by simp [Except.map, other], by simp [Except.map, unmarked]⟩
  · obtain ⟨whole, -⟩ := Text.cut?_eq_some_iff.mp cut
    have head : text.toList.head? = some '|' := by rw [whole]; rfl
    have marked : '|' ∈ text.toList := List.mem_of_head? head
    exact ⟨by simp [Except.map, marked], by simp [Except.map, head], by simp [Except.map, head]⟩
  · obtain ⟨whole, free⟩ := Text.cut?_eq_some_iff.mp cut
    have marked : '|' ∈ text.toList := by simp [whole, targetSeparator]
    have other : text.toList.head? ≠ some '|' := by
      rw [whole]
      simp only [List.cons_append, List.head?_cons, ne_eq, Option.some.injEq]
      exact fun same => free (same ▸ List.mem_cons_self)
    exact ⟨by simp [Except.map, marked], by simp [Except.map, other], by simp [Except.map, marked, other]⟩

theorem map_splitTarget_eq_ok_iff {α : Type} {text : String} {f : List Char × List Char → α} {a : α} :
    (splitTarget text).map f = .ok a ↔ ∃ target rest,
      (text.toList = target ++ targetSeparator :: rest ∧ targetSeparator ∉ target ∧ target ≠ []) ∧
        f (target, rest) = a := by
  simp only [← splitTarget_eq_ok_iff]
  rcases splitTarget text with e | parts
  · simp [Except.map]
  · constructor
    · intro done
      exact ⟨parts.1, parts.2, rfl, Except.ok.inj done⟩
    · rintro ⟨target, rest, split, rfl⟩
      rw [Except.ok.inj split]
      rfl

/-- Reads an envelope of the kind that another one has. -/
def parseLike : Envelope → String → Except CodecError Envelope
  | command _, text => (Command.parse text).map command
  | data _, text => (Data.parse text).map data

end Envelope

namespace Command

theorem toList_text (c : Command) :
    c.text.toList = c.target.toList ++
      Envelope.targetSeparator :: Text.unite Envelope.fieldSeparator (c.verb.toList, c.args.map String.toList) := by
  simp only [text, String.toList_append, String.toList_singleton, Envelope.toList_fieldsText, List.append_assoc,
    List.singleton_append]

theorem parse_eq_map (text : String) :
    parse text = (Envelope.splitTarget text).map fun parts =>
      let fields := Text.divide Envelope.fieldSeparator parts.2
      ⟨String.ofList parts.1, String.ofList fields.1, fields.2.map String.ofList⟩ := by
  unfold parse
  rcases Envelope.splitTarget text with _ | ⟨target, rest⟩
  · rfl
  · rfl

theorem parse_answers (text : String) : Envelope.Answers text (parse text) := by
  rw [parse_eq_map]
  exact Envelope.answers_map_splitTarget ..

/-- A verb and arguments without a tilde are found again between the tildes. -/
theorem divide_fields {c : Command} (free : ∀ f ∈ c.verb :: c.args, Envelope.fieldSeparator ∉ f.toList) :
    Text.divide Envelope.fieldSeparator (Text.unite Envelope.fieldSeparator (c.verb.toList, c.args.map String.toList)) =
      (c.verb.toList, c.args.map String.toList) := by
  refine Text.divide_eq_iff.mpr ⟨rfl, fun f hf => ?_⟩
  obtain ⟨g, hg, rfl⟩ : ∃ g ∈ c.verb :: c.args, g.toList = f := List.mem_map.mp hf
  exact free g hg

/-- A command is read just from its own text, and only if it can be told apart there. -/
theorem parse_eq_ok_iff {text : String} {c : Command} :
    parse text = .ok c ↔ c.text = text ∧ c.target ≠ "" ∧ Envelope.targetSeparator ∉ c.target.toList ∧
      ∀ f ∈ c.verb :: c.args, Envelope.fieldSeparator ∉ f.toList := by
  rw [parse_eq_map, Envelope.map_splitTarget_eq_ok_iff]
  constructor
  · rintro ⟨target, rest, ⟨whole, free, some⟩, rfl⟩
    have fields := Text.not_mem_divide Envelope.fieldSeparator rest
    refine ⟨String.toList_inj.mp ?_, by simpa using some, by simpa using free, by simpa using fields⟩
    rw [toList_text, whole]
    simp only [String.toList_ofList, List.map_map, String.toList_comp_ofList, List.map_id]
    exact congrArg (target ++ Envelope.targetSeparator :: ·) (Text.unite_divide ..)
  · rintro ⟨rfl, some, free, fields⟩
    refine ⟨_, _, ⟨c.toList_text, free, mt String.toList_eq_nil_iff.mp some⟩, ?_⟩
    simp only [divide_fields fields, String.ofList_toList, List.map_map, String.ofList_comp_toList, List.map_id]

theorem parse_text {c : Command} (target : Envelope.targetSeparator ∉ c.target.toList)
    (verb : Envelope.fieldSeparator ∉ c.verb.toList)
    (args : ∀ a ∈ c.args, Envelope.fieldSeparator ∉ a.toList) :
    parse c.text = if c.target = "" then .error (.emptyTarget c.text) else .ok c := by
  by_cases empty : c.target = ""
  · have head : c.text.toList.head? = some '|' := by
      rw [toList_text, empty]
      rfl
    rw [if_pos empty, (parse_answers c.text).nameless, head]
  · rw [if_neg empty, parse_eq_ok_iff]
    exact ⟨rfl, empty, target, List.forall_mem_cons.mpr ⟨verb, args⟩⟩

end Command

namespace Data

theorem toList_text (d : Data) :
    d.text.toList = d.target.toList ++ Envelope.targetSeparator :: d.payload.toList := by
  simp only [text, String.toList_append, String.toList_singleton, List.append_assoc, List.singleton_append]

theorem parse_eq_map (text : String) :
    parse text =
      (Envelope.splitTarget text).map fun parts => ⟨String.ofList parts.1, String.ofList parts.2⟩ := by
  unfold parse
  rcases Envelope.splitTarget text with _ | ⟨target, rest⟩
  · rfl
  · rfl

theorem parse_answers (text : String) : Envelope.Answers text (parse text) := by
  rw [parse_eq_map]
  exact Envelope.answers_map_splitTarget ..

/-- Data is read just from its own text, and only if its target can be told apart there. -/
theorem parse_eq_ok_iff {text : String} {d : Data} :
    parse text = .ok d ↔ d.text = text ∧ d.target ≠ "" ∧ Envelope.targetSeparator ∉ d.target.toList := by
  rw [parse_eq_map, Envelope.map_splitTarget_eq_ok_iff]
  constructor
  · rintro ⟨target, rest, ⟨whole, free, some⟩, rfl⟩
    refine ⟨String.toList_inj.mp ?_, by simpa using some, by simpa using free⟩
    rw [toList_text, whole]
    simp only [String.toList_ofList]
  · rintro ⟨rfl, some, free⟩
    refine ⟨_, _, ⟨d.toList_text, free, mt String.toList_eq_nil_iff.mp some⟩, ?_⟩
    simp only [String.ofList_toList]

theorem parse_text {d : Data} (target : Envelope.targetSeparator ∉ d.target.toList) :
    parse d.text = if d.target = "" then .error (.emptyTarget d.text) else .ok d := by
  by_cases empty : d.target = ""
  · have head : d.text.toList.head? = some '|' := by
      rw [toList_text, empty]
      rfl
    rw [if_pos empty, (parse_answers d.text).nameless, head]
  · rw [if_neg empty, parse_eq_ok_iff]
    exact ⟨rfl, empty, target⟩

end Data

namespace Envelope

/-- A text without a bar and a text that begins with one are refused, as a command and as data alike; any other is read.
What is read has a target without a bar. Its verb and arguments have no tilde, and there is an argument for each tilde
behind the target, or else its payload is all that stands there. The text of what is read is the text itself. -/
theorem read_envelope_is_written (text : String) :
    Answers text (Command.parse text) ∧ Answers text (Data.parse text) ∧
    (∀ c, Command.parse text = .ok c →
      c.target ≠ "" ∧ '|' ∉ c.target.toList ∧ (∀ f ∈ c.verb :: c.args, '~' ∉ f.toList) ∧
      (∃ rest, text.toList = c.target.toList ++ '|' :: rest ∧ c.args.length = rest.count '~') ∧ c.text = text) ∧
    ∀ d, Data.parse text = .ok d →
      d.target ≠ "" ∧ '|' ∉ d.target.toList ∧ text.toList = d.target.toList ++ '|' :: d.payload.toList ∧
      d.text = text := by
  refine ⟨Command.parse_answers text, Data.parse_answers text, fun c read => ?_, fun d read => ?_⟩
  · obtain ⟨rfl, some, free, fields⟩ := Command.parse_eq_ok_iff.mp read
    refine ⟨some, free, fields, ⟨_, c.toList_text, ?_⟩, rfl⟩
    have marks := Text.length_divide fieldSeparator (Text.unite fieldSeparator (c.verb.toList, c.args.map String.toList))
    rw [Command.divide_fields fields, List.length_map] at marks
    exact marks
  · obtain ⟨rfl, some, free⟩ := Data.parse_eq_ok_iff.mp read
    exact ⟨some, free, d.toList_text, rfl⟩

/-- Empty fields, a tilde in the target, and more bars behind the first one. -/
theorem marked_envelope_is_written :
    let text := "a~b|c~~d|~"
    let c : Command := ⟨"a~b", "c", ["", "d|", ""]⟩
    let d : Data := ⟨"a~b", "c~~d|~"⟩
    (Command.parse text = .ok c ∧ c.text = text) ∧ (Data.parse text = .ok d ∧ d.text = text) ∧
      Command.parse "c~~d" = .error (.missingSeparator "c~~d") ∧ Data.parse "|c" = .error (.emptyTarget "|c") := by
  intro text c d
  have command : Command.parse text = .ok c := Command.parse_eq_ok_iff.mpr (by decide)
  have data : Data.parse text = .ok d := Data.parse_eq_ok_iff.mpr (by decide)
  obtain ⟨-, -, commands, datas⟩ := read_envelope_is_written text
  obtain ⟨unmarked, -⟩ := read_envelope_is_written "c~~d"
  obtain ⟨-, nameless, -⟩ := read_envelope_is_written "|c"
  obtain ⟨-, -, -, -, written⟩ := commands c command
  obtain ⟨-, -, -, written'⟩ := datas d data
  exact ⟨⟨command, written⟩, ⟨data, written'⟩, unmarked.missing.mpr (by decide), nameless.nameless.mpr (by decide)⟩

/-- What was written is read again just if it can be told apart: there is a target, and no part of the message contains
the mark that ends it. -/
theorem written_envelope_is_read_iff :
    (∀ (target verb : String) (args : List String),
      Command.parse (Command.text ⟨target, verb, args⟩) = .ok ⟨target, verb, args⟩ ↔
        target ≠ "" ∧ '|' ∉ target.toList ∧ '~' ∉ verb.toList ∧ ∀ a ∈ args, '~' ∉ a.toList) ∧
    ∀ target payload : String,
      Data.parse (Data.text ⟨target, payload⟩) = .ok ⟨target, payload⟩ ↔ target ≠ "" ∧ '|' ∉ target.toList := by
  constructor
  · intro target verb args
    rw [Command.parse_eq_ok_iff, List.forall_mem_cons]
    exact and_iff_right rfl
  · intro target payload
    rw [Data.parse_eq_ok_iff]
    exact and_iff_right rfl

end Envelope
end Chip8
