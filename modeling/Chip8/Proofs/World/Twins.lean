import Chip8.Bench
import Chip8.Proofs.Machine.Modes
import Chip8.Proofs.World.PowerOn

/-!
Two machines that are the same but for their mode, side by side among the same devices and the same nodes. Whatever is
done with both comes to the same results and leaves them the same, until an extension word is carried out.
-/

namespace Chip8

/-- What is noted of an extension word that is carried out in a mode. -/
def Event.Parts (mode : Bool) (e : Event) : Prop :=
  ∃ op : Opcode, op.IsExtension ∧ e = .executed (Instruction.decode op mode)

/-- Events among which no extension word is carried out. -/
def Together (mode : Bool) (events : List Event) : Prop := ∀ e ∈ events, ¬e.Parts mode

theorem together_append {mode : Bool} {events later : List Event} :
    Together mode (events ++ later) ↔ Together mode events ∧ Together mode later := List.forall_mem_append

/-- The world with its machine in another mode. -/
def World.inMode {δ : Type} (w : World δ) (mode : Bool) : World δ := { w with machine := w.machine.inMode mode }

namespace Machine
variable {m n : Machine} {instruction : Instruction} {es : List Event}

theorem Steps.executed (step : m.Steps n es) (next : m.next? = some instruction) : .executed instruction ∈ es := by
  obtain ⟨running, word, found, -⟩ := next?_eq_some_iff.mp next
  cases step with
  | idle stopped => exact absurd running stopped
  | key waiting => simp [running] at waiting
  | pastEnd _ outside => simp [found] at outside
  | carried next' =>
    cases next.symm.trans next'
    simp

theorem Breaks.executed (step : m.Breaks n es) (next : m.next? = some instruction) : .executed instruction ∈ es := by
  cases step with
  | crashed next' | failed next' =>
    cases next.symm.trans next'
    simp

end Machine

namespace World
variable {δ : Type} [Devices δ]

/-- A step notes the instruction that it carries out. -/
theorem executed_step (w : World δ) {instruction : Instruction} (next : w.machine.next? = some instruction) :
    ∃ es, (Act.step w).2.trace = es ++ w.trace ∧ .executed instruction ∈ es := by
  have passes : Act.Passes Session.Tidy w.machine [] (Act.step : Act δ Unit) (fun _ _ es => .executed instruction ∈ es)
      fun _ es => .executed instruction ∈ es :=
    (Act.step_passes (Or.inr Session.perform_tidy)).mono (fun _ _ _ step => step.executed next)
      fun _ _ step => step.executed next
  obtain ⟨new, trace, passed⟩ := passes.noted rfl
  exact ⟨new, trace, List.mem_of_mem_filter passed⟩

/-- No move switches the mode. -/
theorem mode_move (w : World δ) (mv : Move) :
    (Act.move mv w).2.machine.config.compatibility = w.machine.config.compatibility := by
  have given : w.machine.Configured w.machine.config := ⟨_, _, rfl⟩
  obtain ⟨logging, clock, config⟩ := given.turned (w.turned_move mv)
  rw [config]

end World

namespace Act
variable {δ α β : Type}

/-- Done with a machine `m` in a mode, `x` adds to what was noted and keeps the mode. If no extension word is carried
out meanwhile, `y` comes to the same in the other mode. -/
def Twin (mode other : Bool) (m : Machine) (x y : Act δ α) : Prop :=
  ∀ w : World δ, w.machine = m → ∃ es, (x w).2.trace = es ++ w.trace ∧ (x w).2.machine.config.compatibility = mode ∧
    (Together mode es → y (w.inMode other) = ((x w).1, (x w).2.inMode other))

namespace Twin
variable {mode other : Bool} {m n : Machine}

theorem pure (h : m.config.compatibility = mode) (a : α) :
    Twin mode other m (Pure.pure a : Act δ α) (Pure.pure a) := by
  rintro w rfl
  exact ⟨[], rfl, h, fun _ => rfl⟩

theorem bind {x y : Act δ α} {f g : α → Act δ β} (h : Twin mode other m x y)
    (hf : ∀ a n, n.config.compatibility = mode → Twin mode other n (f a) (g a)) :
    Twin mode other m (x >>= f) (y >>= g) := by
  intro w hm
  obtain ⟨es, trace, kept, same⟩ := h w hm
  rcases run : x w with ⟨fault | a, after⟩
  · rw [run] at trace kept same
    rw [bind_of_error run]
    exact ⟨es, trace, kept, fun together => bind_of_error (same together) g⟩
  · rw [run] at trace kept same
    obtain ⟨fs, trace', kept', same'⟩ := hf a after.machine kept after rfl
    rw [bind_of_ok run]
    refine ⟨fs ++ es, by rw [trace', trace, List.append_assoc], kept', fun together => ?_⟩
    obtain ⟨later, first⟩ := together_append.mp together
    rw [bind_of_ok (same first)]
    exact same' later

theorem machine_bind {f g : Machine → Act δ β} (h : Twin mode other m (f m) (g (m.inMode other))) :
    Twin mode other m (machine >>= f) (machine >>= g) := by
  rintro w rfl
  exact h w rfl

theorem setMachine (h : n.config.compatibility = mode) :
    Twin mode other m (setMachine n : Act δ Unit) (Act.setMachine (n.inMode other)) :=
  fun _ _ => ⟨[], rfl, h, fun _ => rfl⟩

theorem setMachine_bind {f g : Unit → Act δ β} (hf : Twin mode other n (f ()) (g ())) :
    Twin mode other m (Act.setMachine n >>= f) (Act.setMachine (n.inMode other) >>= g) :=
  fun w _ => hf { w with machine := n } rfl

theorem note (h : m.config.compatibility = mode) (e : Event) :
    Twin mode other m (note e : Act δ Unit) (Act.note e) := by
  rintro w rfl
  exact ⟨[e], rfl, h, fun _ => rfl⟩

theorem note_bind (h : m.config.compatibility = mode) {e e' : Event} (same : e' = e) {f g : Unit → Act δ β}
    (hf : ∀ n, n.config.compatibility = mode → Twin mode other n (f ()) (g ())) :
    Twin mode other m (Act.note e >>= f) (Act.note e' >>= g) := by
  subst same
  exact (note h _).bind fun _ n hn => hf n hn

/-- Two values that were come to in the same way, and what is done with them. -/
theorem noted_bind {switch : α → α} {x y : Noted α} {f g : α → Act δ β} (alike : Noted.InMode switch x y)
    (hf : Twin mode other m (f x.value) (g (switch x.value))) : Twin mode other m (noted x >>= f) (noted y >>= g) := by
  intro w hm
  obtain ⟨es, trace, kept, same⟩ := hf { w with trace := x.notes.reverse ++ w.trace } hm
  refine ⟨es ++ x.notes.reverse, by rw [List.append_assoc]; exact trace, kept, fun together => ?_⟩
  change g y.value { w.inMode other with trace := y.notes.reverse ++ w.trace } = _
  rw [alike.value, alike.notes]
  exact same (together_append.mp together).1

theorem require_bind {S : α → α → Prop} {o o' : Option α} {f g : α → Act δ β} (h : m.config.compatibility = mode)
    (alike : Option.Rel S o o') (hf : ∀ a b, o = some a → S a b → Twin mode other m (f a) (g b)) :
    Twin mode other m (require o >>= f) (require o' >>= g) := by
  rintro w rfl
  cases alike with
  | none => exact ⟨[], rfl, h, fun _ => rfl⟩
  | some alike => exact hf _ _ rfl alike w rfl

/-- Something that is there in both modes, or in none. -/
theorem require_answer (h : m.config.compatibility = mode) (o : Option α) {f g : α → Act δ β}
    (hf : ∀ a, Twin mode other m (f a) (g a)) : Twin mode other m (require o >>= f) (require o >>= g) := by
  have alike : Option.Rel Eq o o := by
    cases o with
    | none => exact .none
    | some a => exact .some rfl
  refine .require_bind h alike ?_
  rintro a _ - rfl
  exact hf a

theorem onNetwork (h : m.config.compatibility = mode) {f : Session → α × Session} (tidy : ∀ s : Session, s.Tidy (f s).2) :
    Twin mode other m (onNetwork f : Act δ α) (Act.onNetwork f) := by
  rintro w rfl
  obtain ⟨-, es, trace, -⟩ := tidy ⟨w.network, w.trace⟩
  exact ⟨es, trace, h, fun _ => rfl⟩

theorem callDevice (h : m.config.compatibility = mode) {ε : Type} (c : DeviceCall) (wrap : ε → Fault)
    (f : δ → Noted (Except ε α × δ)) : Twin mode other m (callDevice c wrap f) (Act.callDevice c wrap f) := by
  rintro w rfl
  unfold Act.callDevice World.inMode
  dsimp only
  rcases (f w.devices).value.1 with cause | a
  · exact ⟨_ :: _, rfl, h, fun _ => rfl⟩
  · exact ⟨_ :: _, rfl, h, fun _ => rfl⟩

theorem quitRequested [Devices δ] (h : m.config.compatibility = mode) :
    Twin mode other m (quitRequested : Act δ Bool) Act.quitRequested := by
  rintro w rfl
  exact ⟨[], rfl, h, fun _ => rfl⟩

theorem whenever {condition : Bool} {x y : Act δ Unit} (h : m.config.compatibility = mode)
    (hx : Twin mode other m x y) : Twin mode other m (whenever condition x) (Act.whenever condition y) := by
  cases condition with
  | true => exact hx
  | false => exact pure h ()

end Twin

/-! ### Steps -/

section
variable {mode other : Bool} {m : Machine} (h : m.config.compatibility = mode)
include h

theorem call_twin (c : Call) : Twin mode other m (call c : Act δ Unit) (call c) :=
  (Twin.onNetwork h (Session.perform_tidy c)).bind fun _ _ hn => .pure hn ()

theorem awaitKey_twin (register : Register) :
    Twin mode other m (awaitKey m register : Act δ Unit) (awaitKey (m.inMode other) register) := by
  unfold awaitKey
  rw [Machine.keys_inMode]
  rcases m.keys.first? with _ | key
  · exact .pure h ()
  · refine .setMachine_bind (.note ?_ _)
    exact h

variable [Devices δ]

theorem present_twin : Twin mode other m (present : Act δ Unit) present := .machine_bind (.callDevice h _ _ _)

theorem chooseProgram_twin (config : Config) :
    Twin mode other m (chooseProgram config : Act δ (List UInt8)) (chooseProgram config) := by
  unfold chooseProgram
  split
  · exact .pure h _
  · exact .callDevice h _ _ _
  · exact .pure h _

theorem reset_twin : Twin mode other m (reset : Act δ Unit) reset := by
  refine .machine_bind (.require_bind h (m.cleared_inMode other) ?_)
  rintro n _ cleared rfl
  have hn : n.config.compatibility = mode := by
    obtain ⟨ram, -, rfl⟩ := Option.map_eq_some_iff.mp cleared
    exact h
  refine .setMachine_bind ((chooseProgram_twin hn _).bind fun program k hk => ?_)
  refine .require_bind hk (n.load_inMode other program) fun loaded _ found alike => .noted_bind alike ?_
  have hl : loaded.value.2.config.compatibility = mode := by
    obtain ⟨ram, -, rfl⟩ := Option.map_eq_some_iff.mp found
    exact hn
  refine .setMachine_bind ((present_twin hl).bind fun _ _ _ => ?_)
  refine .setMachine_bind (.note ?_ _)
  exact hl

theorem fulfil_twin (request : Request) : Twin mode other m (fulfil request : Act δ Unit) (fulfil request) := by
  cases request with
  | none => exact .pure h ()
  | present => exact present_twin h
  | dispatch envelope => exact call_twin h _
  | reset => exact (reset_twin h).bind fun _ _ hn => call_twin hn _

theorem carryOut_twin {word : Opcode} (plain : ¬word.IsExtension) :
    Twin mode other m (carryOut word : Act δ Unit) (carryOut word) := by
  have hc : m.counted.config.compatibility = mode := h
  have dumped : Twin mode other m.counted (dumpRegisters m.counted word : Act δ Unit) (dumpRegisters m.counted word) :=
    .whenever hc (.note hc _)
  have decoded : Instruction.decode word (m.counted.inMode other).config.compatibility =
      Instruction.decode word m.counted.config.compatibility := Instruction.decode_of_not_isExtension plain _ _
  have executed : Option.Rel (Noted.InMode (·.inMode other))
      (m.counted.execute (Instruction.decode word m.counted.config.compatibility))
      ((m.counted.inMode other).execute (Instruction.decode word (m.counted.inMode other).config.compatibility)) := by
    rw [decoded]
    exact m.counted.execute_inMode other _
  refine .machine_bind (.setMachine_bind (dumped.bind fun _ n hn => ?_))
  refine .note_bind hn (congrArg Event.executed decoded) fun n hn => ?_
  refine .require_bind hn executed fun done _ found alike => .noted_bind alike ?_
  have hd : done.value.machine.config.compatibility = mode := by
    obtain ⟨logging, clock, config⟩ := (Machine.effect_of_execute found).config
    rw [config]
    exact h
  refine .setMachine_bind ((fulfil_twin hd _).bind fun _ k hk => ?_)
  refine .machine_bind (.noted_bind (k.follow_inMode other _) (.noted_bind (Machine.checkEnd_inMode _ other) ?_))
  refine .setMachine ?_
  obtain ⟨pc, status, settled⟩ := k.settled done.value.flow
  rw [settled]
  exact hk

theorem step_twin : Twin mode other m (step : Act δ Unit) step := by
  by_cases parted : ∃ op : Opcode, op.IsExtension ∧ m.next? = some (Instruction.decode op mode)
  · -- What the other machine would do there does not matter.
    rintro w rfl
    obtain ⟨op, extension, next⟩ := parted
    obtain ⟨es, trace, passed⟩ := w.executed_step next
    refine ⟨es, trace, (w.mode_move .step).trans h, fun together => ?_⟩
    exact absurd ⟨op, extension, rfl⟩ (together _ passed)
  · refine .machine_bind ?_
    rw [Machine.status_inMode]
    rcases status : m.status with _ | _ | register | reason
    · exact .pure h ()
    · have word : (m.inMode other).ram.word? (m.inMode other).pc = m.ram.word? m.pc := rfl
      dsimp only
      rw [word]
      rcases found : m.ram.word? m.pc with _ | word
      · refine .noted_bind (m.halt_inMode other _) (.setMachine ?_)
        exact h
      · refine carryOut_twin h fun extension => parted ⟨⟨word⟩, extension, ?_⟩
        rw [← h]
        exact Machine.next?_eq_some_iff.mpr ⟨status, word, found, rfl⟩
    · exact awaitKey_twin h register
    · exact .pure h ()

end

/-! ### Frames -/

section
variable {mode other : Bool} {m : Machine} (h : m.config.compatibility = mode)
include h

theorem receive_twin (text : String) : Twin mode other m (receive text : Act δ Nat) (receive text) := by
  refine .machine_bind (.noted_bind (m.receive_inMode other text) (.setMachine_bind (.pure ?_ _)))
  exact h

theorem writeAscii_twin (addr : UInt16) (text : String) :
    Twin mode other m (writeAscii addr text : Act δ Nat) (writeAscii addr text) := by
  refine .machine_bind (.noted_bind (m.writeAscii_inMode other addr text) (.setMachine_bind (.pure ?_ _)))
  exact h

theorem connectInbox_twin : Twin mode other m (connectInbox : Act δ (Except RouteError Unit)) connectInbox := by
  refine .machine_bind ((Twin.onNetwork h (Session.addInbox_tidy _)).bind fun answer n hn => ?_)
  cases answer with
  | error cause => exact .pure hn _
  | ok id =>
    refine .setMachine_bind (.pure ?_ _)
    exact h

theorem deliverMail_twin : Twin mode other m (deliverMail : Act δ Unit) deliverMail := by
  refine .machine_bind ?_
  rw [Machine.inbox_inMode]
  rcases m.inbox with _ | id
  · exact .pure h ()
  · refine (Twin.onNetwork h (Session.takeMail?_tidy id)).bind fun taken n hn => ?_
    refine .require_answer hn taken fun mail => ?_
    cases mail with
    | none => exact .pure hn ()
    | some payload =>
      refine .note_bind hn rfl fun n hn => (receive_twin hn payload).bind fun _ n hn => ?_
      refine (Twin.onNetwork hn fun _ => ⟨rfl, [], rfl, by simp⟩).bind fun left n hn => ?_
      exact .whenever hn (.note hn _)

variable [Devices δ]

theorem silence_twin : Twin mode other m (silence : Act δ Unit) silence := by
  refine .machine_bind (.whenever h ((Twin.callDevice h _ _ _).bind fun _ _ _ => .setMachine ?_))
  exact h

theorem soundTone_twin : Twin mode other m (soundTone : Act δ Unit) soundTone := by
  refine .machine_bind (.whenever h ((Twin.callDevice h _ _ _).bind fun _ _ _ => .setMachine ?_))
  exact h

theorem tickTimers_twin : Twin mode other m (tickTimers : Act δ Unit) tickTimers := by
  refine .machine_bind (.whenever h ((silence_twin h).bind fun _ n hn => .machine_bind (.setMachine_bind ?_)))
  have delayed : (Machine.config { n with dt := countDown n.dt }).compatibility = mode := hn
  refine (soundTone_twin delayed).bind fun _ k hk => .machine_bind (.setMachine ?_)
  exact hk

theorem takeSteps_twin (count : Nat) : Twin mode other m (takeSteps count : Act δ Bool) (takeSteps count) := by
  induction count generalizing m with
  | zero => exact .pure h true
  | succ count ih =>
    refine .machine_bind ((step_twin h).bind fun _ n hn => .machine_bind ?_)
    rw [Machine.status_inMode, Machine.status_inMode]
    split
    · exact .pure hn false
    · exact ih hn
    · exact ih hn
    · exact .pure hn true
    · exact .pure hn true

theorem runTick_twin : Twin mode other m (runTick : Act δ Unit) runTick := by
  refine (deliverMail_twin h).bind fun _ n hn => .machine_bind (.whenever hn ?_)
  refine (Twin.callDevice hn _ _ _).bind fun keys k hk => .machine_bind (.setMachine_bind ?_)
  refine (takeSteps_twin ?_ _).bind fun going l hl => .whenever hl (tickTimers_twin hl)
  exact hk

theorem runFrames_twin (budget ticks : Nat) :
    Twin mode other m (runFrames budget ticks : Act δ Nat) (runFrames budget ticks) := by
  induction budget generalizing m ticks with
  | zero => exact .pure h ticks
  | succ budget ih =>
    refine .machine_bind ((Twin.quitRequested h).bind fun quit n hn => ?_)
    rw [Machine.isActive_inMode]
    split
    · exact (runTick_twin hn).bind fun _ k hk => ih hk _
    · exact .pure hn ticks

theorem mainLoop_twin (budget : Option Nat) :
    Twin mode other m (mainLoop budget : Act δ Nat) (mainLoop budget) := by
  refine (runFrames_twin h _ 0).bind fun ticks n hn => ?_
  have ending : Twin mode other n (endFrames ticks : Act δ Unit) (endFrames ticks) := .machine_bind (.note hn _)
  exact ending.bind fun _ k hk => .pure hk ticks

theorem operate_twin (o : Operation) : Twin mode other m (operate o : Act δ Result) (operate o) := by
  cases o with
  | reset => exact (reset_twin h).bind fun _ _ hn => .pure hn _
  | step => exact (step_twin h).bind fun _ _ hn => .pure hn _
  | tickTimers => exact (tickTimers_twin h).bind fun _ _ hn => .pure hn _
  | runTick => exact (runTick_twin h).bind fun _ _ hn => .pure hn _
  | mainLoop budget => exact (mainLoop_twin h budget).bind fun _ _ hn => .pure hn _
  | receive text => exact (receive_twin h text).bind fun _ _ hn => .pure hn _
  | writeAscii addr text => exact (writeAscii_twin h addr text).bind fun _ _ hn => .pure hn _
  | connectInbox => exact (connectInbox_twin h).bind fun _ _ hn => .pure hn _
  | network change => exact (Twin.onNetwork h (Session.change_tidy change)).bind fun _ _ hn => .pure hn _

end

end Act

/-- The instruction that an event tells of. -/
def Event.instruction? : Event → Option Instruction
  | executed instruction => some instruction
  | _ => none

/-- The words that were carried out tell whether an extension word was among them. -/
theorem not_isExtension_of_words {mode : Bool} {es : List Event} {words : List UInt16}
    (passed : es.filterMap Event.instruction? = words.map fun word => Instruction.decode ⟨word⟩ mode)
    (plain : ∀ word ∈ words, ¬Opcode.IsExtension ⟨word⟩) {op : Opcode}
    (executed : .executed (Instruction.decode op mode) ∈ es) : ¬op.IsExtension := by
  intro extension
  have listed : Instruction.decode op mode ∈ words.map fun word => Instruction.decode ⟨word⟩ mode := by
    rw [← passed, List.mem_filterMap]
    exact ⟨_, executed, rfl⟩
  obtain ⟨word, among, same⟩ := List.mem_map.mp listed
  exact plain word among (Instruction.isExtension_of_decode extension same)

namespace World
variable {δ : Type} [Devices δ]

/-- Operations that are carried out in both modes. -/
theorem twin_after {mode : Bool} (v : World δ) (h : v.machine.config.compatibility = mode) (other : Bool)
    (operations : List Operation) :
    ∃ es, (v.after operations).trace = es ++ v.trace ∧ (v.after operations).machine.config.compatibility = mode ∧
      (Together mode es → (v.inMode other).after operations = (v.after operations).inMode other) := by
  induction operations generalizing v with
  | nil => exact ⟨[], rfl, h, fun _ => rfl⟩
  | cons o rest ih =>
    obtain ⟨es, trace, kept, same⟩ := Act.operate_twin h o v rfl
    obtain ⟨fs, trace', kept', same'⟩ := ih (Act.operate o v).2 kept
    simp only [after_cons]
    refine ⟨fs ++ es, by rw [trace', trace, List.append_assoc], kept', fun together => ?_⟩
    obtain ⟨later, first⟩ := together_append.mp together
    rw [same first]
    exact same' later

/-- Extensions are conservative. Two machines that are the same but for their mode, among the same devices and the same
nodes, are taken through the same operations. As long as no extension word is carried out, every operation has the same
result for both, and after it the machines are the same but for their mode, and so are the devices and the nodes and
all that was noted. -/
theorem extensions_are_conservative (v : World δ) (other : Bool) {operations : List Operation} {es : List Event}
    (new : (v.after operations).trace = es ++ v.trace)
    (plain : ∀ op : Opcode, .executed (Instruction.decode op v.machine.config.compatibility) ∈ es → ¬op.IsExtension) :
    ∀ before o later, operations = before ++ o :: later →
      (Act.operate o ((v.inMode other).after before)).1 = (Act.operate o (v.after before)).1 ∧
      (v.inMode other).after (before ++ [o]) = (v.after (before ++ [o])).inMode other := by
  rintro before o later rfl
  have together : Together v.machine.config.compatibility es := by
    rintro e he ⟨op, extension, rfl⟩
    exact plain op he extension
  obtain ⟨first, trace₁, kept₁, same₁⟩ := v.twin_after rfl other before
  have both : Act.Twin _ other _ (Act.operate o : Act δ Result) (Act.operate o) := Act.operate_twin kept₁ o
  obtain ⟨middle, trace₂, kept₂, same₂⟩ := both (v.after before) rfl
  obtain ⟨last, trace₃, -, -⟩ := (Act.operate o (v.after before)).2.twin_after kept₂ other later
  have whole : (v.after (before ++ o :: later)).trace = last ++ middle ++ first ++ v.trace := by
    rw [after_append, after_cons, trace₃, trace₂, trace₁, List.append_assoc, List.append_assoc]
  obtain rfl := List.append_cancel_right (whole.symm.trans new)
  obtain ⟨later, early⟩ := together_append.mp together
  have begun := same₁ early
  have done := same₂ (together_append.mp later).2
  refine ⟨by rw [begun, done], ?_⟩
  rw [after_append, after_append, begun]
  exact congrArg Prod.snd done

/-- A program that clears the screen and returns with words that look like extension words does the same in both
modes. -/
theorem overlapping_words_agree :
    let config : Config :=
      { clockMultiplier := 4, program := some [0x0e, 0xe0, 0x22, 0x06, 0x12, 0x04, 0x0e, 0xfe] }
    ∃ m, Machine.build config 0 = .ok m ∧
      let v : World Bench := ⟨m, {}, {}, []⟩
      (∀ op : Opcode, .executed (Instruction.decode op v.machine.config.compatibility) ∈
        (v.after [.reset, .runTick]).trace → ¬op.IsExtension) ∧
      (Act.operate .runTick ((v.inMode false).after [.reset])).1 = (Act.operate .runTick (v.after [.reset])).1 ∧
      (v.inMode false).after [.reset, .runTick] = (v.after [.reset, .runTick]).inMode false ∧
      (v.after [.reset, .runTick]).machine.instructions = 4 := by
  intro config
  obtain ⟨m, built, passed, count⟩ := exists_after config 0 ({} : Bench) {} [.reset, .runTick]
    (fun w => w.trace.filterMap Event.instruction? =
        [0x1204, 0x0efe, 0x2206, 0x0ee0].map (fun word => Instruction.decode ⟨word⟩ true) ∧
      w.machine.instructions = 4)
    (by decide +kernel)
  refine ⟨m, built, ?_⟩
  intro v
  have mode : v.machine.config.compatibility = true := congrArg Config.compatibility (config_of_build built)
  have plain : ∀ op : Opcode, .executed (Instruction.decode op v.machine.config.compatibility) ∈
      (v.after [.reset, .runTick]).trace → ¬op.IsExtension := by
    rw [mode]
    refine fun op => not_isExtension_of_words passed ?_
    intro word among
    simp only [List.mem_cons, List.not_mem_nil, or_false] at among
    rcases among with rfl | rfl | rfl | rfl <;> decide
  have new : (v.after [.reset, .runTick]).trace = (v.after [.reset, .runTick]).trace ++ v.trace :=
    (List.append_nil _).symm
  obtain ⟨result, same⟩ := extensions_are_conservative v false new plain [.reset] .runTick [] rfl
  exact ⟨plain, result, same, count⟩

end World
end Chip8
