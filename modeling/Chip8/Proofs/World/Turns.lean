import Chip8.Proofs.Machine.Effect
import Chip8.Proofs.World.Landmarks
import Chip8.Proofs.World.Timers

/-!
What a move makes of the machine, whatever the devices and the nodes do and whatever is passed on the way.
What it can leave is said by an inductive predicate; an invariant of the machine then needs one case for each
constructor.
-/

namespace Chip8

namespace Machine

/-- What starting over leaves: the machine runs, or a device has failed on the way and it is off. -/
inductive Restarted (m : Machine) : Machine → Prop
  /-- The font does not fit into memory. -/
  | crashed : m.cleared? = none → Restarted m m
  | cleared {n} : m.cleared? = some n → Restarted m n
  | loaded {n program loaded} : m.cleared? = some n → n.load? program = some loaded →
      Restarted m loaded.value.2
  | running {n program loaded} : m.cleared? = some n → n.load? program = some loaded →
      Restarted m { loaded.value.2 with status := .running }

/-- Starting over clears all but the settings, the tone, the random numbers and the inbox. -/
theorem Restarted.eq_or {m n : Machine} (again : Restarted m n) :
    n = m ∨ ∃ ram status, n = { m with
      ram
      screen := .blank
      v := Vector.replicate _ 0
      i := 0
      pc := m.config.bootAddress
      dt := 0
      st := 0
      sp := 0
      stack := Vector.replicate _ 0
      keys := .none
      status
      instructions := 0 } := by
  cases again with
  | crashed _ => exact Or.inl rfl
  | cleared hn =>
    obtain ⟨ram, -, rfl⟩ := Option.map_eq_some_iff.mp hn
    exact Or.inr ⟨_, _, rfl⟩
  | loaded hn hl =>
    obtain ⟨ram, -, rfl⟩ := Option.map_eq_some_iff.mp hn
    obtain ⟨memory, -, rfl⟩ := Option.map_eq_some_iff.mp hl
    exact Or.inr ⟨_, _, rfl⟩
  | running hn hl =>
    obtain ⟨ram, -, rfl⟩ := Option.map_eq_some_iff.mp hn
    obtain ⟨memory, -, rfl⟩ := Option.map_eq_some_iff.mp hl
    exact Or.inr ⟨_, _, rfl⟩

theorem Restarts.restarted {m n : Machine} {es : List Event} (h : m.Restarts n es) : m.Restarted n := by
  cases h with
  | crashed nothing => exact .crashed nothing
  | unloaded cleared => exact .cleared cleared
  | unshown cleared _ found => exact .loaded cleared found
  | running cleared _ found => exact .running cleared found

/-- What is left when the wish of an instruction is done with. -/
inductive Fulfilled (done : Executed) : Machine → Prop
  | kept : done.request ≠ .reset → Fulfilled done done.machine
  | restarted {n} : done.request = .reset → Restarted done.machine n → Fulfilled done n

theorem Fulfils.fulfilled {done : Executed} {n : Machine} {es : List Event} (h : Fulfils done n es) :
    Fulfilled done n := by
  cases h with
  | kept _ other => exact .kept other
  | shown _ wish => exact .kept (by simp [wish])
  | restarted wish again => exact .restarted wish again.restarted

/-- What a step leaves. -/
inductive Stepped (m : Machine) : Machine → Prop
  | idle : m.status ≠ .running → Stepped m m
  | key {register key} : m.status = .waiting register → m.keys.first? = some key →
      Stepped m { m.setRegister register (UInt8.ofNat key.val) with status := .running }
  | pastEnd : m.status = .running → m.ram.word? m.pc = none → Stepped m (m.halt (.outOfBounds m.pc)).value
  | carried {instruction done n} : m.next? = some instruction →
      m.counted.execute instruction = some done → Fulfilled done.value n →
      Stepped m (n.follow done.value.flow).value.checkEnd.value

/-- What a step leaves that fails. -/
inductive Broken (m : Machine) : Machine → Prop
  | crashed {instruction} : m.next? = some instruction → m.counted.execute instruction = none →
      Broken m m.counted
  | failed {instruction done n} : m.next? = some instruction →
      m.counted.execute instruction = some done →
      done.value.request = .present ∨ done.value.request = .reset → Fulfilled done.value n → Broken m n

theorem Steps.stepped {m n : Machine} {es : List Event} (h : m.Steps n es) : m.Stepped n := by
  cases h with
  | idle stopped => exact .idle stopped
  | key waiting down => exact .key waiting down
  | pastEnd running outside => exact .pastEnd running outside
  | carried next executed fulfilled => exact .carried next executed fulfilled.fulfilled

theorem Breaks.broken {m n : Machine} {es : List Event} (h : m.Breaks n es) : m.Broken n := by
  cases h with
  | crashed next executed => exact .crashed next executed
  | failed next executed wish fulfilled => exact .failed next executed wish fulfilled.fulfilled

/-- A step of a machine that comes to an instruction carries it out. -/
theorem Stepped.of_next {m n : Machine} {instruction : Instruction} (step : m.Stepped n)
    (next : m.next? = some instruction) :
    ∃ done k, m.counted.execute instruction = some done ∧ Fulfilled done.value k ∧
      n = (k.follow done.value.flow).value.checkEnd.value := by
  obtain ⟨running, word, found, -⟩ := next?_eq_some_iff.mp next
  cases step with
  | idle stopped => exact absurd running stopped
  | key waiting => simp [running] at waiting
  | pastEnd _ outside => simp [found] at outside
  | carried next' executed fulfilled =>
    obtain rfl := Option.some.inj (next.symm.trans next')
    exact ⟨_, _, executed, fulfilled, rfl⟩

theorem Broken.of_next {m n : Machine} {instruction : Instruction} {done : Noted Executed} (step : m.Broken n)
    (next : m.next? = some instruction) (executed : m.counted.execute instruction = some done) :
    Fulfilled done.value n := by
  cases step with
  | crashed next' crashed =>
    obtain rfl := Option.some.inj (next.symm.trans next')
    simp [executed] at crashed
  | failed next' executed' _ fulfilled =>
    obtain rfl := Option.some.inj (next.symm.trans next')
    obtain rfl := Option.some.inj (executed.symm.trans executed')
    exact fulfilled

/-- What a move leaves, whether it fails or not. -/
inductive Turned (m : Machine) : Machine → Prop
  | same : Turned m m
  | restarted {n} : Restarted m n → Turned m n
  | stepped {n} : Stepped m n → Turned m n
  | broken {n} : Broken m n → Turned m n
  | ticked (dt st : UInt8) (toneOn : Bool) : Turned m { m with dt, st, toneOn }
  | received (text : String) : Turned m (m.receive text).value.2
  | written (addr : UInt16) (text : String) : Turned m (m.writeAscii addr text).value.2
  | connected (id : NodeId) : Turned m { m with inbox := some id }
  | polled (keys : Keys) : Turned m { m with keys }

/-- However the timers tick, they set themselves and the tone. -/
theorem Ticks.turned {m n : Machine} {answer : Except Fault Unit} {made : List (DeviceCall × Option Fault)}
    (h : m.Ticks answer n made) : m.Turned n := by
  cases h with
  | counted => exact .ticked _ _ _
  | unstopped => exact .same
  | unstarted => exact .ticked _ _ _

end Machine

namespace Act
variable {δ α β : Type}

/-- Done with a machine `m`, something leaves a result and a machine of which `Q` holds, or fails and
leaves a machine of which `E` holds. -/
def Leaves (m : Machine) (x : Act δ α) (Q : α → Machine → Prop) (E : Machine → Prop) : Prop :=
  ∀ w : World δ, w.machine = m → x.Ends w (fun a after => Q a after.machine) fun _ after => E after.machine

namespace Leaves
variable {m n : Machine} {Q Q' : α → Machine → Prop} {R : β → Machine → Prop} {E E' : Machine → Prop}

theorem mono {x : Act δ α} (h : Leaves m x Q E) (hq : ∀ a n, Q a n → Q' a n) (he : ∀ n, E n → E' n) :
    Leaves m x Q' E' :=
  fun w hm => (h w hm).mono (fun a after => hq a after.machine) fun _ after => he after.machine

theorem imp {x : Act δ α} (h : Leaves m x Q E) (hq : ∀ a n, Q a n → Q' a n) : Leaves m x Q' E :=
  h.mono hq fun _ => id

theorem pure {a : α} (h : Q a m) : Leaves m (Pure.pure a : Act δ α) Q E := by
  rintro w rfl
  exact h

theorem bind {x : Act δ α} {f : α → Act δ β} (h : Leaves m x Q E) (hf : ∀ a n, Q a n → Leaves n (f a) R E) :
    Leaves m (x >>= f) R E :=
  fun w hm => (h w hm).bind fun a after q => hf a after.machine q after rfl

theorem machine_bind {f : Machine → Act δ β} (h : Leaves m (f m) R E) : Leaves m (machine >>= f) R E := by
  rintro w rfl
  rw [ends_bind, ends_machine]
  exact h w rfl

theorem setMachine {Q : Machine → Prop} (h : Q n) : Leaves m (setMachine n : Act δ Unit) (fun _ => Q) E :=
  fun _ _ => h

/-- A machine that is put in place of the other, and what is done with it then. -/
theorem setMachine_bind {f : Unit → Act δ β} (h : Leaves n (f ()) R E) :
    Leaves m (Act.setMachine n >>= f) R E := by
  intro w _
  rw [ends_bind, ends_setMachine]
  exact h _ rfl

theorem note {e : Event} {Q : Machine → Prop} (h : Q m) : Leaves m (note e : Act δ Unit) (fun _ => Q) E := by
  rintro w rfl
  exact h

theorem noted_bind {x : Noted α} {f : α → Act δ β} (h : Leaves m (f x.value) R E) :
    Leaves m (Act.noted x >>= f) R E := by
  rintro w rfl
  rw [ends_bind, ends_noted]
  exact h _ rfl

theorem onNetwork (f : Session → α × Session) :
    Leaves m (onNetwork f : Act δ α) (fun _ after => after = m) E := fun _ hm => hm

theorem callDevice {ε : Type} (c : DeviceCall) (wrap : ε → Fault) (f : δ → Noted (Except ε α × δ)) (h : E m) :
    Leaves m (callDevice c wrap f) (fun _ after => after = m) E := by
  rintro w rfl
  refine (ends_callDevice c wrap f w).mono ?_ ?_
  · rintro a after ⟨same, -⟩
    exact same
  · rintro fault after ⟨-, same, -⟩
    rw [same]
    exact h

theorem whenever {condition : Bool} {x : Act δ Unit} {Q : Machine → Prop}
    (h : condition = true → Leaves m x (fun _ n => Q n) E) (skip : condition = false → Q m) :
    Leaves m (whenever condition x) (fun _ n => Q n) E := by
  unfold Act.whenever
  cases condition with
  | true => exact h rfl
  | false => exact pure (skip rfl)

end Leaves

/-- What is passed on the way is forgotten. -/
theorem Passes.leaves {m : Machine} {x : Act δ α} {Q : α → Machine → List Event → Prop}
    {E : Machine → List Event → Prop} (h : Passes (fun _ _ => True) m [] x Q E) :
    Leaves m x (fun a n => ∃ es, Q a n es) fun n => ∃ es, E n es := by
  intro w hm
  refine (h w hm).mono ?_ ?_
  · intro a after passed
    obtain ⟨_, -, q⟩ := passed
    exact ⟨_, q⟩
  · intro fault after passed
    obtain ⟨_, -, e⟩ := passed
    exact ⟨_, e⟩

/-! ### Steps -/

section
variable {m : Machine} [Devices δ]

theorem reset_leaves : Leaves m (reset : Act δ Unit) (fun _ n => m.Restarted n) m.Restarted :=
  reset_passes.leaves.mono (fun _ _ ⟨_, again⟩ => again.restarted) fun _ ⟨_, again⟩ => again.restarted

theorem step_leaves : Leaves m (step : Act δ Unit) (fun _ n => m.Stepped n) m.Broken :=
  (step_passes (Or.inr fun _ _ => trivial)).leaves.mono (fun _ _ ⟨_, steps⟩ => steps.stepped) fun _ ⟨_, breaks⟩ => breaks.broken

/-- The end of a step, after the instruction and what it wanted. -/
def settle (flow : Flow) : Act δ Unit := do
  let m ← noted ((← machine).follow flow)
  setMachine (← noted m.checkEnd)

omit [Devices δ] in
theorem call_apply (c : Call) (w : World δ) :
    call c w = (.ok (), { w with
      network := (w.session.perform c).2.network
      trace := (w.session.perform c).2.trace }) := rfl

omit [Devices δ] in
theorem settle_notes (flow : Flow) (w : World δ) :
    ∃ notes, settle flow w =
      (.ok (), { w with machine := (w.machine.follow flow).value.checkEnd.value, trace := notes ++ w.trace }) ∧
      ∀ e ∈ notes, e.source ≠ .network := by
  refine ⟨(w.machine.follow flow).value.checkEnd.notes.reverse ++ (w.machine.follow flow).notes.reverse, ?_, ?_⟩
  · rw [List.append_assoc]
    rfl
  · intro e he
    rcases List.mem_append.mp he with ended | followed
    · exact Event.source_of_isAside (Machine.asides_checkEnd e (List.mem_reverse.mp ended))
    · exact Event.source_of_isAside (Machine.asides_follow flow e (List.mem_reverse.mp followed))

omit [Devices δ] in
theorem dumpRegisters_notes (m : Machine) (word : Opcode) (w : World δ) :
    ∃ notes, dumpRegisters m word w = (.ok (), { w with trace := notes ++ w.trace }) ∧
      ∀ e ∈ notes, e.source ≠ .network := by
  unfold dumpRegisters whenever
  rcases m.config.logging with _ | _
  · exact ⟨[], rfl, by simp⟩
  · exact ⟨[_], rfl, by simp [Event.source]⟩

/-- A step that carries out an instruction, from the moment at which the machine has done its part. The network has
noted nothing by then. -/
theorem step_of_execute {w : World δ} {instruction : Instruction} {done : Noted Executed}
    (next : w.machine.next? = some instruction) (executed : w.machine.counted.execute instruction = some done) :
    ∃ notes, step w =
      (fulfil done.value.request >>= fun _ => settle done.value.flow)
        { w with machine := done.value.machine, trace := notes ++ w.trace } ∧
      ∀ e ∈ notes, e.source ≠ .network := by
  obtain ⟨running, word, found, decoded⟩ := Machine.next?_eq_some_iff.mp next
  obtain ⟨dump, dumped, foreign⟩ := dumpRegisters_notes w.machine.counted ⟨word⟩ { w with machine := w.machine.counted }
  have carried : step w = carryOut ⟨word⟩ w := by
    unfold step
    rw [bind_apply]
    simp only [machine, running, found]
  have begun : carryOut ⟨word⟩ w = (do
      dumpRegisters w.machine.counted ⟨word⟩
      note (.executed instruction)
      let done ← noted (← require (some done))
      setMachine done.machine
      fulfil done.request
      settle done.flow) { w with machine := w.machine.counted } := by
    rw [← executed, ← decoded]
    rfl
  refine ⟨done.notes.reverse ++ .executed instruction :: dump, ?_, fun e he => ?_⟩
  · rw [carried, begun, bind_of_ok dumped, List.append_assoc]
    rfl
  · rcases List.mem_append.mp he with own | before
    · exact Event.source_of_isAside (Machine.asides_execute executed e (List.mem_reverse.mp own))
    · rcases List.mem_cons.mp before with rfl | dumped
      · simp [Event.source]
      · exact foreign e dumped

/-- An instruction that asks for nothing outside the machine is carried out, whatever the devices do. -/
theorem step_of_next {w : World δ} {instruction : Instruction} {done : Noted Executed}
    (next : w.machine.next? = some instruction) (executed : w.machine.counted.execute instruction = some done)
    (wish : done.value.request = .none) :
    ∃ after, step w = (.ok (), after) ∧
      after.machine = (done.value.machine.follow done.value.flow).value.checkEnd.value := by
  obtain ⟨notes, stepped, -⟩ := step_of_execute next executed
  rw [wish] at stepped
  exact ⟨_, stepped, rfl⟩

/-- Only where the program goes on, and whether it does, is settled after such an instruction. -/
theorem step_settles {w : World δ} {instruction : Instruction} {done : Noted Executed}
    (next : w.machine.next? = some instruction) (executed : w.machine.counted.execute instruction = some done)
    (wish : done.value.request = .none) :
    ∃ after pc status, step w = (.ok (), after) ∧ after.machine = { done.value.machine with pc, status } := by
  obtain ⟨after, run, left⟩ := step_of_next next executed wish
  obtain ⟨pc, status, settled⟩ := done.value.machine.settled done.value.flow
  exact ⟨after, pc, status, run, left.trans settled⟩

end

/-! ### Frames -/

section
variable {m : Machine} {E : Machine → Prop}

theorem receive_leaves (text : String) :
    Leaves m (receive text : Act δ Nat) (fun _ n => n = (m.receive text).value.2) E :=
  .machine_bind (.noted_bind (.setMachine_bind (.pure rfl)))

theorem writeAscii_leaves (addr : UInt16) (text : String) :
    Leaves m (writeAscii addr text : Act δ Nat) (fun _ n => n = (m.writeAscii addr text).value.2) E :=
  .machine_bind (.noted_bind (.setMachine_bind (.pure rfl)))

theorem connectInbox_leaves :
    Leaves m (connectInbox : Act δ (Except RouteError Unit)) (fun _ n => m.Turned n) E := by
  rintro w rfl
  have connects := w.connects_connectInbox
  unfold Ends
  generalize connectInbox w = ended at connects ⊢
  obtain ⟨result, after⟩ := ended
  cases connects with
  | connected => exact .connected _
  | refused => exact .same

theorem deliverMail_leaves (h : E m) :
    Leaves m (deliverMail : Act δ Unit) (fun _ n => n = m ∨ ∃ text, n = (m.receive text).value.2) E := by
  rintro w rfl
  have delivers := w.delivers_deliverMail
  unfold Ends
  generalize deliverMail w = ended at delivers ⊢
  obtain ⟨result, after⟩ := ended
  cases delivers with
  | nothing => exact Or.inl rfl
  | busy => exact h
  | taken => exact Or.inr ⟨_, rfl⟩

variable [Devices δ]

theorem pollKeys_leaves (h : E m) :
    Leaves m (pollKeys : Act δ Unit) (fun _ n => ∃ keys, n = { m with keys }) E := by
  refine Leaves.bind (.callDevice _ _ _ h) ?_
  rintro keys _ rfl
  exact .machine_bind (.setMachine ⟨keys, rfl⟩)

theorem tickTimers_leaves : Leaves m (tickTimers : Act δ Unit) (fun _ n => m.Turned n) m.Turned := by
  rintro w rfl
  cases active : w.machine.isActive with
  | false => exact ends_of_eq (tickTimers_of_inactive active) .same
  | true =>
    refine (tickTimers_ends active).mono ?_ ?_
    · rintro _ after ⟨made, -, ticks⟩
      exact ticks.turned
    · rintro fault after ⟨made, -, ticks⟩
      exact ticks.turned

/-! ### Moves -/

theorem move_leaves (mv : Move) : Leaves m (move mv : Act δ Unit) (fun _ n => m.Turned n) m.Turned := by
  cases mv with
  | reset => exact reset_leaves.mono (fun _ _ => .restarted) fun _ => .restarted
  | step => exact step_leaves.mono (fun _ _ => .stepped) fun _ => .broken
  | tickTimers => exact tickTimers_leaves
  | receive text =>
    refine (receive_leaves text).bind ?_
    rintro _ _ rfl
    exact .pure (.received text)
  | writeAscii addr text =>
    refine (writeAscii_leaves addr text).bind ?_
    rintro _ _ rfl
    exact .pure (.written addr text)
  | connectInbox => exact connectInbox_leaves.bind fun _ _ turned => .pure turned
  | deliverMail =>
    refine (deliverMail_leaves .same).imp ?_
    rintro _ _ (rfl | ⟨text, rfl⟩)
    · exact .same
    · exact .received text
  | pollKeys =>
    refine (pollKeys_leaves .same).imp ?_
    rintro _ _ ⟨keys, rfl⟩
    exact .polled keys
  | endFrames ticks => exact .machine_bind (.note .same)
  | network change =>
    refine (Leaves.onNetwork _).bind ?_
    rintro _ _ rfl
    exact .pure .same

end

end Act

namespace World
variable {δ : Type} [Devices δ]

theorem turned_move (w : World δ) (mv : Move) : w.machine.Turned (Act.move mv w).2.machine :=
  Act.Ends.answer (P := fun _ after => w.machine.Turned after.machine) (Act.move_leaves mv w rfl)

/-- What every move keeps of the machine holds wherever moves lead. -/
theorem Reaches.keeps {P : Machine → Prop} {w after : World δ} (h : w.Reaches after)
    (turns : ∀ m n, Machine.Turned m n → P m → P n) (begun : P w.machine) : P after.machine := by
  obtain ⟨moves, rfl⟩ := h
  induction moves generalizing w with
  | nil => exact begun
  | cons mv rest ih =>
    rw [through_cons]
    exact ih (turns _ _ (w.turned_move mv) begun)

end World
end Chip8
