import Chip8.Proofs.Machine.Asides
import Chip8.Proofs.Network.Changes
import Chip8.Proofs.World.Moves

/-!
Which devices are called, and in which order. All calls that were made so far are read off the trace.
Something that succeeds has made calls that succeeded; something that fails has made calls that succeeded
and then one that failed, and fails with the fault of that one.
-/

namespace Chip8

/-- Whether a call has to do with the tone. -/
def DeviceCall.isSound : DeviceCall → Bool
  | beep | stop => true
  | present _ | keys | load _ => false

/-- The call of a device that an event is about, and how it failed if it did. -/
@[simp] def Event.call? : Event → Option (DeviceCall × Option Fault)
  | called call failure => some (call, failure)
  | _ => none

theorem Event.call?_of_source {e : Event} (h : e.source ≠ .machine) : e.call? = none := by
  cases e with
  | called => exact absurd rfl h
  | _ => rfl

/-- Events among which no device was called. -/
def NoCalls (events : List Event) : Prop := ∀ e ∈ events, e.call? = none

section
variable {e : Event} {events later : List Event}

@[simp] theorem noCalls_nil : NoCalls [] := fun _ h => nomatch h

@[simp] theorem noCalls_cons : NoCalls (e :: events) ↔ e.call? = none ∧ NoCalls events := List.forall_mem_cons

@[simp] theorem noCalls_append : NoCalls (events ++ later) ↔ NoCalls events ∧ NoCalls later :=
  List.forall_mem_append

theorem noCalls_of_source (h : ∀ e ∈ events, e.source ≠ .machine) : NoCalls events :=
  fun e he => e.call?_of_source (h e he)

theorem noCalls_of_asides (h : Asides events) : NoCalls events := by
  intro e he
  have aside := h e he
  cases e with
  | called => cases aside
  | _ => rfl

end

/-! ### What is called on the way -/

namespace World
variable {δ : Type} {w after : World δ} {es : List Event}

/-- The calls of devices that were made so far, the first one first, and how they failed if they did. -/
def calls (w : World δ) : List (DeviceCall × Option Fault) := w.trace.reverse.filterMap Event.call?

theorem calls_of_noted (h : after.trace = es ++ w.trace) :
    after.calls = w.calls ++ es.reverse.filterMap Event.call? := by
  rw [calls, h, List.reverse_append, List.filterMap_append]
  rfl

theorem calls_of_noCalls (h : after.trace = es ++ w.trace) (silent : NoCalls es) : after.calls = w.calls := by
  have nothing : es.reverse.filterMap Event.call? = [] :=
    List.filterMap_eq_nil_iff.mpr fun e he => silent e (List.mem_reverse.mp he)
  rw [calls_of_noted h, nothing, List.append_nil]

/-- A device that is called notes no other call. -/
theorem calls_of_called {c : DeviceCall} {failure : Option Fault} (h : after.trace = .called c failure :: es ++ w.trace)
    (own : ∀ e ∈ es, e.ofDevice = true) : after.calls = w.calls ++ [(c, failure)] := by
  have silent : es.reverse.filterMap Event.call? = [] := by
    refine List.filterMap_eq_nil_iff.mpr fun e he => Event.call?_of_source fun machine => ?_
    simpa [Event.ofDevice, machine] using own e (List.mem_reverse.mp he)
  rw [calls_of_noted h, List.reverse_cons, List.filterMap_append, silent]
  rfl

end World

def succeeded (calls : List DeviceCall) : List (DeviceCall × Option Fault) := calls.map (·, none)

@[simp] theorem succeeded_append (calls later : List DeviceCall) :
    succeeded (calls ++ later) = succeeded calls ++ succeeded later := List.map_append

/-- Calls of which only the last one failed, with a fault; or a crash, for which no call is to blame. -/
def FailedBy (fault : Fault) (made : List (DeviceCall × Option Fault)) : Prop :=
  ∃ before : List DeviceCall,
    (fault = .crash ∧ made = succeeded before) ∨ ∃ c, made = succeeded before ++ [(c, some fault)]

theorem FailedBy.after {fault : Fault} {made : List (DeviceCall × Option Fault)} (h : FailedBy fault made)
    (earlier : List DeviceCall) : FailedBy fault (succeeded earlier ++ made) := by
  obtain ⟨before, ⟨crash, rfl⟩ | ⟨c, rfl⟩⟩ := h
  · exact ⟨earlier ++ before, Or.inl ⟨crash, (succeeded_append ..).symm⟩⟩
  · exact ⟨earlier ++ before, Or.inr ⟨c, by rw [succeeded_append, List.append_assoc]⟩⟩

theorem FailedBy.exists_failed {fault : Fault} {made : List (DeviceCall × Option Fault)} (h : FailedBy fault made)
    (crash : fault ≠ .crash) : ∃ c, (c, some fault) ∈ made := by
  obtain ⟨before, ⟨rfl, -⟩ | ⟨c, rfl⟩⟩ := h
  · exact absurd rfl crash
  · exact ⟨c, List.mem_append_right _ (List.mem_singleton_self _)⟩

namespace Act
variable {δ α β : Type}

/-- The calls that something makes in a world. -/
def callsOf (x : Act δ α) (w : World δ) : List (DeviceCall × Option Fault) := (x w).2.calls.drop w.calls.length

theorem callsOf_eq {x : Act δ α} {w after : World δ} {made : List (DeviceCall × Option Fault)}
    (h : (x w).2 = after) (new : after.calls = w.calls ++ made) : callsOf x w = made := by
  rw [callsOf, h, new, List.drop_left]

/-- Done with a machine `m`, something makes calls that succeed, and of its result, the machine that it
leaves and these calls `Q` holds; or it fails with the fault of the last call that it makes. -/
def Calls (m : Machine) (x : Act δ α) (Q : α → Machine → List DeviceCall → Prop) : Prop :=
  ∀ w : World δ, w.machine = m → x.Ends w
    (fun a after => ∃ made, after.calls = w.calls ++ succeeded made ∧ Q a after.machine made)
    fun fault after => ∃ made, after.calls = w.calls ++ made ∧ FailedBy fault made

namespace Calls
variable {m n : Machine} {Q Q' : α → Machine → List DeviceCall → Prop} {R : β → Machine → List DeviceCall → Prop}

theorem imp {x : Act δ α} (h : Calls m x Q) (hq : ∀ a n made, Q a n made → Q' a n made) : Calls m x Q' :=
  fun w hm => (h w hm).imp fun a _ ⟨made, new, q⟩ => ⟨made, new, hq a _ made q⟩

/-- What is called by something that is done in a world that has made no call meanwhile. -/
theorem of_noCalls {x : Act δ α} (h : ∀ w : World δ, w.machine = m →
    x.Ends w (fun a after => after.calls = w.calls ∧ Q a after.machine []) fun _ _ => False) : Calls m x Q :=
  fun w hm => (h w hm).mono (fun _ _ ⟨silent, q⟩ => ⟨[], silent.trans (List.append_nil _).symm, q⟩)
    fun _ _ => False.elim

theorem pure {a : α} (h : Q a m []) : Calls m (Pure.pure a : Act δ α) Q := by
  refine of_noCalls fun w hm => ?_
  subst hm
  exact ⟨rfl, h⟩

theorem bind {x : Act δ α} {f : α → Act δ β} (h : Calls m x Q)
    (hf : ∀ a n made, Q a n made → Calls n (f a) fun b k later => R b k (made ++ later)) :
    Calls m (x >>= f) R := by
  intro w hm
  refine ends_bind.mpr ((h w hm).imp fun a after ⟨made, new, q⟩ => ?_)
  refine (hf a after.machine made q after rfl).mono ?_ ?_
  · rintro b last ⟨later, new', r⟩
    refine ⟨made ++ later, ?_, r⟩
    rw [new', new, succeeded_append, List.append_assoc]
  · rintro fault last ⟨later, new', failed⟩
    refine ⟨succeeded made ++ later, ?_, failed.after made⟩
    rw [new', new, List.append_assoc]

theorem bind_nil {x : Act δ α} {f : α → Act δ β} {P : α → Machine → Prop}
    (h : Calls m x fun a n made => P a n ∧ made = []) (hf : ∀ a n, P a n → Calls n (f a) R) :
    Calls m (x >>= f) R := by
  refine h.bind ?_
  rintro a n _ ⟨p, rfl⟩
  exact hf a n p

theorem machine_bind {f : Machine → Act δ β} (h : Calls m (f m) R) : Calls m (machine >>= f) R := by
  rintro w rfl
  rw [ends_bind, ends_machine]
  exact h w rfl

theorem setMachine {Q : Machine → List DeviceCall → Prop} (h : Q n []) :
    Calls m (setMachine n : Act δ Unit) fun _ => Q :=
  of_noCalls fun _ _ => ⟨rfl, h⟩

theorem setMachine_bind {f : Unit → Act δ β} (h : Calls n (f ()) R) : Calls m (Act.setMachine n >>= f) R := by
  have put : Calls m (Act.setMachine n : Act δ Unit) fun _ after made => after = n ∧ made = [] :=
    setMachine ⟨rfl, rfl⟩
  refine put.bind_nil ?_
  rintro _ _ rfl
  exact h

theorem noted {x : Noted α} (asides : Asides x.notes) :
    Calls m (noted x : Act δ α) fun a after made => (a = x.value ∧ after = m) ∧ made = [] := by
  refine of_noCalls fun w hm => ?_
  have same : World.calls { w with trace := x.notes.reverse ++ w.trace } = w.calls :=
    World.calls_of_noCalls rfl fun e he => noCalls_of_asides asides e (List.mem_reverse.mp he)
  exact ⟨same, ⟨rfl, hm⟩, rfl⟩

theorem noted_bind {x : Noted α} {f : α → Act δ β} (asides : Asides x.notes) (h : Calls m (f x.value) R) :
    Calls m (Act.noted x >>= f) R := by
  refine (noted asides).bind_nil ?_
  rintro _ _ ⟨rfl, rfl⟩
  exact h

theorem note {e : Event} {Q : Machine → List DeviceCall → Prop} (silent : e.call? = none) (h : Q m []) :
    Calls m (note e : Act δ Unit) fun _ => Q := by
  refine of_noCalls fun w hm => ?_
  subst hm
  have trace : World.trace { w with trace := e :: w.trace } = [e] ++ w.trace := rfl
  have same : World.calls { w with trace := e :: w.trace } = w.calls :=
    World.calls_of_noCalls trace (by simpa using silent)
  exact ⟨same, h⟩

theorem note_bind {e : Event} {f : Unit → Act δ β} (silent : e.call? = none) (h : Calls m (f ()) R) :
    Calls m (Act.note e >>= f) R := by
  have noted : Calls m (Act.note e : Act δ Unit) fun _ after made => after = m ∧ made = [] := note silent ⟨rfl, rfl⟩
  refine noted.bind_nil ?_
  rintro _ _ rfl
  exact h

theorem require_bind {o : Option α} {f : α → Act δ β} (h : ∀ a, o = some a → Calls m (f a) R) :
    Calls m (Act.require o >>= f) R := by
  rintro w rfl
  cases o with
  | some a => exact h a rfl w rfl
  | none => exact ⟨[], (List.append_nil _).symm, [], Or.inl ⟨rfl, rfl⟩⟩

theorem onNetwork {f : Session → α × Session} (tidy : ∀ s : Session, s.Tidy (f s).2) :
    Calls m (onNetwork f : Act δ α) fun _ after made => after = m ∧ made = [] := by
  refine of_noCalls fun w hm => ?_
  obtain ⟨-, es, trace, source⟩ := tidy ⟨w.network, w.trace⟩
  have silent : NoCalls es := noCalls_of_source fun e he => by rcases source e he with h | h <;> simp [h]
  exact ⟨World.calls_of_noCalls trace silent, hm, rfl⟩

theorem callDevice {ε : Type} (c : DeviceCall) (wrap : ε → Fault) (f : δ → Noted (Except ε α × δ)) :
    Calls m (callDevice c wrap f) fun _ after made => after = m ∧ made = [c] := by
  intro w hm
  refine (ends_callDevice c wrap f w).mono ?_ ?_
  · rintro a after ⟨same, -, es, trace, own⟩
    exact ⟨[c], World.calls_of_called trace own, same.trans hm, rfl⟩
  · rintro fault after ⟨-, -, -, es, trace, own⟩
    exact ⟨_, World.calls_of_called trace own, [], Or.inr ⟨c, rfl⟩⟩

/-- Something whose calls all succeed has a result, unless it crashes. -/
theorem result {x : Act δ α} {w : World δ} (h : Calls w.machine x Q) (crash : (x w).1 ≠ .error .crash)
    (fine : ∀ c ∈ callsOf x w, c.2 = none) :
    ∃ a after made, x w = (.ok a, after) ∧ callsOf x w = succeeded made ∧ Q a after.machine made := by
  have ended := h w rfl
  unfold Ends at ended
  rcases run : x w with ⟨fault | a, after⟩
  · rw [run] at ended crash
    obtain ⟨made, new, failed⟩ := ended
    obtain ⟨c, hc⟩ := failed.exists_failed fun same => crash (congrArg Except.error same)
    have success := fine (c, some fault) (callsOf_eq (congrArg Prod.snd run) new ▸ hc)
    cases success
  · rw [run] at ended
    obtain ⟨made, new, q⟩ := ended
    exact ⟨a, after, made, rfl, callsOf_eq (congrArg Prod.snd run) new, q⟩

theorem whenever {condition : Bool} {x : Act δ Unit} {Q : Machine → List DeviceCall → Prop}
    (h : condition = true → Calls m x fun _ => Q) (skip : condition = false → Q m []) :
    Calls m (whenever condition x) fun _ => Q := by
  unfold Act.whenever
  cases condition with
  | true => exact h rfl
  | false => exact pure (skip rfl)

end Calls

/-! ### Steps -/

def Toneless (made : List DeviceCall) : Prop := ∀ c ∈ made, c.isSound = false

@[simp] theorem toneless_nil : Toneless [] := fun _ h => nomatch h

@[simp] theorem toneless_append {made later : List DeviceCall} :
    Toneless (made ++ later) ↔ Toneless made ∧ Toneless later := List.forall_mem_append

@[simp] theorem toneless_singleton {c : DeviceCall} : Toneless [c] ↔ c.isSound = false := by simp [Toneless]

theorem Calls.callDevice_toneless {ε : Type} {m : Machine} {c : DeviceCall} (other : c.isSound = false)
    (wrap : ε → Fault) (f : δ → Noted (Except ε α × δ)) : Calls m (Act.callDevice c wrap f) fun _ _ => Toneless := by
  refine (Calls.callDevice c wrap f).imp ?_
  rintro _ _ _ ⟨-, rfl⟩
  exact toneless_singleton.mpr other

theorem Calls.toneless_bind {m : Machine} {x : Act δ α} {f : α → Act δ β} (h : Calls m x fun _ _ => Toneless)
    (hf : ∀ a n, Calls n (f a) fun _ _ => Toneless) : Calls m (x >>= f) fun _ _ => Toneless :=
  h.bind fun a n _ made => (hf a n).imp fun _ _ _ later => toneless_append.mpr ⟨made, later⟩

section
variable {m : Machine}

theorem call_calls (c : Call) : Calls m (call c : Act δ Unit) fun _ _ => Toneless :=
  (Calls.onNetwork (Session.perform_tidy c)).bind_nil fun _ _ _ => .pure toneless_nil

theorem awaitKey_calls (register : Register) : Calls m (awaitKey m register : Act δ Unit) fun _ _ => Toneless := by
  unfold awaitKey
  split
  · exact .pure toneless_nil
  · exact .setMachine_bind (.note rfl toneless_nil)

variable [Devices δ]

theorem present_calls : Calls m (present : Act δ Unit) fun _ _ => Toneless :=
  .machine_bind (.callDevice_toneless rfl _ _)

theorem chooseProgram_calls (config : Config) :
    Calls m (chooseProgram config : Act δ (List UInt8)) fun _ _ => Toneless := by
  unfold chooseProgram
  split
  · exact .pure toneless_nil
  · exact .callDevice_toneless rfl _ _
  · exact .pure toneless_nil

theorem reset_calls : Calls m (reset : Act δ Unit) fun _ _ => Toneless := by
  refine .machine_bind (.require_bind fun n _ => .setMachine_bind ?_)
  refine (chooseProgram_calls _).toneless_bind fun program _ => .require_bind fun loaded found => ?_
  refine .noted_bind (Machine.asides_load found) (.setMachine_bind ?_)
  exact present_calls.toneless_bind fun _ _ => .setMachine_bind (.note rfl toneless_nil)

theorem fulfil_calls (request : Request) : Calls m (fulfil request : Act δ Unit) fun _ _ => Toneless := by
  cases request with
  | none => exact .pure toneless_nil
  | present => exact present_calls
  | dispatch envelope => exact call_calls _
  | reset => exact reset_calls.toneless_bind fun _ _ => call_calls _

theorem carryOut_calls (word : Opcode) : Calls m (carryOut word : Act δ Unit) fun _ _ => Toneless := by
  refine .machine_bind (.setMachine_bind ?_)
  have dumped : ∀ n : Machine, Calls n (dumpRegisters n word : Act δ Unit) fun _ _ => Toneless :=
    fun n => .whenever (fun _ => .note rfl toneless_nil) fun _ => toneless_nil
  refine (dumped _).toneless_bind fun _ _ => .note_bind rfl (.require_bind fun done executed => ?_)
  refine .noted_bind (Machine.asides_execute executed) (.setMachine_bind ?_)
  refine (fulfil_calls _).toneless_bind fun _ n => .machine_bind ?_
  exact .noted_bind (Machine.asides_follow _) (.noted_bind Machine.asides_checkEnd (.setMachine toneless_nil))

/-- A step leaves the tone to the timers. -/
theorem step_calls : Calls m (step : Act δ Unit) fun _ _ => Toneless := by
  refine .machine_bind ?_
  split
  · exact .pure toneless_nil
  · exact .pure toneless_nil
  · exact awaitKey_calls _
  · split
    · exact carryOut_calls _
    · exact .noted_bind (Machine.asides_halt _) (.setMachine toneless_nil)

theorem takeSteps_calls (count : Nat) : Calls m (takeSteps count : Act δ Bool) fun _ _ => Toneless := by
  induction count generalizing m with
  | zero => exact .pure toneless_nil
  | succ count ih =>
    refine .machine_bind (step_calls.toneless_bind fun _ n => .machine_bind ?_)
    split
    · exact .pure toneless_nil
    · exact ih
    · exact ih
    · exact .pure toneless_nil
    · exact .pure toneless_nil

end

/-! ### Frames -/

section
variable {m : Machine}

theorem receive_calls (text : String) : Calls m (receive text : Act δ Nat) fun _ _ => Toneless :=
  .machine_bind (.noted_bind (Machine.asides_receive text) (.setMachine_bind (.pure toneless_nil)))

theorem deliverMail_calls : Calls m (deliverMail : Act δ Unit) fun _ _ => Toneless := by
  refine .machine_bind ?_
  split
  · exact .pure toneless_nil
  · next id _ =>
    refine (Calls.onNetwork (Session.takeMail?_tidy id)).bind_nil fun _ _ _ => .require_bind fun taken _ => ?_
    cases taken with
    | none => exact .pure toneless_nil
    | some payload =>
      refine .note_bind rfl ((receive_calls payload).toneless_bind fun _ _ => ?_)
      refine (Calls.onNetwork fun _ => ⟨rfl, [], rfl, by simp⟩).bind_nil fun left _ _ => ?_
      exact .whenever (fun _ => .note rfl toneless_nil) fun _ => toneless_nil

variable [Devices δ]

theorem pollKeys_calls : Calls m (pollKeys : Act δ Unit) fun _ _ => Toneless := by
  have read : Calls m (readKeys : Act δ Keys) fun _ _ => Toneless := .callDevice_toneless rfl _ _
  exact read.toneless_bind fun keys _ => .machine_bind (.setMachine toneless_nil)

end
end Act
end Chip8
