import Chip8.Proofs.World.DeviceCalls

/-!
Whatever is done with a machine is put together from single steps: a look at the machine, a new machine, a note, a use
of the network, the call of a device. Each function is taken apart once. What all single steps have, and what two things
have that are done one after the other if each of them has it, all functions have.
-/

namespace Chip8

/-- What the network is used for. -/
inductive Session.Use : {α : Type} → (Session → α × Session) → Prop
  | perform (c : Call) : Use (·.perform c)
  | addInbox (name : String) : Use (·.addInbox name)
  | takeMail? (id : NodeId) : Use (·.takeMail? id)
  | mailCount (id : NodeId) : Use fun s => (s.network.mailCount id, s)
  | change (c : Change) : Use (·.change c)

theorem Session.Use.tidy {α : Type} {f : Session → α × Session} (use : Use f) (s : Session) : s.Tidy (f s).2 := by
  cases use with
  | perform c => exact perform_tidy c s
  | addInbox name => exact addInbox_tidy name s
  | takeMail? id => exact takeMail?_tidy id s
  | mailCount id => exact ⟨rfl, [], rfl, by simp⟩
  | change c => exact change_tidy c s

/-- How the devices are called, and which faults their failures are. -/
inductive DeviceCall.Made {δ : Type} [Devices δ] :
    {α ε : Type} → DeviceCall → (ε → Fault) → (δ → Noted (Except ε α × δ)) → Prop
  | present (screen : Screen) : Made (.present screen) .io (Devices.present screen)
  | keys : Made .keys .io Devices.keys
  | beep : Made .beep .sound Devices.beep
  | stop : Made .stop .sound Devices.stop
  | load (path : String) : Made (.load path) .io (Devices.load path)

namespace Act
variable {δ : Type} [Devices δ]

/-- Put together from single steps, of which only the calls of devices are noted as such. -/
inductive Composed : {α : Type} → Act δ α → Prop
  | pure {α : Type} (a : α) : Composed (Pure.pure a : Act δ α)
  | bind {α β : Type} {x : Act δ α} {f : α → Act δ β} : Composed x → (∀ a, Composed (f a)) → Composed (x >>= f)
  | require_bind {α β : Type} {o : Option α} {f : α → Act δ β} : (∀ a, o = some a → Composed (f a)) →
      Composed (Act.require o >>= f)
  | machine : Composed Act.machine
  | setMachine (m : Machine) : Composed (Act.setMachine m)
  | note {e : Event} (silent : e.call? = none) : Composed (Act.note e)
  | noted {α : Type} {x : Noted α} (silent : NoCalls x.notes) : Composed (Act.noted x)
  | onNetwork {α : Type} {f : Session → α × Session} (use : Session.Use f) : Composed (Act.onNetwork f)
  | quitRequested : Composed Act.quitRequested
  | callDevice {α ε : Type} {c : DeviceCall} {wrap : ε → Fault} {f : δ → Noted (Except ε α × δ)} (made : c.Made wrap f) :
      Composed (Act.callDevice c wrap f)

theorem Composed.whenever {condition : Bool} {x : Act δ Unit} (h : Composed x) : Composed (whenever condition x) := by
  cases condition with
  | true => exact h
  | false => exact .pure ()

theorem call_composed (c : Call) : Composed (call c : Act δ Unit) :=
  .bind (.onNetwork (.perform c)) fun _ => .pure ()

theorem awaitKey_composed (m : Machine) (register : Register) : Composed (awaitKey m register : Act δ Unit) := by
  unfold awaitKey
  split
  · exact .pure ()
  · exact .bind (.setMachine _) fun _ => .note rfl

theorem present_composed : Composed (present : Act δ Unit) := .bind .machine fun _ => .callDevice (.present _)

theorem chooseProgram_composed (config : Config) : Composed (chooseProgram config : Act δ (List UInt8)) := by
  unfold chooseProgram
  split
  · exact .pure _
  · exact .callDevice (.load _)
  · exact .pure _

theorem reset_composed : Composed (reset : Act δ Unit) := by
  refine .bind .machine fun m => .require_bind fun n _ => .bind (.setMachine n) fun _ => ?_
  refine .bind (chooseProgram_composed _) fun program => .require_bind fun loaded found => ?_
  refine .bind (.noted (noCalls_of_asides (Machine.asides_load found))) fun ⟨count, k⟩ => ?_
  refine .bind (.setMachine k) fun _ => .bind present_composed fun _ => ?_
  exact .bind (.setMachine _) fun _ => .note rfl

theorem fulfil_composed (request : Request) : Composed (fulfil request : Act δ Unit) := by
  cases request with
  | none => exact .pure ()
  | present => exact present_composed
  | dispatch envelope => exact call_composed _
  | reset => exact .bind reset_composed fun _ => call_composed _

theorem carryOut_composed (word : Opcode) : Composed (carryOut word : Act δ Unit) := by
  refine .bind .machine fun m => .bind (.setMachine _) fun _ => .bind (.whenever (.note rfl)) fun _ => ?_
  refine .bind (.note rfl) fun _ => .require_bind fun done executed => ?_
  refine .bind (.noted (noCalls_of_asides (Machine.asides_execute executed))) fun done => ?_
  refine .bind (.setMachine _) fun _ => .bind (fulfil_composed _) fun _ => .bind .machine fun n => ?_
  refine .bind (.noted (noCalls_of_asides (Machine.asides_follow _))) fun k => ?_
  exact .bind (.noted (noCalls_of_asides Machine.asides_checkEnd)) fun _ => .setMachine _

theorem step_composed : Composed (step : Act δ Unit) := by
  refine .bind .machine fun m => ?_
  split
  · exact .pure ()
  · exact .pure ()
  · exact awaitKey_composed m _
  · split
    · exact carryOut_composed _
    · exact .bind (.noted (noCalls_of_asides (Machine.asides_halt _))) fun _ => .setMachine _

theorem receive_composed (text : String) : Composed (receive text : Act δ Nat) :=
  .bind .machine fun _ => .bind (.noted (noCalls_of_asides (Machine.asides_receive text))) fun _ =>
    .bind (.setMachine _) fun _ => .pure _

theorem writeAscii_composed (addr : UInt16) (text : String) : Composed (writeAscii addr text : Act δ Nat) :=
  .bind .machine fun _ => .bind (.noted (noCalls_of_asides (Machine.asides_writeAscii addr text))) fun _ =>
    .bind (.setMachine _) fun _ => .pure _

theorem connectInbox_composed : Composed (connectInbox : Act δ (Except RouteError Unit)) := by
  refine .bind .machine fun m => .bind (.onNetwork (.addInbox _)) fun answer => ?_
  cases answer with
  | error cause => exact .pure _
  | ok id => exact .bind (.setMachine _) fun _ => .pure _

theorem deliverMail_composed : Composed (deliverMail : Act δ Unit) := by
  refine .bind .machine fun m => ?_
  split
  · exact .pure ()
  · next id _ =>
    refine .bind (.onNetwork (.takeMail? id)) fun taken => .require_bind fun mail _ => ?_
    cases mail with
    | none => exact .pure ()
    | some payload =>
      refine .bind (.note rfl) fun _ => .bind (receive_composed payload) fun _ => ?_
      exact .bind (.onNetwork (.mailCount id)) fun _ => .whenever (.note rfl)

theorem silence_composed : Composed (silence : Act δ Unit) :=
  .bind .machine fun _ => .whenever (.bind (.callDevice .stop) fun _ => .setMachine _)

theorem soundTone_composed : Composed (soundTone : Act δ Unit) :=
  .bind .machine fun _ => .whenever (.bind (.callDevice .beep) fun _ => .setMachine _)

theorem tickTimers_composed : Composed (tickTimers : Act δ Unit) := by
  refine .bind .machine fun _ => .whenever (.bind silence_composed fun _ => ?_)
  refine .bind .machine fun m => .bind (.setMachine _) fun _ => .bind soundTone_composed fun _ => ?_
  exact .bind .machine fun _ => .setMachine _

theorem takeSteps_composed (count : Nat) : Composed (takeSteps count : Act δ Bool) := by
  induction count with
  | zero => exact .pure true
  | succ count ih =>
    refine .bind .machine fun m => .bind step_composed fun _ => .bind .machine fun n => ?_
    split
    · exact .pure false
    · exact ih
    · exact ih
    · exact .pure true
    · exact .pure true

theorem runTick_composed : Composed (runTick : Act δ Unit) := by
  refine .bind deliverMail_composed fun _ => .bind .machine fun _ => .whenever ?_
  refine .bind (.callDevice .keys) fun keys => .bind .machine fun m => .bind (.setMachine _) fun _ => ?_
  exact .bind (takeSteps_composed _) fun _ => .whenever tickTimers_composed

theorem runFrames_composed (budget ticks : Nat) : Composed (runFrames budget ticks : Act δ Nat) := by
  induction budget generalizing ticks with
  | zero => exact .pure ticks
  | succ budget ih =>
    refine .bind .machine fun m => .bind .quitRequested fun quit => ?_
    split
    · exact .bind runTick_composed fun _ => ih _
    · exact .pure ticks

theorem mainLoop_composed (budget : Option Nat) : Composed (mainLoop budget : Act δ Nat) := by
  have ending : ∀ ticks, Composed (endFrames ticks : Act δ Unit) := fun ticks => .bind .machine fun _ => .note rfl
  exact .bind (runFrames_composed _ 0) fun ticks => .bind (ending ticks) fun _ => .pure ticks

theorem operate_composed (o : Operation) : Composed (operate o : Act δ Result) := by
  cases o with
  | reset => exact .bind reset_composed fun _ => .pure _
  | step => exact .bind step_composed fun _ => .pure _
  | tickTimers => exact .bind tickTimers_composed fun _ => .pure _
  | runTick => exact .bind runTick_composed fun _ => .pure _
  | mainLoop budget => exact .bind (mainLoop_composed budget) fun _ => .pure _
  | receive text => exact .bind (receive_composed text) fun _ => .pure _
  | writeAscii addr text => exact .bind (writeAscii_composed addr text) fun _ => .pure _
  | connectInbox => exact .bind connectInbox_composed fun _ => .pure _
  | network change => exact .bind (.onNetwork (.change change)) fun _ => .pure _

end Act
end Chip8
