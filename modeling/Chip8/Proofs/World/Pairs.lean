import Chip8.Bench
import Chip8.Proofs.Machine.Agreement
import Chip8.Proofs.World.Frames

/-!
Two worlds side by side, with the same devices around machines that agree. What the nodes are, what they do with
a message and what is logged makes no difference between the machines: whatever is done in both worlds ends alike
and leaves machines that agree.
-/

namespace Chip8

namespace Act
variable {δ α β : Type}

/-- Two ends that are alike: two results as `Q` says, or the same fault with machines that agree; and the devices
are the same. -/
inductive Alike (Q : α → α → Machine → Machine → Prop) : Except Fault α × World δ → Except Fault α × World δ → Prop
  | ok {a b v w} : Q a b v.machine w.machine → w.devices = v.devices → Alike Q (.ok a, v) (.ok b, w)
  | failed {v w} (fault : Fault) : v.machine.Agrees w.machine → w.devices = v.devices →
      Alike Q (.error fault, v) (.error fault, w)

/-- Done with a machine `m` here and with `n` there, among the same devices, two things end alike. -/
def Pairs (m n : Machine) (x y : Act δ α) (Q : α → α → Machine → Machine → Prop) : Prop :=
  ∀ v w : World δ, v.machine = m → w.machine = n → w.devices = v.devices → Alike Q (x v) (y w)

namespace Pairs
variable {m n m' n' : Machine} {Q Q' : α → α → Machine → Machine → Prop} {R : β → β → Machine → Machine → Prop}

theorem imp {x y : Act δ α} (h : Pairs m n x y Q) (hq : ∀ a b m n, Q a b m n → Q' a b m n) : Pairs m n x y Q' := by
  intro v w hv hw same
  have ended := h v w hv hw same
  generalize x v = here, y w = there at ended
  cases ended with
  | ok q same => exact .ok (hq _ _ _ _ q) same
  | failed fault agree same => exact .failed fault agree same

theorem pure {a b : α} (h : Q a b m n) : Pairs m n (Pure.pure a : Act δ α) (Pure.pure b) Q := by
  rintro v w rfl rfl same
  exact .ok h same

theorem bind {x y : Act δ α} {f g : α → Act δ β} (h : Pairs m n x y Q)
    (hf : ∀ a b m n, Q a b m n → Pairs m n (f a) (g b) R) : Pairs m n (x >>= f) (y >>= g) R := by
  intro v w hv hw same
  have first := h v w hv hw same
  rw [bind_apply, bind_apply]
  generalize x v = here, y w = there at first
  cases first with
  | ok q same => exact hf _ _ _ _ q _ _ rfl rfl same
  | failed fault agree same => exact .failed fault agree same

/-- Something that leaves the machines as they are. -/
theorem bind_kept {x y : Act δ α} {f g : α → Act δ β} (h : Pairs m n x y fun _ _ m' n' => m' = m ∧ n' = n)
    (hf : ∀ a b, Pairs m n (f a) (g b) R) : Pairs m n (x >>= f) (y >>= g) R := by
  refine h.bind ?_
  intro a b m' n' kept
  obtain ⟨rfl, rfl⟩ := kept
  exact hf a b

/-- Something that leaves the machines as they are and has the same answer here and there. -/
theorem bind_answer {x y : Act δ α} {f g : α → Act δ β} (h : Pairs m n x y fun a b m' n' => a = b ∧ m' = m ∧ n' = n)
    (hf : ∀ a, Pairs m n (f a) (g a) R) : Pairs m n (x >>= f) (y >>= g) R := by
  refine h.bind ?_
  intro a b m' n' kept
  obtain ⟨rfl, rfl, rfl⟩ := kept
  exact hf a

theorem agreeing {x y : Act δ α} (h : Pairs m n x y fun _ _ m' n' => m' = m ∧ n' = n) (agree : m.Agrees n) :
    Pairs m n x y fun _ _ => Machine.Agrees := by
  refine h.imp ?_
  intro a b m' n' kept
  obtain ⟨rfl, rfl⟩ := kept
  exact agree

theorem machine_bind {f g : Machine → Act δ β} (h : Pairs m n (f m) (g n) R) :
    Pairs m n (machine >>= f) (machine >>= g) R := by
  rintro v w rfl rfl same
  exact h v w rfl rfl same

theorem setMachine {Q : Unit → Unit → Machine → Machine → Prop} (h : Q () () m' n') :
    Pairs m n (setMachine m' : Act δ Unit) (Act.setMachine n') Q := fun _ _ _ _ same => .ok h same

theorem setMachine_bind {f g : Unit → Act δ β} (h : Pairs m' n' (f ()) (g ()) R) :
    Pairs m n (Act.setMachine m' >>= f) (Act.setMachine n' >>= g) R := by
  intro v w _ _ same
  exact h { v with machine := m' } { w with machine := n' } rfl rfl same

theorem note {e e' : Event} {Q : Unit → Unit → Machine → Machine → Prop} (h : Q () () m n) :
    Pairs m n (note e : Act δ Unit) (Act.note e') Q := by
  rintro v w rfl rfl same
  exact .ok h same

theorem note_bind {e e' : Event} {f g : Unit → Act δ β} (h : Pairs m n (f ()) (g ()) R) :
    Pairs m n (Act.note e >>= f) (Act.note e' >>= g) R := by
  intro v w hv hw same
  exact h { v with trace := e :: v.trace } { w with trace := e' :: w.trace } hv hw same

theorem noted_bind {x y : Noted α} {f g : α → Act δ β} (h : Pairs m n (f x.value) (g y.value) R) :
    Pairs m n (noted x >>= f) (noted y >>= g) R := by
  intro v w hv hw same
  exact h { v with trace := x.notes.reverse ++ v.trace } { w with trace := y.notes.reverse ++ w.trace } hv hw same

theorem require_bind {S : α → α → Prop} {o o' : Option α} {f g : α → Act δ β} (related : Option.Rel S o o')
    (none : o = none → m.Agrees n) (some : ∀ a b, S a b → Pairs m n (f a) (g b) R) :
    Pairs m n (require o >>= f) (require o' >>= g) R := by
  rintro v w rfl rfl same
  cases related with
  | none => exact .failed .crash (none rfl) same
  | some related => exact some _ _ related v w rfl rfl same

theorem onNetwork (f g : Session → α × Session) :
    Pairs m n (onNetwork f : Act δ α) (Act.onNetwork g) fun _ _ m' n' => m' = m ∧ n' = n := by
  rintro v w rfl rfl same
  exact .ok ⟨rfl, rfl⟩ same

/-- The same devices answer the same. -/
theorem callDevice {ε : Type} (c c' : DeviceCall) (wrap : ε → Fault) (f : δ → Noted (Except ε α × δ))
    (agree : m.Agrees n) :
    Pairs m n (callDevice c wrap f) (Act.callDevice c' wrap f) fun a b m' n' => a = b ∧ m' = m ∧ n' = n := by
  rintro v w rfl rfl same
  unfold Act.callDevice
  dsimp only
  rw [same]
  rcases (f v.devices).value.1 with cause | a
  · exact .failed (wrap cause) agree rfl
  · exact .ok ⟨rfl, rfl, rfl⟩ rfl

theorem whenever {here there : Bool} {x y : Act δ Unit} {Q : Unit → Unit → Machine → Machine → Prop}
    (same : there = here) (h : Pairs m n x y Q) (skip : Q () () m n) :
    Pairs m n (whenever here x) (Act.whenever there y) Q := by
  subst same
  unfold Act.whenever
  cases there with
  | true => exact h
  | false => exact pure skip

end Pairs

/-! ### Steps -/

section
variable {m n : Machine}

theorem call_pairs (c c' : Call) :
    Pairs m n (call c : Act δ Unit) (call c') fun _ _ m' n' => m' = m ∧ n' = n :=
  (Pairs.onNetwork _ _).bind fun _ _ _ _ kept => .pure kept

/-- The registers may be logged here and not there. -/
theorem dumpRegisters_pairs (word : Opcode) :
    Pairs m n (dumpRegisters m word : Act δ Unit) (dumpRegisters n word) fun _ _ m' n' => m' = m ∧ n' = n := by
  rintro v w rfl rfl same
  unfold dumpRegisters whenever
  rcases v.machine.config.logging with _ | _ <;> rcases w.machine.config.logging with _ | _ <;>
    exact .ok ⟨rfl, rfl⟩ same

theorem awaitKey_pairs (agree : m.Agrees n) (register : Register) :
    Pairs m n (awaitKey m register : Act δ Unit) (awaitKey n register) fun _ _ => Machine.Agrees := by
  unfold awaitKey
  rw [agree.keys]
  rcases m.keys.first? with _ | key
  · exact .pure agree
  · have woken := agree.map (fun k => { k.setRegister register (UInt8.ofNat key.val) with status := .running })
      fun _ _ _ => rfl
    exact .setMachine_bind (.note woken)

variable [Devices δ]

theorem present_pairs (agree : m.Agrees n) :
    Pairs m n (present : Act δ Unit) present fun _ _ m' n' => m' = m ∧ n' = n := by
  refine .machine_bind ?_
  rw [agree.screen]
  exact (Pairs.callDevice _ _ _ _ agree).imp fun _ _ _ _ kept => kept.2

theorem chooseProgram_pairs (agree : m.Agrees n) :
    Pairs m n (chooseProgram m.config : Act δ (List UInt8)) (chooseProgram n.config)
      fun a b m' n' => a = b ∧ m' = m ∧ n' = n := by
  rw [agree.config]
  unfold chooseProgram
  rcases m.config.program with _ | program
  · rcases m.config.romPath with _ | path
    · exact .pure ⟨rfl, rfl, rfl⟩
    · exact .callDevice _ _ _ _ agree
  · exact .pure ⟨rfl, rfl, rfl⟩

/-- Starting over makes machines agree that do so once they are cleared. -/
theorem reset_pairs (cleared : Option.Rel Machine.Agrees m.cleared? n.cleared?)
    (crashed : m.cleared? = none → m.Agrees n) :
    Pairs m n (reset : Act δ Unit) reset fun _ _ => Machine.Agrees := by
  refine .machine_bind (.require_bind cleared crashed fun m n agree => ?_)
  refine .setMachine_bind ((chooseProgram_pairs agree).bind_answer fun program => ?_)
  refine .require_bind (agree.loaded program) (fun _ => agree) ?_
  intro loaded loaded' alike
  obtain ⟨-, agree⟩ := alike
  refine .noted_bind (.setMachine_bind ((present_pairs agree).bind_kept fun _ _ => ?_))
  exact .setMachine_bind (.note (agree.map ({ · with status := .running }) fun _ _ _ => rfl))

theorem fulfil_pairs {done other : Executed} (agree : Executed.Agrees done other) :
    Pairs done.machine other.machine (fulfil done.request : Act δ Unit) (fulfil other.request)
      fun _ _ => Machine.Agrees := by
  rw [agree.request]
  rcases done.request with _ | _ | envelope | _
  · exact .pure agree.machine
  · exact (present_pairs agree.machine).agreeing agree.machine
  · exact (call_pairs _ _).agreeing agree.machine
  · refine (reset_pairs agree.machine.cleared fun _ => agree.machine).bind ?_
    intro _ _ m n agree
    exact (call_pairs _ _).agreeing agree

theorem carryOut_pairs (agree : m.Agrees n) (word : Opcode) :
    Pairs m n (carryOut word : Act δ Unit) (carryOut word) fun _ _ => Machine.Agrees := by
  have counted : m.counted.Agrees n.counted := agree.map Machine.counted fun _ _ _ => rfl
  have decoded : Instruction.decode word n.counted.config.compatibility =
      Instruction.decode word m.counted.config.compatibility := by
    rw [counted.config]
  have dumped : Pairs m.counted n.counted (dumpRegisters m.counted word : Act δ Unit) (dumpRegisters n.counted word)
      fun _ _ m' n' => m' = m.counted ∧ n' = n.counted := dumpRegisters_pairs word
  refine .machine_bind (.setMachine_bind (dumped.bind_kept fun _ _ => ?_))
  have executed : Option.Rel (fun done other => Executed.Agrees done.value other.value)
      (m.counted.execute (Instruction.decode word m.counted.config.compatibility))
      (n.counted.execute (Instruction.decode word n.counted.config.compatibility)) := by
    rw [decoded]
    exact counted.execute _
  refine .note_bind (.require_bind executed (fun _ => counted) fun done other alike => ?_)
  refine .noted_bind (.setMachine_bind ((fulfil_pairs alike).bind ?_))
  intro _ _ m n agree
  refine .machine_bind (.noted_bind (.noted_bind (.setMachine ?_)))
  rw [alike.flow]
  exact (agree.follow _).checkEnd

theorem step_pairs (agree : m.Agrees n) : Pairs m n (step : Act δ Unit) step fun _ _ => Machine.Agrees := by
  refine .machine_bind ?_
  rw [agree.status, agree.ram, agree.pc]
  rcases m.status with _ | _ | register | reason
  · exact .pure agree
  · rcases m.ram.word? m.pc with _ | word
    · exact .noted_bind (.setMachine (agree.map (fun k => (k.halt (.outOfBounds m.pc)).value) fun _ _ _ => rfl))
    · exact carryOut_pairs agree ⟨word⟩
  · exact awaitKey_pairs agree register
  · exact .pure agree

/-! ### Frames -/

theorem pollKeys_pairs (agree : m.Agrees n) :
    Pairs m n (pollKeys : Act δ Unit) pollKeys fun _ _ => Machine.Agrees := by
  refine (Pairs.callDevice .keys .keys .io Devices.keys agree).bind_answer fun keys => ?_
  exact .machine_bind (.setMachine (agree.map ({ · with keys }) fun _ _ _ => rfl))

theorem silence_pairs (agree : m.Agrees n) :
    Pairs m n (silence : Act δ Unit) silence fun _ _ => Machine.Agrees := by
  refine .machine_bind (.whenever agree.toneOn ?_ agree)
  refine (Pairs.callDevice .stop .stop .sound Devices.stop agree).bind_answer fun _ => ?_
  exact .setMachine (agree.map ({ · with toneOn := false }) fun _ _ _ => rfl)

theorem soundTone_pairs (agree : m.Agrees n) :
    Pairs m n (soundTone : Act δ Unit) soundTone fun _ _ => Machine.Agrees := by
  refine .machine_bind (.whenever (by rw [agree.st]) ?_ agree)
  refine (Pairs.callDevice .beep .beep .sound Devices.beep agree).bind_answer fun _ => ?_
  exact .setMachine (agree.map ({ · with toneOn := true }) fun _ _ _ => rfl)

theorem tickTimers_pairs (agree : m.Agrees n) :
    Pairs m n (tickTimers : Act δ Unit) tickTimers fun _ _ => Machine.Agrees := by
  refine .machine_bind (.whenever agree.isActive ?_ agree)
  refine (silence_pairs agree).bind fun _ _ m n agree => .machine_bind (.setMachine_bind ?_)
  have delayed := agree.map (fun k => { k with dt := countDown k.dt }) fun _ _ _ => rfl
  refine (soundTone_pairs delayed).bind fun _ _ m n agree => .machine_bind (.setMachine ?_)
  exact agree.map (fun k => { k with st := countDown k.st }) fun _ _ _ => rfl

theorem takeSteps_pairs (count : Nat) (agree : m.Agrees n) :
    Pairs m n (takeSteps count : Act δ Bool) (takeSteps count) fun a b m n => a = b ∧ m.Agrees n := by
  induction count generalizing m n with
  | zero => exact .pure ⟨rfl, agree⟩
  | succ count ih =>
    refine .machine_bind ((step_pairs agree).bind fun _ _ m' n' agree' => .machine_bind ?_)
    rw [agree.status, agree'.status]
    split
    · exact .pure ⟨rfl, agree'⟩
    · exact ih agree'
    · exact ih agree'
    · exact .pure ⟨rfl, agree'⟩
    · exact .pure ⟨rfl, agree'⟩

theorem afterMail_pairs (agree : m.Agrees n) :
    Pairs m n (afterMail : Act δ Unit) afterMail fun _ _ => Machine.Agrees := by
  refine .machine_bind (.whenever agree.isActive ?_ agree)
  refine (pollKeys_pairs agree).bind fun _ _ m n agree => .machine_bind ?_
  rw [agree.config]
  refine (takeSteps_pairs _ agree).bind ?_
  intro timed timed' m n alike
  obtain ⟨rfl, agree⟩ := alike
  exact .whenever rfl (tickTimers_pairs agree) agree

end
end Act

namespace World
variable {δ : Type}

/-- Two worlds have machines that agree, and the same devices. -/
structure Agrees (v w : World δ) : Prop where
  machine : v.machine.Agrees w.machine
  devices : w.devices = v.devices

variable {v w : World δ}

theorem Agrees.alike {x y : Act δ Unit} (agree : v.Agrees w)
    (h : x.Pairs v.machine w.machine y fun _ _ => Machine.Agrees) : (y w).1 = (x v).1 ∧ (x v).2.Agrees (y w).2 := by
  have ended := h v w rfl rfl agree.devices
  generalize x v = here, y w = there at ended
  cases ended with
  | ok agree same => exact ⟨rfl, agree, same⟩
  | failed fault agree same => exact ⟨rfl, agree, same⟩

theorem Agrees.afterMail [Devices δ] (agree : v.Agrees w) :
    (Act.afterMail w).1 = (Act.afterMail v).1 ∧ (Act.afterMail v).2.Agrees (Act.afterMail w).2 :=
  agree.alike (Act.afterMail_pairs agree.machine)

/-- The message that a frame begins with is all that it has from the network. -/
theorem Agrees.runTick [Devices δ] (agree : v.Agrees w) (rest : v.network.running = [])
    (rest' : w.network.running = []) (mail : w.mail? = v.mail?) :
    (Act.runTick w).1 = (Act.runTick v).1 ∧ (Act.runTick v).2.Agrees (Act.runTick w).2 := by
  have idle : ∀ id, v.network.isBusy id = false := by simp [Network.isBusy, rest]
  have idle' : ∀ id, w.network.isBusy id = false := by simp [Network.isBusy, rest']
  have here := v.delivers_deliverMail
  have there := w.delivers_deliverMail
  rw [Act.runTick_eq_afterMail, Act.bind_apply, Act.bind_apply]
  generalize Act.deliverMail v = ended at here ⊢
  generalize Act.deliverMail w = ended' at there ⊢
  obtain ⟨result, after⟩ := ended
  obtain ⟨result', after'⟩ := ended'
  cases here with
  | busy _ busy => simp [idle] at busy
  | nothing empty =>
    cases there with
    | busy _ busy => simp [idle'] at busy
    | nothing empty' => exact agree.afterMail
    | taken connected' _ inbox' _ =>
      rw [empty] at mail
      simp [mail?, connected', Network.takeMail, inbox'] at mail
  | @taken id payload queue es connected _ inbox _ =>
    have found : v.mail? = some payload := by simp [mail?, connected, Network.takeMail, inbox]
    cases there with
    | busy _ busy => simp [idle'] at busy
    | nothing empty' =>
      rw [empty', found] at mail
      cases mail
    | @taken id' payload' queue' es' connected' _ inbox' _ =>
      have found' : w.mail? = some payload' := by simp [mail?, connected', Network.takeMail, inbox']
      rw [found, found'] at mail
      obtain rfl := Option.some.inj mail
      exact Agrees.afterMail ⟨agree.machine.received payload', agree.devices⟩

/-- What is registered, what the nodes are and do and whether the registers are logged makes no difference to the
machine: a reset, a step, the timers and, if the mail has the same to offer, a frame end with the same result in
two worlds with the same devices, and leave machines that agree on everything else, and the same devices. -/
theorem network_has_no_say [Devices δ] (v w : World δ) (agree : v.Agrees w) :
    (∀ x ∈ [Act.reset, Act.step, Act.tickTimers], (x w).1 = (x v).1 ∧ (x v).2.Agrees (x w).2) ∧
    (v.network.running = [] → w.network.running = [] → w.mail? = v.mail? →
      (Act.runTick w).1 = (Act.runTick v).1 ∧ (Act.runTick v).2.Agrees (Act.runTick w).2) := by
  refine ⟨?_, agree.runTick⟩
  intro x hx
  simp only [List.mem_cons, List.not_mem_nil, or_false] at hx
  rcases hx with rfl | rfl | rfl
  · exact agree.alike (Act.reset_pairs agree.machine.cleared fun _ => agree.machine)
  · exact agree.alike (Act.step_pairs agree.machine)
  · exact agree.alike (Act.tickTimers_pairs agree.machine)

/-- A door that knocks back at the machine when something is sent to it. -/
def knocker : Network where
  nodes := [
    .inbox [],
    .agent {
      execute := fun _ _ _ => .ends (.ok ())
      receive := fun _ _ => .asks (.dispatch (.data ⟨"CHIP8", "knock"⟩)) fun _ => .ends ()
      onDestroy := fun _ => .ends ()
      persistent := true }]
  bindings := [("CHIP8", 0), ("door", 1)]

/-- A program that sends data to the door goes on in the same way whether or not there is a door. -/
theorem knock_has_no_say :
    let config : Config := {
      compatibility := false
      clockMultiplier := 3
      program := some [0xa2, 0x06, 0x0e, 0x30, 0x12, 0x04, 0x64, 0x6f, 0x6f, 0x72, 0x00] }
    ∃ m, Machine.build config 0 = .ok m ∧
      let v := World.after (⟨m, {}, {}, []⟩ : World Bench) [.reset]
      let w := { v with machine := v.machine.retuned true (some 0), network := knocker }
      v.Agrees w ∧ v.network.running = [] ∧ w.network.running = [] ∧ w.mail? = v.mail? ∧
        (Act.step w).1 = (Act.step v).1 ∧ (Act.runTick w).1 = (Act.runTick v).1 ∧
        (Act.runTick v).2.Agrees (Act.runTick w).2 ∧ (Act.runTick v).2.mail? = none ∧
        (Act.runTick w).2.mail? = some "knock" := by
  intro config
  obtain ⟨m, built, rest, mail, unheard, heard⟩ := exists_after config 0 ({} : Bench) {} [.reset]
    (fun v =>
      let w := { v with machine := v.machine.retuned true (some 0), network := knocker }
      v.network.running = [] ∧ w.mail? = v.mail? ∧ (Act.runTick v).2.mail? = none ∧
        (Act.runTick w).2.mail? = some "knock")
    (by decide +kernel)
  refine ⟨m, built, ?_⟩
  intro v w
  have agree : v.Agrees w := ⟨.retuned _ true (some 0), rfl⟩
  obtain ⟨alone, frame⟩ := network_has_no_say v _ agree
  obtain ⟨stepped, -⟩ := alone Act.step (by simp)
  obtain ⟨ticked, agree'⟩ := frame rest rfl mail
  exact ⟨agree, rest, rfl, mail, stepped, ticked, agree', unheard, heard⟩

end World
end Chip8
