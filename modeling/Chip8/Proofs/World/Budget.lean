import Chip8.Bench
import Chip8.Proofs.Network.Unheeded
import Chip8.Proofs.World.Composed
import Chip8.Proofs.World.Passage

/-!
Runs of frames. A run ends early only if the machine stops or the user wants to, and then the next run ends at once. So a
budget can be split: two runs one after the other come to what one run comes to, but for the note that the first one
has ended. Nothing that is done with a machine depends on such notes.
-/

namespace Chip8

theorem Session.Use.like {α : Type} {f : Session → α × Session} (use : Use f) {s t : Session} (h : s.Like t) :
    Agree (f s) (f t) := by
  cases use with
  | perform c => exact perform_like c h
  | addInbox name => exact addInbox_like name h
  | takeMail? id => exact takeMail?_like id h
  | mailCount id => exact ⟨congrArg (Network.mailCount · id) h.network, h⟩
  | change c => exact change_like c h

/-- Two worlds that are the same in all but the notes of runs that have ended. -/
structure World.Like {δ : Type} (v w : World δ) : Prop where
  machine : w.machine = v.machine
  devices : w.devices = v.devices
  session : v.session.Like w.session

namespace Act
variable {δ α β : Type}

/-- Done in worlds that are alike, something has the same result and leaves worlds that are alike. -/
def Respects (x : Act δ α) : Prop := ∀ v w : World δ, v.Like w → (x w).1 = (x v).1 ∧ (x v).2.Like (x w).2

theorem Respects.bind {x : Act δ α} {f : α → Act δ β} (h : Respects x) (hf : ∀ a, Respects (f a)) :
    Respects (x >>= f) := by
  intro v w like
  obtain ⟨result, after⟩ := h v w like
  rw [bind_apply, bind_apply]
  generalize x v = first, x w = second at result after
  obtain ⟨answer, v'⟩ := first
  obtain ⟨answer', w'⟩ := second
  obtain rfl : answer' = answer := result
  rcases answer' with fault | a
  · exact ⟨rfl, after⟩
  · exact hf a v' w' after

theorem endFrames_like {v w : World δ} (like : v.Like w) (count count' : Nat) :
    (endFrames count v).2.Like (endFrames count' w).2 :=
  ⟨like.machine, like.devices, ((like.session.ended rfl).symm.ended rfl).symm⟩

/-- Worlds that are alike only differ in their notes. -/
theorem Respects.of_retold {x : Act δ α} (h : ∀ (w : World δ) (events : List Event),
    w.session.Like ⟨w.network, events⟩ →
      (x { w with trace := events }).1 = (x w).1 ∧ (x w).2.Like (x { w with trace := events }).2) : Respects x := by
  rintro v ⟨m, devices, network, events⟩ ⟨same, still, session⟩
  obtain rfl : m = v.machine := same
  obtain rfl : devices = v.devices := still
  obtain rfl : network = v.network := session.network
  exact h v events session

variable [Devices δ]

/-- No function of a machine depends on which runs have ended. -/
theorem Composed.respects {x : Act δ α} (h : Composed x) : Respects x := by
  induction h with
  | bind _ _ ih ih' => exact ih.bind ih'
  | @require_bind _ _ o f _ ih =>
    cases o with
    | none => exact fun v w like => ⟨rfl, like⟩
    | some a => exact ih a rfl
  | pure | machine | setMachine | quitRequested => exact .of_retold fun w events session => ⟨rfl, rfl, rfl, session⟩
  | note => exact .of_retold fun w events session => ⟨rfl, rfl, rfl, session.note _⟩
  | noted => exact .of_retold fun w events session => ⟨rfl, rfl, rfl, session.noteAll _⟩
  | onNetwork use =>
    refine .of_retold fun w events session => ?_
    have agree := use.like session
    exact ⟨congrArg Except.ok agree.answer, rfl, rfl, agree.like⟩
  | @callDevice _ _ c wrap f _ =>
    refine .of_retold fun w events session => ?_
    unfold Act.callDevice
    dsimp only
    rcases (f w.devices).value.1 with cause | a
    · exact ⟨rfl, rfl, rfl, session.become w.network session.unheeding (_ :: _)⟩
    · exact ⟨rfl, rfl, rfl, session.become w.network session.unheeding (_ :: _)⟩

end Act

/-! ### Budgets -/

/-- Whether a run goes on with another frame. -/
def World.goesOn {δ : Type} [Devices δ] (w : World δ) : Bool :=
  w.machine.isActive && !Devices.quitRequested w.devices

namespace Act
variable {δ : Type} [Devices δ] {w : World δ}

theorem runFrames_succ (budget ticks : Nat) (w : World δ) :
    runFrames (budget + 1) ticks w =
      if w.goesOn then (runTick >>= fun _ => runFrames budget (ticks + 1)) w else (.ok ticks, w) := by
  change (if w.goesOn then runTick >>= fun _ => runFrames budget (ticks + 1) else pure ticks : Act δ Nat) w = _
  split <;> rfl

/-- Where one run has ended early, another one ends at once. -/
theorem runFrames_of_not_goesOn (ended : w.goesOn = false) (budget ticks : Nat) :
    runFrames budget ticks w = (.ok ticks, w) := by
  cases budget with
  | zero => rfl
  | succ budget =>
    rw [runFrames_succ, ended]
    rfl

theorem runFrames_add (budget further ticks : Nat) :
    (runFrames (budget + further) ticks : Act δ Nat) = runFrames budget ticks >>= runFrames further := by
  induction budget generalizing ticks with
  | zero =>
    rw [Nat.zero_add]
    rfl
  | succ budget ih =>
    funext w
    rw [Nat.succ_add, runFrames_succ, ih, bind_apply (runFrames (budget + 1) ticks), runFrames_succ]
    cases goes : w.goesOn with
    | true =>
      rw [if_pos rfl, if_pos rfl, ← bind_apply, bind_assoc]
    | false => exact (runFrames_of_not_goesOn goes further ticks).symm

/-- A run of frames counts on from where it begins. -/
theorem runFrames_from (count budget ticks : Nat) :
    (runFrames budget (count + ticks) : Act δ Nat) = do return count + (← runFrames budget ticks) := by
  induction budget generalizing ticks with
  | zero => rfl
  | succ budget ih =>
    funext w
    rw [runFrames_succ, Nat.add_assoc, ih, bind_apply (runFrames (budget + 1) ticks), runFrames_succ]
    cases w.goesOn with
    | true => rw [if_pos rfl, if_pos rfl, ← bind_apply, bind_assoc]
    | false => rfl

/-- A run counts no more frames than its budget, and fewer only if it has no reason to go on. -/
theorem runFrames_ends (budget ticks : Nat) (w : World δ) :
    (runFrames budget ticks).Ends w
      (fun count after => count ≤ ticks + budget ∧ (count < ticks + budget → after.goesOn = false)) fun _ _ => True := by
  induction budget generalizing ticks w with
  | zero => exact ⟨Nat.le_refl _, fun fewer => absurd fewer (Nat.lt_irrefl _)⟩
  | succ budget ih =>
    unfold Ends
    rw [runFrames_succ]
    cases goes : w.goesOn with
    | false => exact ⟨Nat.le_add_right .., fun _ => goes⟩
    | true =>
      rw [if_pos rfl, bind_apply]
      rcases runTick w with ⟨fault | _, after⟩
      · trivial
      · refine (ih (ticks + 1) after).imp fun count last counted => ?_
        rwa [Nat.add_right_comm] at counted

theorem mainLoop_of_ok {budget count : Nat} {after : World δ} (run : runFrames budget 0 w = (.ok count, after)) :
    mainLoop (some budget) w = (.ok count, (endFrames count after).2) := by
  change (runFrames budget 0 >>= _) w = _
  rw [bind_of_ok run]
  rfl

theorem mainLoop_of_error {budget : Nat} {fault : Fault} {after : World δ}
    (run : runFrames budget 0 w = (.error fault, after)) : mainLoop (some budget) w = (.error fault, after) :=
  bind_of_error run _

/-- A run of frames goes on where another one has ended. -/
theorem runFrames_of_ok {budget count : Nat} {mid : World δ} (run : runFrames budget 0 w = (.ok count, mid))
    (further : Nat) :
    runFrames (budget + further) 0 w = (do return count + (← runFrames further 0) : Act δ Nat) mid := by
  rw [runFrames_add, bind_of_ok run]
  exact congrFun (runFrames_from count further 0) mid

/-- Two runs of frames one after the other; tells how many frames they were. -/
def mainLoops (budget further : Nat) : Act δ Nat := do
  let first ← mainLoop (some budget)
  let second ← mainLoop (some further)
  return first + second

/-- Two runs come to what one run comes to. -/
theorem mainLoop_add (unheeding : w.network.Unheeding) (budget further : Nat) :
    let whole := mainLoop (some (budget + further)) w
    let split := mainLoops budget further w
    split.1 = whole.1 ∧ whole.2.Like split.2 := by
  unfold mainLoops
  obtain ⟨-, alike⟩ := (runFrames_composed budget 0).respects w w ⟨rfl, rfl, .refl unheeding⟩
  rcases first : runFrames budget 0 w with ⟨fault | count, mid⟩
  · have whole : mainLoop (some (budget + further)) w = (.error fault, mid) :=
      mainLoop_of_error (by rw [runFrames_add, bind_of_error first])
    rw [whole, bind_of_error (mainLoop_of_error first)]
    rw [first] at alike
    exact ⟨rfl, alike⟩
  rw [first] at alike
  rw [bind_of_ok (mainLoop_of_ok first)]
  -- The second run begins with one note more than the rest of the whole run.
  have noted : mid.Like (endFrames count mid).2 := ⟨rfl, rfl, alike.session.ended rfl⟩
  obtain ⟨result, alike⟩ := (runFrames_composed further 0).respects mid _ noted
  have rest := runFrames_of_ok first further
  generalize (endFrames count mid).2 = mid' at result alike ⊢
  rcases second : runFrames further 0 mid with ⟨fault | count', last⟩
  · rw [second] at result alike
    have split : runFrames further 0 mid' = (.error fault, (runFrames further 0 mid').2) := Prod.ext result rfl
    rw [bind_of_error second] at rest
    rw [mainLoop_of_error rest, bind_of_error (mainLoop_of_error split)]
    exact ⟨rfl, alike⟩
  · rw [second] at result alike
    have split : runFrames further 0 mid' = (.ok count', (runFrames further 0 mid').2) := Prod.ext result rfl
    rw [bind_of_ok second] at rest
    rw [mainLoop_of_ok rest, bind_of_ok (mainLoop_of_ok split)]
    exact ⟨rfl, endFrames_like alike _ _⟩

theorem mainLoop_count {budget count : Nat} {after : World δ} (run : mainLoop (some budget) w = (.ok count, after)) :
    count ≤ budget ∧ (count < budget → after.machine.isActive = false ∨ Devices.quitRequested after.devices = true) := by
  obtain ⟨_, last, ran, rest⟩ := bind_eq_ok.mp (show (runFrames budget 0 >>= _) w = _ from run)
  cases rest
  have counted := runFrames_ends budget 0 w
  unfold Ends at counted
  rw [ran, Nat.zero_add] at counted
  obtain ⟨most, ended⟩ := counted
  refine ⟨most, fun fewer => ?_⟩
  have goes := ended fewer
  rw [World.goesOn, Bool.and_eq_false_iff, Bool.not_eq_false'] at goes
  exact goes

end Act

namespace World
variable {δ : Type} [Devices δ]

/-- Whatever is done, the order of the names stays as heedless as it was. -/
theorem unheeding_after {w : World δ} (h : w.network.Unheeding) (operations : List Operation) :
    (w.after operations).network.Unheeding := by
  induction operations generalizing w with
  | nil => exact h
  | cons o rest ih =>
    obtain ⟨-, like⟩ := (Act.operate_composed o).respects w w ⟨rfl, rfl, .refl h⟩
    exact ih like.session.unheeding

/-- Whatever the state of the machine is and however the devices answer, a run of frames comes to the same as two runs
one after the other among which its budget is split: they are as many frames and fail with the same fault, and they
leave the same machine, the same devices and the same network. All that was noted is the same, too, but for the ends of
the runs. A run has no more frames than its budget, and it has fewer only if the machine is not active after it or the
user wants to stop. -/
theorem budget_can_be_split (w : World δ) (unheeding : w.network.Unheeding) (budget further : Nat) :
    let whole := Act.mainLoop (some (budget + further)) w
    let split := Act.mainLoops budget further w
    split.1 = whole.1 ∧ split.2.machine = whole.2.machine ∧ split.2.devices = whole.2.devices ∧
      split.2.network = whole.2.network ∧ withoutEnds split.2.trace = withoutEnds whole.2.trace ∧
      ∀ count after, Act.mainLoop (some budget) w = (.ok count, after) →
        count ≤ budget ∧
          (count < budget → after.machine.isActive = false ∨ Devices.quitRequested after.devices = true) := by
  obtain ⟨result, machine, devices, session⟩ := Act.mainLoop_add unheeding budget further
  exact ⟨result, machine, devices, session.network, session.trace, fun count after => Act.mainLoop_count⟩

/-- A machine that halts in its third frame does so in the second of two runs, too. -/
theorem budget_split_before_halt :
    ∃ m, Machine.build { program := some [0x12, 0x02, 0x12, 0x04, 0x00, 0xee] } 0 = .ok m ∧
      let w := World.after (⟨m, {}, {}, []⟩ : World Bench) [.reset]
      w.network.Unheeding ∧ (Act.mainLoops 2 5 w).1.toOption = some 3 ∧
        (Act.mainLoops 2 5 w).2.machine.isActive = false := by
  obtain ⟨m, built, count, stopped⟩ := exists_after { program := some [0x12, 0x02, 0x12, 0x04, 0x00, 0xee] } 0
    ({} : Bench) {} [.reset]
    (fun w => (Act.mainLoop (some 7) w).1.toOption = some 3 ∧ (Act.mainLoop (some 7) w).2.machine.isActive = false)
    (by decide +kernel)
  have unheeding : (World.after (⟨m, {}, {}, []⟩ : World Bench) [.reset]).network.Unheeding :=
    unheeding_after (fun _ _ => rfl) [.reset]
  obtain ⟨result, machine, -⟩ := budget_can_be_split _ unheeding 2 5
  exact ⟨m, built, unheeding, by rw [result, count], by rw [machine, stopped]⟩

end World
end Chip8
