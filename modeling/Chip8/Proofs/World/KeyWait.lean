import Chip8.Bench
import Chip8.Proofs.World.Bounds
import Chip8.Proofs.World.Frames
import Chip8.Proofs.World.Twins
import Chip8.Proofs.World.Words

/-!
The wait for a key. While no step finds a key down, the program stands still, whatever else is done with the machine,
and frames leave the timers alone. The first step that finds one puts the lowest key into the register that waits, and
the program goes on.
-/

namespace Chip8

namespace Keys
variable {keys : Keys} {key : Fin 16}

/-- No key is down. -/
def Released (keys : Keys) : Prop := ∀ k, keys.get k = false

/-- The key is down, and none below it is. -/
def Lowest (keys : Keys) (key : Fin 16) : Prop := keys.get key = true ∧ ∀ k < key, keys.get k = false

instance (keys : Keys) : Decidable keys.Released := inferInstanceAs (Decidable (∀ k : Fin 16, keys.get k = false))

theorem first?_eq_none_iff : keys.first? = .none ↔ keys.Released := by
  simp [first?, Released]

theorem first?_eq_some_iff : keys.first? = some key ↔ keys.Lowest key := by
  have place : ∀ (i : Nat) (hi : i < (List.finRange 16).length), (List.finRange 16)[i].val = i := by
    intro i hi
    rw [List.getElem_finRange]
    rfl
  rw [first?, List.find?_eq_some_iff_getElem]
  constructor
  · rintro ⟨down, i, hi, rfl, before⟩
    refine ⟨down, fun k hk => ?_⟩
    have below : k.val < i := place i hi ▸ hk
    have up := before k.val below
    have same : (List.finRange 16)[k.val] = k := Fin.ext (place k.val (by simp))
    rw [same] at up
    simpa using up
  · rintro ⟨down, before⟩
    have inside : key.val < (List.finRange 16).length := by simp
    refine ⟨down, key.val, inside, Fin.ext (place key.val inside), fun j hj => ?_⟩
    have below : (List.finRange 16)[j] < key := Fin.lt_def.mpr (by rw [place]; exact hj)
    rw [before _ below]
    rfl

end Keys

namespace Machine
variable {m n k : Machine} {es : List Event}

/-- The same machine but for what can come to it while its program does nothing: texts in its memory, its keys, its
inbox, and its timers with their tone. -/
def Stays (m n : Machine) : Prop := ∃ ram keys inbox dt st toneOn, n = { m with ram, keys, inbox, dt, st, toneOn }

theorem Stays.refl (m : Machine) : m.Stays m := ⟨_, _, _, _, _, _, rfl⟩

theorem Stays.trans (first : m.Stays n) (next : n.Stays k) : m.Stays k := by
  obtain ⟨_, _, _, _, _, _, rfl⟩ := first
  obtain ⟨_, _, _, _, _, _, rfl⟩ := next
  exact ⟨_, _, _, _, _, _, rfl⟩

theorem Stays.status (h : m.Stays n) : n.status = m.status := by
  obtain ⟨_, _, _, _, _, _, rfl⟩ := h
  rfl

theorem Tended.stays (h : m.Tended n es) : m.Stays n := by
  obtain ⟨⟨_, _, _, _, _, rfl⟩, -⟩ := h
  exact ⟨_, _, _, _, _, _, rfl⟩

theorem checkEnd_of_inside (inside : m.pc.toNat + 1 < ramSize) : m.checkEnd.value = m := by
  simp [checkEnd, isPastEnd, Nat.not_le.mpr inside]

end Machine

/-- What is left of a frame when the keys are read. -/
def Act.stepsAndTimers {δ : Type} [Devices δ] (count : Nat) : Act δ Unit := do
  whenever (← takeSteps count) tickTimers

/-- The moves that neither carry out an instruction nor start over. -/
def Move.IsBetween (mv : Move) : Prop := mv ≠ .step ∧ mv ≠ .reset

theorem Move.isBetween_deliverMail : Move.deliverMail.IsBetween := by simp [IsBetween]

theorem Move.isBetween_tickTimers : Move.tickTimers.IsBetween := by simp [IsBetween]

theorem Move.isBetween_pollKeys : Move.pollKeys.IsBetween := by simp [IsBetween]

namespace World
variable {δ : Type} [Devices δ] {u v w next : World δ} {x : Register} {key : Fin 16}

theorem stays_move {mv : Move} (between : mv.IsBetween) (w : World δ) : w.machine.Stays (Act.move mv w).2.machine := by
  obtain ⟨new, -, tended | ⟨⟨inbox, same⟩, -⟩⟩ := w.tended_move between.1 between.2
  · exact tended.stays
  · exact ⟨_, _, inbox, _, _, _, same⟩

theorem ReachesBy.stays (h : w.ReachesBy Move.IsBetween v) : w.machine.Stays v.machine := by
  obtain ⟨moves, between, rfl⟩ := h
  induction moves generalizing w with
  | nil => exact .refl _
  | cons mv rest ih =>
    obtain ⟨first, later⟩ := List.forall_mem_cons.mp between
    exact (stays_move first w).trans (ih later)

omit [Devices δ] in
theorem Delivers.running {result : Except Fault Unit} (h : w.Delivers result v) :
    v.network.running = w.network.running := by
  cases h with
  | nothing | busy | taken => rfl

omit [Devices δ] in
theorem Connects.running {result : Except Fault (Except RouteError Unit)} (h : w.Connects result v) :
    v.network.running = w.network.running := by
  cases h with
  | connected _ running => exact running
  | refused => rfl

/-- No move leaves a handler at work that was not at work before. -/
theorem running_move (w : World δ) (mv : Move) : (Act.move mv w).2.network.running = w.network.running := by
  by_cases mail : mv = .deliverMail
  · subst mail
    exact w.delivers_deliverMail.running
  by_cases connect : mv = .connectInbox
  · subst connect
    rw [after_connectInbox]
    exact w.connects_connectInbox.running
  · obtain ⟨_, passage, -⟩ :=
      (Act.move_passes mail connect Session.perform_tidy fun c _ => Session.change_tidy c).after (w := w) rfl
    exact passage.running fun _ _ => id

/-! ### Steps -/

theorem step_of_released (waiting : w.machine.status = .waiting x) (released : w.machine.keys.Released) :
    Act.step w = (.ok (), w) := by
  have unseen := Keys.first?_eq_none_iff.mpr released
  unfold Act.step
  rw [Act.bind_apply]
  simp only [Act.machine, waiting, Act.awaitKey, unseen]
  rfl

theorem step_of_lowest (waiting : w.machine.status = .waiting x) (lowest : w.machine.keys.Lowest key) :
    ∃ next, Act.step w = (.ok (), next) ∧
      next.machine = { w.machine.setRegister x (UInt8.ofNat key.val) with status := .running } := by
  have first := Keys.first?_eq_some_iff.mpr lowest
  unfold Act.step
  rw [Act.bind_apply]
  simp only [Act.machine, waiting, Act.awaitKey, first]
  exact ⟨_, rfl, rfl⟩

theorem takeSteps_of_stalled (waiting : w.machine.status = .waiting x) (stepped : Act.step w = (.ok (), w))
    (count : Nat) : Act.takeSteps (count + 1) w = (.ok false, w) := by
  change (Act.step >>= _) w = _
  rw [Act.bind_of_ok stepped]
  rw [Act.bind_apply]
  simp only [Act.machine, waiting]
  rfl

theorem takeSteps_of_running (stepped : Act.step w = (.ok (), next)) (running : next.machine.status = .running)
    (count : Nat) : Act.takeSteps (count + 1) w = Act.takeSteps count next := by
  change (Act.step >>= _) w = _
  rw [Act.bind_of_ok stepped]
  rw [Act.bind_apply]
  simp only [Act.machine, running]

/-! ### Frames -/

omit [Devices δ] in
theorem delivered_of_rest (rest : w.network.running = []) :
    ∃ mail, Act.deliverMail w = (.ok (), mail) ∧ mail.devices = w.devices ∧
      ∃ ram, mail.machine = { w.machine with ram } := by
  have delivers := w.delivers_deliverMail
  generalize Act.deliverMail w = ended at delivers
  obtain ⟨result, after⟩ := ended
  cases delivers with
  | nothing | taken => exact ⟨_, rfl, rfl, _, rfl⟩
  | busy _ busy =>
    have idle : after.network.running = [] := rest
    simp [Network.isBusy, idle] at busy

theorem polled_of_answer {keys : Keys} (answer : (Devices.keys w.devices).value.1 = .ok keys) :
    ∃ polled, Act.pollKeys w = (.ok (), polled) ∧ polled.machine = { w.machine with keys } := by
  have polls := Act.ends_pollKeys (fun _ _ => False) w
  unfold Act.Ends at polls
  rw [answer] at polls
  rcases read : Act.pollKeys w with ⟨fault | _, polled⟩
  · rw [read] at polls
    exact absurd rfl (polls.2 keys)
  · rw [read] at polls
    obtain ⟨-, _, same, seen⟩ := polls
    obtain rfl := Except.ok.inj same
    exact ⟨polled, rfl, seen⟩

/-- A frame of a machine that waits comes to its steps, whatever the keys are. -/
theorem runTick_of_waiting (waiting : v.machine.status = .waiting x) (rest : v.network.running = []) {keys : Keys}
    (answer : (Devices.keys v.devices).value.1 = .ok keys) :
    ∃ polled, v.ReachesBy Move.IsBetween polled ∧ (∃ ram, polled.machine = { v.machine with ram, keys }) ∧
      Act.runTick v = Act.stepsAndTimers v.machine.config.clockMultiplier.toNat polled := by
  obtain ⟨mail, delivered, devices, ram, received⟩ := delivered_of_rest rest
  obtain ⟨polled, read, seen⟩ := polled_of_answer (devices ▸ answer)
  rw [received] at seen
  have first : v.ReachesBy Move.IsBetween (Act.deliverMail v).2 := .move Move.isBetween_deliverMail v
  have second : mail.ReachesBy Move.IsBetween (Act.pollKeys mail).2 := .move Move.isBetween_pollKeys mail
  rw [delivered] at first
  rw [read] at second
  have active : mail.machine.isActive = true := by
    rw [received, Machine.isActive, waiting]
    rfl
  refine ⟨polled, first.trans second, ⟨ram, seen⟩, ?_⟩
  rw [Act.runTick_eq, Act.bind_of_ok delivered, Act.bind_apply]
  simp only [Act.machine, Act.whenever, active, if_true]
  rw [Act.bind_of_ok read, Act.bind_apply]
  simp only [Act.machine, seen]
  rfl

theorem stepsAndTimers_of_released (waiting : w.machine.status = .waiting x) (released : w.machine.keys.Released)
    (count : Nat) : Act.stepsAndTimers (count + 1) w = (.ok (), w) := by
  have stalled := takeSteps_of_stalled waiting (step_of_released waiting released) count
  unfold Act.stepsAndTimers
  rw [Act.bind_of_ok stalled]
  rfl

theorem stepsAndTimers_of_lowest (waiting : w.machine.status = .waiting x) (lowest : w.machine.keys.Lowest key)
    (count : Nat) : Act.stepsAndTimers (count + 1) w = Act.stepsAndTimers count (Act.step w).2 := by
  obtain ⟨next, stepped, taken⟩ := step_of_lowest waiting lowest
  have running : next.machine.status = .running := by rw [taken]
  unfold Act.stepsAndTimers
  rw [stepped, Act.bind_apply, Act.bind_apply, takeSteps_of_running stepped running]

/-! ### Waiting -/

/-- What is done with a machine that waits, as long as no step finds a key down and it is not started over. -/
inductive Lingers (u : World δ) : World δ → Prop
  | here : Lingers u u
  | move {v : World δ} {mv : Move} : Lingers u v → mv ≠ .reset → (mv = .step → v.machine.keys.Released) →
      Lingers u (Act.move mv v).2

/-- Whether an operation is a step or a frame that finds no key down. -/
def FindsNoKey (w : World δ) : Operation → Prop
  | .step => w.machine.keys.Released
  | .runTick => ∃ keys, (Devices.keys w.devices).value.1 = .ok keys ∧ keys.Released
  | _ => False

/-- Whether operations are steps and frames none of which finds a key down. -/
def FindNoKey (w : World δ) : List Operation → Prop
  | [] => True
  | o :: rest => w.FindsNoKey o ∧ (Act.operate o w).2.FindNoKey rest

namespace Lingers

theorem trans (first : u.Lingers v) (next : v.Lingers w) : u.Lingers w := by
  induction next with
  | here => exact first
  | move _ going unseen ih => exact .move ih going unseen

theorem between (h : u.ReachesBy Move.IsBetween v) : u.Lingers v := by
  obtain ⟨moves, between, rfl⟩ := h
  induction moves generalizing u with
  | nil => exact .here
  | cons mv rest ih =>
    obtain ⟨⟨step, reset⟩, later⟩ := List.forall_mem_cons.mp between
    exact (Lingers.here.move reset fun same => absurd same step).trans (ih later)

/-- A machine that waits stands still. -/
theorem stays (h : u.Lingers v) (waiting : u.machine.status = .waiting x) : u.machine.Stays v.machine := by
  induction h with
  | here => exact .refl _
  | @move v mv _ reset unseen ih =>
    by_cases step : mv = .step
    · -- The only moves that could go on with the program are steps, and none of them finds a key.
      subst step
      have still : v.machine.status = .waiting x := ih.status.trans waiting
      have same : (Act.move .step v).2 = v := congrArg Prod.snd (step_of_released still (unseen rfl))
      rw [same]
      exact ih
    · exact ih.trans (stays_move ⟨step, reset⟩ v)

theorem running (h : u.Lingers v) : v.network.running = u.network.running := by
  induction h with
  | here => rfl
  | @move v mv _ _ _ ih => exact (running_move v mv).trans ih

/-- The wait may begin within a frame. If steps are left of it, the first one ends it, and else the timers tick. -/
theorem restOfFrame (waiting : v.machine.status = .waiting x) (released : v.machine.keys.Released) (count : Nat) :
    v.Lingers (Act.stepsAndTimers count v).2 := by
  cases count with
  | zero => exact .between (.move Move.isBetween_tickTimers v)
  | succ count =>
    rw [stepsAndTimers_of_released waiting released]
    exact .here

end Lingers

section
variable (waiting : v.machine.status = .waiting x) (rest : v.network.running = [])
  (clock : v.machine.config.clockMultiplier ≠ 0)
include waiting rest clock

/-- A frame takes a step at least, and its first step looks at the keys that it has read. -/
theorem frame_of_waiting {keys : Keys} (answer : (Devices.keys v.devices).value.1 = .ok keys) :
    ∃ polled count, v.Lingers polled ∧ (∃ ram, polled.machine = { v.machine with ram, keys }) ∧
      Act.runTick v = Act.stepsAndTimers (count + 1) polled ∧
      ∀ key, keys.Lowest key → Act.runTick v = Act.stepsAndTimers count (Act.step polled).2 := by
  obtain ⟨polled, between, ⟨ram, same⟩, run⟩ := runTick_of_waiting waiting rest answer
  obtain ⟨count, some⟩ : ∃ count, v.machine.config.clockMultiplier.toNat = count + 1 :=
    Nat.exists_eq_succ_of_ne_zero fun zero => clock (UInt32.toNat_inj.mp zero)
  rw [some] at run
  have still : polled.machine.status = .waiting x := by rw [same]; exact waiting
  refine ⟨polled, count, .between between, ⟨ram, same⟩, run, fun key lowest => ?_⟩
  rw [run]
  exact stepsAndTimers_of_lowest still (by rw [same]; exact lowest) count

theorem operate_of_findsNoKey {o : Operation} (unseen : v.FindsNoKey o) :
    ∃ after, Act.operate o v = (.ok .done, after) ∧ v.Lingers after ∧
      ∃ ram keys, after.machine = { v.machine with ram, keys } := by
  cases o with
  | step =>
    have stepped := step_of_released waiting unseen
    exact ⟨v, Act.bind_of_ok stepped _, .here, _, _, rfl⟩
  | runTick =>
    obtain ⟨keys, answer, released⟩ := unseen
    obtain ⟨polled, count, lingers, ⟨ram, same⟩, run, -⟩ := frame_of_waiting waiting rest clock answer
    have still : polled.machine.status = .waiting x := by rw [same]; exact waiting
    rw [stepsAndTimers_of_released still (by rw [same]; exact released)] at run
    exact ⟨polled, Act.bind_of_ok run _, lingers, ram, keys, same⟩
  | _ => exact unseen.elim

/-- Steps and frames that find no key down leave all but the memory and the keys as it is, the timers too. -/
theorem after_of_findNoKey {operations : List Operation} (unseen : v.FindNoKey operations) :
    v.Lingers (v.after operations) ∧ ∃ ram keys, (v.after operations).machine = { v.machine with ram, keys } := by
  induction operations generalizing v with
  | nil => exact ⟨.here, _, _, rfl⟩
  | cons o later ih =>
    obtain ⟨after, run, lingers, ram, keys, same⟩ := operate_of_findsNoKey waiting rest clock unseen.1
    have next := unseen.2
    rw [run] at next
    have still : after.machine.status = .waiting x := by rw [same]; exact waiting
    obtain ⟨further, ram', keys', same'⟩ := ih still (lingers.running.trans rest) (by rw [same]; exact clock) next
    rw [after_cons, run]
    exact ⟨lingers.trans further, ram', keys', by rw [same', same]⟩

end

/-! ### From its beginning to its end -/

theorem step_waits {op : Opcode} (running : w.machine.status = .running)
    (found : w.machine.ram.word? w.machine.pc = some op.word) (waits : op.IsTransfer 0x0a)
    (room : w.machine.pc.toNat + 3 < ramSize) :
    ∃ u, Act.step w = (.ok (), u) ∧ u.machine = { w.machine.setRegister op.x 0 with
      pc := w.machine.pc + 2
      instructions := w.machine.instructions + 1
      status := .waiting op.x } ∧ u.machine.pc.toNat + 1 < ramSize := by
  have decoded : Instruction.decode op w.machine.config.compatibility = .waitKey op.x :=
    Instruction.decode_eq_iff.mpr (.waitKey waits)
  obtain ⟨u, run, left⟩ := Act.step_of_next (decoded ▸ Machine.next?_of_word running found) rfl rfl
  have inside : (w.machine.pc + 2).toNat + 1 < ramSize := by
    rw [UInt16.toNat_add]
    change (w.machine.pc.toNat + 2) % 65536 + 1 < ramSize
    simp only [ramSize] at room ⊢
    omega
  rw [Machine.checkEnd_of_inside inside] at left
  refine ⟨u, run, left, ?_⟩
  rw [left]
  exact inside

/-- A machine that runs carries out the instruction at its program counter, whatever is done before its next step. -/
theorem goes_on {n : World δ} (running : next.machine.status = .running)
    (inside : next.machine.pc.toNat + 1 < ramSize) (between : next.ReachesBy Move.IsBetween n) :
    ∃ word es, n.machine.ram.word? next.machine.pc = some word ∧ (Act.step n).2.trace = es ++ n.trace ∧
      .executed (Instruction.decode ⟨word⟩ n.machine.config.compatibility) ∈ es := by
  obtain ⟨ram, keys, inbox, dt, st, toneOn, same⟩ := between.stays
  obtain ⟨word, found⟩ : ∃ word, n.machine.ram.word? next.machine.pc = some word := ⟨_, if_pos inside⟩
  have comes : n.machine.next? = some (Instruction.decode ⟨word⟩ n.machine.config.compatibility) := by
    refine Machine.next?_eq_some_iff.mpr ⟨?_, word, ?_, rfl⟩
    · rw [same]
      exact running
    · rw [show n.machine.pc = next.machine.pc by rw [same]]
      exact found
  obtain ⟨es, trace, executed⟩ := executed_step n comes
  exact ⟨word, es, found, trace, executed⟩

/-- A word that waits for a key clears its register and stops the program behind it. As long as no step finds a key down
and the machine is not started over, whatever else is done, the program stands still; if the wait begins within a frame,
the rest of the frame is part of this. Steps and frames that find no key succeed and change at most the memory and the
keys, so that the timers stand still too.
The first step that finds a key down puts the lowest one into the register, and nothing else changes but that the
machine runs; the step after it carries out the instruction behind the word. In a frame, this is the first step that
it takes after it has read the keys. -/
theorem key_wait_lasts_until_key {config : Config} {op : Opcode} (reached : w.Reachable config)
    (rest : w.network.running = []) (running : w.machine.status = .running)
    (found : w.machine.ram.word? w.machine.pc = some op.word) (waits : op.IsTransfer 0x0a)
    (room : w.machine.pc.toNat + 3 < ramSize) :
    ∃ u, Act.step w = (.ok (), u) ∧
      u.machine = { w.machine.setRegister op.x 0 with
        pc := w.machine.pc + 2
        instructions := w.machine.instructions + 1
        status := .waiting op.x } ∧
      ∀ v, u.Lingers v →
        u.machine.Stays v.machine ∧
        (v.machine.keys.Released → ∀ count, u.Lingers (Act.stepsAndTimers count v).2) ∧
        (∀ operations, v.FindNoKey operations →
          u.Lingers (v.after operations) ∧
            ∃ ram keys, (v.after operations).machine = { v.machine with ram, keys }) ∧
        (∀ o, v.FindsNoKey o → (Act.operate o v).1 = .ok .done) ∧
        (∀ key, v.machine.keys.Lowest key → ∃ next, Act.step v = (.ok (), next) ∧
          next.machine = { v.machine.setRegister op.x (UInt8.ofNat key.val) with status := .running } ∧
          ∀ n, next.ReachesBy Move.IsBetween n → ∃ word es,
            n.machine.ram.word? (w.machine.pc + 2) = some word ∧ (Act.step n).2.trace = es ++ n.trace ∧
            .executed (Instruction.decode ⟨word⟩ n.machine.config.compatibility) ∈ es) ∧
        ∀ keys, (Devices.keys v.devices).value.1 = .ok keys →
          ∃ polled count, u.Lingers polled ∧ (∃ ram, polled.machine = { v.machine with ram, keys }) ∧
            Act.runTick v = Act.stepsAndTimers (count + 1) polled ∧
            ∀ key, keys.Lowest key → Act.runTick v = Act.stepsAndTimers count (Act.step polled).2 := by
  obtain ⟨u, run, begun, inside⟩ := step_waits running found waits room
  refine ⟨u, run, begun, fun v lingers => ?_⟩
  have waiting : u.machine.status = .waiting op.x := by rw [begun]
  have place : u.machine.pc = w.machine.pc + 2 := by rw [begun]
  have settings : u.machine.config = w.machine.config := by rw [begun]; rfl
  have idle : v.network.running = [] := by
    have stepped := running_move w .step
    change (Act.step w).2.network.running = _ at stepped
    rw [run] at stepped
    exact lingers.running.trans (stepped.trans rest)
  have stays := lingers.stays waiting
  have still : v.machine.status = .waiting op.x := stays.status.trans waiting
  have clock : v.machine.config.clockMultiplier ≠ 0 := by
    obtain ⟨_, _, _, _, _, _, same⟩ := stays
    rw [same]
    change u.machine.config.clockMultiplier ≠ 0
    rw [settings]
    exact reached.sound.config.clock
  refine ⟨stays, fun released count => lingers.trans (.restOfFrame still released count), fun operations unseen => ?_,
    fun o unseen => ?_, fun key lowest => ?_, fun keys answer => ?_⟩
  · obtain ⟨further, left⟩ := after_of_findNoKey still idle clock unseen
    exact ⟨lingers.trans further, left⟩
  · obtain ⟨after, done, -⟩ := operate_of_findsNoKey still idle clock unseen
    rw [done]
  · obtain ⟨next, stepped, taken⟩ := step_of_lowest still lowest
    have behind : next.machine.pc = w.machine.pc + 2 := by
      obtain ⟨_, _, _, _, _, _, same⟩ := stays
      rw [taken, same]
      exact place
    refine ⟨next, stepped, taken, fun n between => ?_⟩
    rw [← behind]
    exact goes_on (by rw [taken]) (by rw [behind, ← place]; exact inside) between
  · obtain ⟨polled, count, further, left, frame, first⟩ := frame_of_waiting still idle clock answer
    exact ⟨polled, count, lingers.trans further, left, frame, first⟩

/-- Keys 5 and 9 are down all the time, but they are not read before the first frame. -/
theorem lowest_key_ends_wait :
    let config : Config := { program := some [0xf3, 0x0a, 0x60, 0x01] }
    let devices := (({} : Bench).setKey 9 true).setKey 5 true
    ∃ m, Machine.build config 0 = .ok m ∧
      let w := World.after (⟨m, devices, {}, []⟩ : World Bench) [.reset]
      w.Reachable config ∧ w.network.running = [] ∧ w.machine.status = .running ∧
        w.machine.ram.word? w.machine.pc = some 0xf30a ∧ Opcode.IsTransfer ⟨0xf30a⟩ 0x0a ∧
        w.machine.pc.toNat + 3 < ramSize ∧
        ∃ u, Act.step w = (.ok (), u) ∧ u.FindNoKey [.step, .step] ∧
          (u.after [.step, .step]).machine.status = .waiting 3 ∧
          ∃ polled next, u.Lingers polled ∧ polled.machine.keys.Lowest 5 ∧ Act.step polled = (.ok (), next) ∧
            next.machine.v[(3 : Register)] = 5 ∧ next.machine.status = .running := by
  intro config devices
  obtain ⟨m, built, rest, running, word, room, released, answer⟩ := exists_after config 0 devices {} [.reset]
    (fun w => w.network.running = [] ∧ w.machine.status = .running ∧
      w.machine.ram.word? w.machine.pc = some 0xf30a ∧ w.machine.pc.toNat + 3 < ramSize ∧
      ((Act.step w).2.machine.keys.Released ∧ (Act.operate .step (Act.step w).2).2.machine.keys.Released) ∧
      (Act.step w).2.devices.keys = devices.keys ∧ (Act.step w).2.devices.broken = none)
    (by decide +kernel)
  have reached := reachable_after built devices {} [.reset]
  have waits : Opcode.IsTransfer ⟨0xf30a⟩ 0x0a := by decide
  have lowest : devices.keys.Lowest 5 := ⟨by decide, by decide⟩
  refine ⟨m, built, ?_⟩
  dsimp only
  generalize World.after (⟨m, devices, {}, []⟩ : World Bench) [.reset] = w
    at reached rest running word room released answer ⊢
  have found : w.machine.ram.word? w.machine.pc = some (Opcode.word ⟨0xf30a⟩) := word
  obtain ⟨u, run, begun, lasts⟩ := key_wait_lasts_until_key reached rest running found waits room
  rw [run] at released answer
  dsimp only at released answer
  obtain ⟨-, -, idles, -, -, polls⟩ := lasts u .here
  have unseen : u.FindNoKey [.step, .step] := ⟨released.1, released.2, trivial⟩
  have keys : (Devices.keys u.devices).value.1 = .ok devices.keys := by
    simp [Devices.keys, Bench.attempt, answer.1, answer.2]
  obtain ⟨polled, count, lingers, ⟨ram, same⟩, -⟩ := polls _ keys
  have down : polled.machine.keys.Lowest 5 := by rw [same]; exact lowest
  obtain ⟨next, stepped, taken, -⟩ := (lasts polled lingers).2.2.2.2.1 5 down
  refine ⟨reached, rest, running, word, waits, room, u, run, unseen, ?_, polled, next, lingers, down, stepped, ?_, ?_⟩
  · obtain ⟨-, ram, keys, left⟩ := idles _ unseen
    rw [left, begun]
    rfl
  · rw [taken]
    exact polled.machine.getElem_setRegister 3 3 5
  · rw [taken]

end World
end Chip8
