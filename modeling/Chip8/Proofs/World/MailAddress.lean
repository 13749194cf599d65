import Chip8.Proofs.Machine.Strings
import Chip8.Proofs.Network.Listening
import Chip8.Proofs.World.Mail
import Chip8.Proofs.World.PowerOn

/-!
The name of a machine as its address. Text that is sent to the name of a connected machine reaches it, as long as the
name is registered: the payload is put in the inbox of the machine, and a frame copies it into the text window. In the
text a bar ends the target, and the target must not be empty; so under an empty name, or one with a bar in it, the
machine gets no text, although it is registered like any other.
-/

namespace Chip8

open Event

/-- An inbox listens through a passage if it does through the work of the network. -/
theorem Session.Passage.listens {Work : Session → Session → Prop} {s t : Session} {es before : List Event}
    {name : String} {id : NodeId} (h : Passage Work s es t)
    (works : ∀ s t, Work s t → Listens name id before s → Listens name id before t) (hs : Listens name id before s) :
    Listens name id before t := by
  induction h with
  | refl => exact hs
  | trans _ _ ih₁ ih₂ => exact ih₂ (ih₁ hs)
  | aside _ h => exact hs.note (misses_of_foreign (source_of_isAside h))
  | landmark _ h => exact hs.note (misses_of_foreign (by simp [source_of_isLandmark h]))
  | work h => exact works _ _ h hs

namespace World
variable {δ : Type} {w connected : World δ} {config : Config} {id : NodeId} {before : List Event}

/-- The inbox of a machine listens to the name of the machine. -/
structure Listening (config : Config) (id : NodeId) (before : List Event) (w : World δ) : Prop where
  configured : w.machine.Configured config
  mine : w.machine.inbox = some id
  rest : w.network.running = []
  listens : w.session.Listens config.inboxName id before

/-! ### Connecting -/

theorem inboxName_of_configured {m : Machine} (h : m.Configured config) : m.config.inboxName = config.inboxName := by
  obtain ⟨logging, clock, configured⟩ := h
  rw [configured]

/-- What connecting an inbox comes to is what adding one to the network comes to. -/
theorem connectInbox_eq (w : World δ) :
    Act.connectInbox w =
      match w.session.addInbox w.machine.config.inboxName with
      | (.error cause, s) => (.ok (.error cause), { w with network := s.network, trace := s.trace })
      | (.ok id, s) =>
        (.ok (.ok ()),
          { w with machine := { w.machine with inbox := some id }, network := s.network, trace := s.trace }) := by
  unfold Act.connectInbox
  rw [Act.bind_apply]
  change ((Act.onNetwork (·.addInbox w.machine.config.inboxName) >>= _ : Act δ (Except RouteError Unit)) w) = _
  rw [Act.bind_apply]
  unfold Act.onNetwork session
  dsimp only
  rcases Session.addInbox _ _ with ⟨_ | _, s⟩ <;> rfl

theorem listening_of_connects (configured : w.machine.Configured config) (rest : w.network.running = [])
    (connects : Act.connectInbox w = (.ok (.ok ()), connected)) :
    ∃ id, Listening config id connected.trace connected ∧
      connected.network.find? config.inboxName = some id := by
  rw [connectInbox_eq, inboxName_of_configured configured] at connects
  have added := Session.addInbox_added config.inboxName w.session
  have tidy := Session.addInbox_tidy config.inboxName w.session
  generalize answer : w.session.addInbox config.inboxName = result at connects added tidy
  cases added with
  | @bound s nodes trace =>
    cases connects
    have bound : s.network.find? config.inboxName = some w.network.nodes.length := Session.find?_addInbox answer
    have running : s.network.running = [] := tidy.running.trans rest
    refine ⟨_, ⟨configured.of_same rfl, rfl, running, ?_⟩, bound⟩
    refine ⟨?_, ⟨[], ?_⟩, fun k other => ?_, [], rfl, allTaken_of_misses (by simp)⟩
    · change _ ∉ s.network.running
      simp [running]
    · change s.network.nodes[w.network.nodes.length]? = _
      rw [nodes]
      exact List.getElem?_concat_length
    · exact Option.some.inj (other.symm.trans bound)
  | taken => cases connects

namespace Listening

theorem delivers {result : Except Fault Unit} {after : World δ} (h : Listening config id before w)
    (delivers : w.Delivers result after) : Listening config id before after := by
  cases delivers with
  | nothing | busy => exact h
  | @taken k payload queue new connected idle inbox asides =>
    obtain rfl := Option.some.inj (connected.symm.trans h.mine)
    obtain ⟨es, trace, taken⟩ := h.listens.taken
    obtain ⟨made, -⟩ := List.getElem?_eq_some_iff.mp inbox
    have missed : ∀ e ∈ new ++ [.mailTaken payload], e.Misses k := by
      intro e he
      rcases List.mem_append.mp he with aside | mail
      · exact misses_of_foreign (source_of_isAside (asides e aside))
      · obtain rfl := List.mem_singleton.mp mail
        exact misses_of_foreign (by simp [Event.source])
    have noted : new ++ .mailTaken payload :: w.trace = new ++ [.mailTaken payload] ++ es ++ before := by
      rw [show w.trace = es ++ before from trace]
      simp
    exact ⟨h.configured.turned (.received payload), h.mine, h.rest, h.listens.idle,
      ⟨queue, List.getElem?_set_self made⟩, h.listens.only, _, noted,
      allTaken_append.mpr ⟨allTaken_of_misses missed, taken⟩⟩

/-- While its name is registered no other inbox is connected. -/
theorem refused (h : Listening config id before w) (bound : w.network.find? config.inboxName = some id) :
    Listening config id before (Act.connectInbox w).2 := by
  have taken : w.session.network.find? config.inboxName ≠ none := by
    change w.network.find? _ ≠ none
    simp [bound]
  rw [connectInbox_eq, inboxName_of_configured h.configured, Session.addInbox_of_taken taken]
  have missed : (nameTaken config.inboxName).Misses id := by simp [Misses]
  exact ⟨h.configured, h.mine, h.rest, h.listens.note missed⟩

theorem changed (h : Listening config id before w) (bound : w.network.find? config.inboxName = some id) (c : Change) :
    let s := (w.session.change c).2
    Listening config id before { w with network := s.network, trace := s.trace } :=
  ⟨h.configured, h.mine, (Session.change_tidy c w.session).running.trans h.rest, h.listens.change bound c⟩

variable [Devices δ]

/-- Whatever is done, short of what is done to the names from outside. -/
theorem move (h : Listening config id before w) {mv : Move} (connect : mv ≠ .connectInbox)
    (change : ∀ c, mv ≠ .network c) : Listening config id before (Act.move mv w).2 := by
  by_cases mail : mv = .deliverMail
  · subst mail
    exact h.delivers w.delivers_deliverMail
  let Work (s t : Session) : Prop :=
    s.Tidy t ∧ (s.Listens config.inboxName id before → t.Listens config.inboxName id before)
  have calls : ∀ c (s : Session), Work s (s.perform c).2 := by
    intro c s
    obtain ⟨es, course⟩ := Session.perform_course c s
    exact ⟨Session.perform_tidy c s, fun listens => listens.course course⟩
  obtain ⟨es, passage, -⟩ :=
    (Act.move_passes mail connect calls fun c same => absurd same (change c)).after (w := w) rfl
  exact ⟨h.configured.turned (w.turned_move mv), (inbox_move connect).trans h.mine,
    (passage.running fun _ _ h => h.1).trans h.rest, passage.listens (fun _ _ h => h.2) h.listens⟩

theorem reachesBy {after : World δ} (h : Listening config id before w)
    (reached : w.ReachesBy (fun mv => mv ≠ .connectInbox ∧ ∀ c, mv ≠ .network c) after) :
    Listening config id before after := by
  obtain ⟨moves, allowed, rfl⟩ := reached
  induction moves generalizing w with
  | nil => exact h
  | cons mv rest ih =>
    obtain ⟨first, others⟩ := List.forall_mem_cons.mp allowed
    rw [through_cons]
    exact ih (h.move first.1 first.2) others

/-- No operation takes the name from the inbox and gives it to another node at once. -/
theorem operate (h : Listening config id before w) (bound : w.network.find? config.inboxName = some id)
    (o : Operation) : Listening config id before (Act.operate o w).2 := by
  by_cases connect : o = .connectInbox
  · subst connect
    have same : (Act.operate .connectInbox w).2 = (Act.connectInbox w).2 := Act.snd_bind_pure ..
    rw [same]
    exact h.refused bound
  by_cases change : ∃ c, o = .network c
  · obtain ⟨c, rfl⟩ := change
    exact h.changed bound c
  · refine h.reachesBy ((Act.operate_madeOf o w).mono ?_)
    rintro mv makes
    refine ⟨?_, ?_⟩
    · rintro rfl
      exact connect makes
    · rintro c rfl
      exact change ⟨c, makes⟩

end Listening

/-! ### As long as the name is registered -/

theorem Listening.bound (h : Listening config id before w) (registered : w.network.contains config.inboxName = true) :
    w.network.find? config.inboxName = some id := by
  obtain ⟨k, bound⟩ := Option.isSome_iff_exists.mp registered
  rw [bound, h.listens.only k bound]

variable [Devices δ]

/-- A name is registered, and stays so during some operations. -/
def StaysRegistered (name : String) (operations : List Operation) (w : World δ) : Prop :=
  ∀ first, first <+: operations → (w.after first).network.contains name = true

theorem StaysRegistered.concat {name : String} {operations : List Operation} {o : Operation}
    (h : w.StaysRegistered name operations) (last : (w.after (operations ++ [o])).network.contains name = true) :
    w.StaysRegistered name (operations ++ [o]) := by
  intro first within
  rcases List.prefix_concat_iff.mp within with rfl | within
  · exact last
  · exact h first within

theorem Listening.after (h : Listening config id before w) {operations : List Operation}
    (registered : w.StaysRegistered config.inboxName operations) :
    Listening config id before (w.after operations) ∧
      (w.after operations).network.find? config.inboxName = some id := by
  induction operations generalizing w with
  | nil => exact ⟨h, h.bound (registered [] (List.prefix_refl _))⟩
  | cons o rest ih =>
    have bound := h.bound (registered [] (List.nil_prefix ..))
    refine ih (h.operate bound o) fun first within => ?_
    exact registered (o :: first) (List.cons_prefix_cons.mpr ⟨rfl, within⟩)

/-! ### Text under the name -/

/-- Data that is sent to the machine under its name is answered with success and put in the queue. -/
theorem Listening.operate_sends (h : Listening config id before w) (bound : w.network.find? config.inboxName = some id)
    {queue : List String} (found : w.network.nodes[id]? = some (.inbox queue)) {c : Call} {payload : String}
    (sends : c.Sends ⟨config.inboxName, payload⟩) :
    ∃ sent, Act.operate (.network (.call c)) w = (.ok (.network (.outcome (.done (.ok ())))), sent) ∧
      sent.network.nodes[id]? = some (.inbox (queue ++ [payload])) ∧
      sent.network.contains config.inboxName = true := by
  have idle : id ∉ w.session.network.running := h.listens.idle
  obtain ⟨t, performed, filled, bindings⟩ := Session.perform_sends (s := w.session) sends bound idle found
  refine ⟨{ w with network := t.network, trace := t.trace }, ?_, filled, ?_⟩
  · have run : Act.operate (.network (.call c)) w =
        (.ok (.network (.outcome (w.session.perform c).1)),
          { w with network := (w.session.perform c).2.network, trace := (w.session.perform c).2.trace }) := rfl
    rw [run, performed]
  · have same : t.network.find? config.inboxName = w.network.find? config.inboxName := by
      rw [Network.find?, bindings]
      rfl
    change (t.network.find? config.inboxName).isSome = true
    rw [same, bound]
    rfl

/-- A message stands in the window, as much of it as fits, with a zero byte behind it. -/
theorem receive_window {m : Machine} (valid : config.Valid) (lettered : m.Lettered config)
    (configured : m.Configured config) (payload : String) :
    let received := (m.receive payload).value
    received.1 = min (config.window.size.toNat - 1) payload.length ∧
      received.2.ram.readAll config.window.address.toNat (received.1 + 1) =
        (payload.toList.take received.1).map Ram.asciiByte ++ [0] := by
  have positive : 0 < config.window.size.toNat :=
    Nat.pos_of_ne_zero fun zero => valid.room (UInt16.toNat_inj.mp zero)
  obtain ⟨room, size⟩ : ∃ room, config.window.size.toNat = room + 1 := ⟨_, (Nat.sub_add_cancel positive).symm⟩
  have window : m.config.window = config.window := by
    obtain ⟨logging, clock, same⟩ := configured
    rw [same]
  have fits := valid.window
  have apart := valid.apart
  simp only [TextWindow.stop, Config.fontStop, size, ← lettered.font] at fits apart
  have written := Ram.writeAscii_window (lettered.inside valid) fits apart payload
  rw [← size, ← window] at written
  rw [size, Nat.add_sub_cancel, ← window]
  exact written

/-- A frame that finds a payload in the queue copies the first one into the window before it does anything else. -/
theorem Listening.copies (h : Listening config id before w) (reached : w.Reachable config) {payload : String}
    {waiting : List String} (found : w.network.nodes[id]? = some (.inbox (payload :: waiting))) :
    ∃ delivered, Act.deliverMail w = (.ok (), delivered) ∧ Act.runTick w = Act.afterMail delivered ∧
      delivered.machine = (w.machine.receive payload).value.2 ∧
      let count := min (config.window.size.toNat - 1) payload.length
      delivered.machine.ram.readAll config.window.address.toNat (count + 1) =
        (payload.toList.take count).map Ram.asciiByte ++ [0] := by
  obtain ⟨delivered, notes, delivers, run, -, -, machine, -⟩ := deliverMail_of_rest h.rest
  have next : w.mail? = some payload := by
    simp only [mail?, h.mine, Option.bind_some, Network.takeMail, found]
  rw [next] at machine
  obtain ⟨valid, lettered, configured⟩ := reached.settings
  obtain ⟨count, window⟩ := receive_window valid lettered configured payload
  rw [count] at window
  exact ⟨delivered, delivers, run, machine, machine ▸ window⟩

/-- A machine whose settings pass their check is reached under its name, if that is not empty and has no bar in it.
When its inbox is connected, and as long as the name is registered from then on, all text that is sent under the name
is answered with success, whatever the payload is and whatever else is done, and so is all data that the handlers of
other nodes send. The payload is put in the queue of the inbox, and the frame that finds it first there copies it into
the text window. -/
theorem text_reaches_connected_machine (valid : config.validate = .ok ()) (named : config.inboxName ≠ "")
    (unbarred : '|' ∉ config.inboxName.toList) (entropy : UInt64) (devices : δ) (network : Network)
    (rest : network.running = []) :
    ∃ m, Machine.build config entropy = .ok m ∧ ∀ operations (connected : World δ),
      Act.connectInbox (World.after ⟨m, devices, network, []⟩ operations) = (.ok (.ok ()), connected) →
      ∃ id, ∀ later, connected.StaysRegistered config.inboxName later →
        let u := connected.after later
        u.machine.inbox = some id ∧ ∃ queue, u.network.nodes[id]? = some (.inbox queue) ∧
          (∀ payload, ∀ c ∈ [
              Call.data (config.inboxName ++ "|" ++ payload), .dispatch (.data ⟨config.inboxName, payload⟩)],
            ∃ sent, Act.operate (.network (.call c)) u = (.ok (.network (.outcome (.done (.ok ())))), sent) ∧
              sent.network.nodes[id]? = some (.inbox (queue ++ [payload])) ∧
              connected.StaysRegistered config.inboxName (later ++ [.network (.call c)])) ∧
          (∀ payload waiting, queue = payload :: waiting →
            ∃ delivered, Act.deliverMail u = (.ok (), delivered) ∧ Act.runTick u = Act.afterMail delivered ∧
              delivered.machine = (u.machine.receive payload).value.2 ∧
              let count := min (config.window.size.toNat - 1) payload.length
              delivered.machine.ram.readAll config.window.address.toNat (count + 1) =
                (payload.toList.take count).map Ram.asciiByte ++ [0]) ∧
          ∃ es, u.trace = es ++ connected.trace ∧ AllTaken id es := by
  obtain ⟨m, built, sound⟩ := Machine.build_of_validate valid entropy
  refine ⟨m, built, fun operations connected connects => ?_⟩
  have reached := reachable_after built devices network operations
  have begun : Safe (⟨m, devices, network, []⟩ : World δ) := ⟨sound, rest, calm_nil⟩
  obtain ⟨-, -, configured⟩ := reached.settings
  obtain ⟨id, begins, -⟩ := listening_of_connects configured (begun.after operations).rest connects
  have moves : connected.Reachable config := reached.reaches ⟨[.connectInbox], by
    rw [through_cons, after_connectInbox, connects]
    rfl⟩
  refine ⟨id, fun later registered => ?_⟩
  obtain ⟨listening, bound⟩ := begins.after registered
  obtain ⟨queue, found⟩ := listening.listens.inbox
  refine ⟨listening.mine, queue, found, ?_, ?_, listening.listens.taken⟩
  · intro payload c member
    have sends : c.Sends ⟨config.inboxName, payload⟩ := by
      simp only [List.mem_cons, List.not_mem_nil, or_false] at member
      rcases member with rfl | rfl
      · exact Or.inr ⟨_, rfl, (Data.parse_text (d := ⟨config.inboxName, payload⟩) unbarred).trans (if_neg named)⟩
      · exact Or.inl rfl
    obtain ⟨sent, run, filled, still⟩ := listening.operate_sends bound found sends
    refine ⟨sent, run, filled, registered.concat ?_⟩
    have last : connected.after (later ++ [.network (.call c)]) = sent := by
      rw [after_append, after_cons, run]
      rfl
    rw [last]
    exact still
  · rintro payload waiting rfl
    exact listening.copies (moves.reaches (reaches_after connected later)) found

/-- Text for a machine under its usual name. -/
theorem greeting_reaches_machine :
    let config : Config := { program := some [0x12, 0x00] }
    config.validate = .ok () ∧ config.inboxName ≠ "" ∧ '|' ∉ config.inboxName.toList ∧ ({} : Network).running = [] ∧
      ∃ m, Machine.build config 0 = .ok m ∧
        let w := World.after (⟨m, {}, {}, []⟩ : World Bench) [.reset]
        let connected := (Act.connectInbox w).2
        let later : List Operation := [.runTick, .network (.call (.data "CHIP8|hi"))]
        let u := connected.after later
        Act.connectInbox w = (.ok (.ok ()), connected) ∧ connected.StaysRegistered "CHIP8" later ∧
          ∃ delivered, Act.runTick u = Act.afterMail delivered ∧
            delivered.machine.ram.readAll 0x1a0 3 = [0x68, 0x69, 0] := by
  intro config
  have valid : config.validate = .ok () := rfl
  have named : config.inboxName ≠ "" := by decide
  have unbarred : '|' ∉ config.inboxName.toList := by decide
  obtain ⟨m, built, reaches⟩ := text_reaches_connected_machine valid named unbarred 0 ({} : Bench) {} rfl
  have run : (Machine.build config 0).toOption.map (fun m =>
      let w := World.after (⟨m, {}, {}, []⟩ : World Bench) [.reset]
      let connected := (Act.connectInbox w).2
      let later : List Operation := [.runTick, .network (.call (.data "CHIP8|hi"))]
      decide ((Act.connectInbox w).1 = .ok (.ok ()) ∧
        (∀ k ≤ later.length, (connected.after (later.take k)).network.contains "CHIP8" = true) ∧
        (connected.after later).mail? = some "hi")) = some true := by
    decide +kernel
  rw [built] at run
  obtain ⟨answer, registered, waits⟩ := of_decide_eq_true (Option.some.inj run)
  refine ⟨valid, named, unbarred, rfl, m, built, ?_⟩
  intro w connected later u
  have connects : Act.connectInbox w = (.ok (.ok ()), connected) := by
    rw [← answer]
  have stays : connected.StaysRegistered "CHIP8" later := by
    intro first within
    rw [List.prefix_iff_eq_take.mp within]
    exact registered _ within.length_le
  obtain ⟨id, takes⟩ := reaches [.reset] connected connects
  obtain ⟨mine, queue, found, -, copies, -⟩ := takes later stays
  have head : queue.head? = some "hi" := by
    rw [← waits]
    have found : u.network.nodes[id]? = some (.inbox queue) := found
    have mine : u.machine.inbox = some id := mine
    change _ = u.mail?
    simp only [mail?, mine, Option.bind_some, Network.takeMail, found]
    cases queue <;> rfl
  obtain ⟨waiting, filled⟩ := List.head?_eq_some_iff.mp head
  obtain ⟨delivered, -, frame, -, window⟩ := copies "hi" waiting filled
  exact ⟨connects, stays, delivered, frame, window⟩

/-- Under a name with a bar in it, or under the empty one, a machine is connected and registered, and gets no text. -/
theorem text_misses_barred_and_empty_names :
    ({ inboxName := "A|B" } : Config).validate = .ok () ∧ ({ inboxName := "" } : Config).validate = .ok () ∧
    (∃ m, Machine.build { inboxName := "A|B" } 0 = .ok m ∧
      let w : World Bench := ⟨m, {}, {}, []⟩
      let connected := (Act.connectInbox w).2
      Act.connectInbox w = (.ok (.ok ()), connected) ∧ connected.network.contains "A|B" = true ∧
        (Act.operate (.network (.call (.data ("A|B" ++ "|" ++ "x")))) connected).1 =
          .ok (.network (.outcome (.done (.error (.targetNotFound "A")))))) ∧
    (∃ m, Machine.build { inboxName := "" } 0 = .ok m ∧
      let w : World Bench := ⟨m, {}, {}, []⟩
      let connected := (Act.connectInbox w).2
      Act.connectInbox w = (.ok (.ok ()), connected) ∧ connected.network.contains "" = true ∧
        (Act.operate (.network (.call (.data ("" ++ "|" ++ "x")))) connected).1 =
          .ok (.network (.outcome (.done (.error (.codec (.emptyTarget "|x"))))))) := by
  refine ⟨rfl, rfl, ?_, ?_⟩
  · exact ⟨_, rfl, rfl, rfl, rfl⟩
  · exact ⟨_, rfl, rfl, rfl, rfl⟩

end World
end Chip8
