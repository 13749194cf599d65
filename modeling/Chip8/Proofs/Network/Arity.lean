import Chip8.Proofs.Network.Quiet

/-!
The number of arguments of a command for a log. A command that the log is told is checked: if its verb is not known, or
has another number of arguments, it is refused for that cause and nothing changes. The two verbs of the lifecycle are
not told to the log, and their arguments are not counted.
-/

namespace Chip8

namespace Verb

theorem check_name (v : Verb) (args : List String) :
    check v.name args = if args.length = v.arity then .ok v else .error (.badArguments v.name v.arity args.length) := by
  rw [check, parse, ofName?_name]

end Verb

namespace Command
variable {c : Command}

/-- The check of verbs passes a command of the lifecycle just if it has no arguments. -/
theorem check_of_lifecycle (lifecycle : (Envelope.command c).IsLifecycle) :
    (∃ cause, Verb.check c.verb c.args = .error cause) ↔ c.args ≠ [] := by
  have counted : ∀ v : Verb, v.arity = 0 → c.verb = v.name →
      ((∃ cause, Verb.check c.verb c.args = .error cause) ↔ c.args ≠ []) := by
    intro v none named
    by_cases empty : c.args = [] <;> simp [named, Verb.check_name, none, empty]
  rcases lifecycle with unregister | destroy
  · exact counted .unregister rfl unregister
  · exact counted .destroy rfl destroy

theorem message_of_tell {message : Message} (told : (Envelope.command c).delivery = .tell message) :
    message = .execute c.verb c.args := by
  simp only [Envelope.delivery] at told
  split at told
  · cases told
  · cases told
  · exact (Delivery.tell.inj told).symm

end Command

namespace Session

/-- A command that the check of verbs refuses is refused for the same cause, and changes nothing. -/
def Checks (s : Session) (c : Command) : Prop :=
  ∀ cause, Verb.check c.verb c.args = .error cause →
    (s.perform (.dispatch (.command c))).1 = .done (.error (.node c.target cause)) ∧
      (s.perform (.dispatch (.command c))).2.network = s.network

theorem quietAt_of_log {s : Session} {name : String} {id : NodeId} {n : LogNode}
    (bound : s.network.find? name = some id) (found : s.network.nodes[id]? = some (.log n)) :
    s.network.QuietAt name := by
  intro k node bound' found'
  obtain rfl := Option.some.inj (bound.symm.trans bound')
  obtain rfl := Option.some.inj (found.symm.trans found')
  exact Node.keepsToItself_log n

/-- Whatever its verb and its arguments, a command for a log that is idle is refused as the check of verbs refuses it,
and then changes nothing, with one exception: a command of the lifecycle is carried out also if it has arguments, and
its name is forgotten. Any other command that passes the check is put into the history of the log. A log that is busy
takes no command at all but those of the lifecycle. -/
theorem commands_checked_unless_lifecycle (s : Session) (c : Command) (id : NodeId) (n : LogNode)
    (bound : s.network.find? c.target = some id) (found : s.network.nodes[id]? = some (.log n)) :
    (id ∉ s.network.running → (s.Checks c ↔ ((Envelope.command c).IsLifecycle → c.args = []))) ∧
    ((Envelope.command c).IsLifecycle → (s.perform (.dispatch (.command c))).1 = .done (.ok ()) ∧
      (s.perform (.dispatch (.command c))).2.network.find? c.target = none) ∧
    (¬(Envelope.command c).IsLifecycle → id ∉ s.network.running → ∀ v, Verb.check c.verb c.args = .ok v →
      (s.perform (.dispatch (.command c))).1 = .done (.ok ()) ∧
      (s.perform (.dispatch (.command c))).2.network =
        s.network.replace id (.log { n with history := n.history ++ [Envelope.fieldsText v.name c.args] })) ∧
    (¬(Envelope.command c).IsLifecycle → id ∈ s.network.running →
      (s.perform (.dispatch (.command c))).1 = .done (.error (.nodeBusy c.target)) ∧
      (s.perform (.dispatch (.command c))).2.network = s.network) := by
  obtain ⟨answer, answered, dealt⟩ := perform_dispatch_dealt (.command c) (quietAt_of_log bound found)
  unfold Checks
  rw [answered]
  generalize (s.perform (.dispatch (.command c))).2.network = later at dealt ⊢
  by_cases lifecycle : (Envelope.command c).IsLifecycle
  · obtain ⟨rfl, gone⟩ := dealt.forgets lifecycle bound
    refine ⟨fun _ => ?_, fun _ => ⟨rfl, gone⟩, fun plain => absurd lifecycle plain, fun plain => absurd lifecycle plain⟩
    -- The command succeeds, so it is as the check has it just if the check passes it.
    have checked := Command.check_of_lifecycle lifecycle
    constructor
    · intro refused _
      by_contra counted
      obtain ⟨cause, wrong⟩ := checked.mpr counted
      cases (refused cause wrong).1
    · intro empty cause wrong
      exact absurd (empty lifecycle) (checked.mp ⟨cause, wrong⟩)
  · refine ⟨fun idle => ?_, fun h => absurd h lifecycle, fun _ idle v accepted => ?_, fun _ busy => ?_⟩
    · obtain ⟨message, reply, told, ended, rfl, rfl⟩ := dealt.tells lifecycle bound idle found
      obtain rfl := Command.message_of_tell told
      refine iff_of_true ?_ fun h => absurd h lifecycle
      intro cause wrong
      rw [Node.respond, Node.respondLog_of_rejected n wrong] at ended ⊢
      obtain rfl := Handling.ends.inj ended
      rw [Network.replace_self found]
      exact ⟨rfl, rfl⟩
    · obtain ⟨message, reply, told, ended, rfl, rfl⟩ := dealt.tells lifecycle bound idle found
      obtain rfl := Command.message_of_tell told
      rw [Node.respond, Node.respondLog_of_accepted n accepted] at ended ⊢
      obtain rfl := Handling.ends.inj ended
      exact ⟨rfl, rfl⟩
    · obtain ⟨rfl, rfl⟩ := dealt.refuses lifecycle bound busy
      exact ⟨rfl, rfl⟩

/-- A lamp and no other node. -/
def lampAlone : Session where
  network.nodes := [.log { name := "lamp", persistent := false }]
  network.bindings := [("lamp", 0)]

/-- A command with an argument too many is refused. -/
theorem lamp_refuses_surplus_argument :
    let c : Command := ⟨"lamp", "addMaterial", ["red"]⟩
    lampAlone.network.find? c.target = some 0 ∧ (0 : NodeId) ∉ lampAlone.network.running ∧
      (lampAlone.perform (.dispatch (.command c))).1 = .done (.error (.node "lamp" (.badArguments "addMaterial" 0 1))) ∧
      (lampAlone.perform (.dispatch (.command c))).2.network = lampAlone.network := by
  intro c
  obtain ⟨checks, -⟩ := commands_checked_unless_lifecycle lampAlone c 0 { name := "lamp", persistent := false } rfl rfl
  have plain : ¬(Envelope.command c).IsLifecycle := by simp [c, Envelope.IsLifecycle, Verb.name]
  have idle : (0 : NodeId) ∉ lampAlone.network.running := List.not_mem_nil
  exact ⟨rfl, idle, (checks idle).mpr (fun lifecycle => absurd lifecycle plain) _ rfl⟩

/-- The two verbs of the lifecycle do not take an argument, and with one they are carried out all the same. -/
theorem lamp_destroyed_with_surplus_argument :
    let destroy : Command := ⟨"lamp", "destroy", ["red"]⟩
    let unregister : Command := ⟨"lamp", "unregister", ["red"]⟩
    Verb.check destroy.verb destroy.args = .error (.badArguments "destroy" 0 1) ∧
      (lampAlone.perform (.dispatch (.command destroy))).1 = .done (.ok ()) ∧
      (lampAlone.perform (.dispatch (.command destroy))).2.network.bindings = [] ∧
      (lampAlone.perform (.dispatch (.command destroy))).2.network.nodes =
        [.log { name := "lamp", persistent := false, destroyed := true }] ∧
      ¬lampAlone.Checks destroy ∧
      Verb.check unregister.verb unregister.args = .error (.badArguments "unregister" 0 1) ∧
      (lampAlone.perform (.dispatch (.command unregister))).1 = .done (.ok ()) ∧
      (lampAlone.perform (.dispatch (.command unregister))).2.network.bindings = [] ∧
      ¬lampAlone.Checks unregister := by
  refine ⟨rfl, rfl, rfl, rfl, ?_, rfl, rfl, rfl, ?_⟩
  · intro checks
    cases (checks _ rfl).1
  · intro checks
    cases (checks _ rfl).1

end Session
end Chip8
