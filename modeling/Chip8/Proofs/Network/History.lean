import Chip8.Proofs.Envelope
import Chip8.Proofs.Network.Arity

/-!
The history of a log and the wire. What a log writes down of a command that it takes is the command as it stands on the
wire, without its target. So behind any target it is read again as a command with this verb and these arguments, just if
the arguments can be told apart.
-/

namespace Chip8

namespace Verb

theorem separator_not_mem_name (v : Verb) : Envelope.fieldSeparator ∉ v.name.toList := by cases v <;> decide

end Verb

namespace Command
variable {c : Command}

/-- Behind a target, the fields of a command are read as they were if no argument has a separator in it. -/
theorem parse_behind_target {target : String} (some : target ≠ "") (free : Envelope.targetSeparator ∉ target.toList)
    (verb : Envelope.fieldSeparator ∉ c.verb.toList) :
    parse (target ++ "|" ++ Envelope.fieldsText c.verb c.args) = .ok ⟨target, c.verb, c.args⟩ ↔
      ∀ a ∈ c.args, Envelope.fieldSeparator ∉ a.toList := by
  rw [parse_eq_ok_iff, List.forall_mem_cons]
  exact ⟨fun h => h.2.2.2.2, fun args => ⟨rfl, some, free, verb, args⟩⟩

end Command

namespace Session
variable {s t : Session} {c : Command} {call : Call} {id : NodeId} {n : LogNode} {depth : Nat}

/-- A log that takes a command puts its fields into the history, and nothing else changes. -/
theorem performWith_log (carried : call.Carries (.command c)) (plain : ¬(Envelope.command c).IsLifecycle)
    (bound : s.network.find? c.target = some id) (found : s.network.nodes[id]? = some (.log n))
    (taken : performWith (enter depth) call s = some (.done (.ok ()), t)) :
    (∃ v, Verb.check c.verb c.args = .ok v) ∧ t.network =
      s.network.replace id (.log { n with history := n.history ++ [Envelope.fieldsText c.verb c.args] }) := by
  obtain ⟨answer, answered, dealt⟩ := performWith_dealt carried (quietAt_of_log bound found) taken
  obtain rfl : answer = .ok () := (Outcome.done.inj answered).symm
  have idle : id ∉ s.network.running := by
    intro busy
    cases (dealt.refuses plain bound busy).1
  obtain ⟨message, reply, told, ended, answer, later⟩ := dealt.tells plain bound idle found
  obtain rfl := Command.message_of_tell told
  dsimp only at later
  rw [later]
  rcases checked : Verb.check c.verb c.args with cause | v
  · rw [Node.respond, Node.respondLog_of_rejected n checked] at ended
    obtain rfl := Handling.ends.inj ended
    cases answer
  · have named : v.name = c.verb := Verb.name_of_check checked
    exact ⟨⟨v, rfl⟩, by simp [Node.respond, Node.respondLog, checked, named]⟩

/-- A command, whether it was built or read off the wire, that is sent to a log from outside or by a handler however
deep, and that the log takes, puts one line into its history and changes nothing else. Behind the target of the command
the line is the command's own text. Behind any target, it is read as a command with the same verb and arguments, just if
no argument has a tilde in it. -/
theorem history_matches_wire (depth : Nat) (s t : Session) (c : Command) (call : Call) (id : NodeId) (n : LogNode)
    (carried : call.Carries (.command c)) (plain : ¬(Envelope.command c).IsLifecycle)
    (bound : s.network.find? c.target = some id) (found : s.network.nodes[id]? = some (.log n))
    (taken : performWith (enter depth) call s = some (.done (.ok ()), t)) :
    ∃ line, t.network = s.network.replace id (.log { n with history := n.history ++ [line] }) ∧
      c.target ++ "|" ++ line = c.text ∧
      ∀ target : String, target ≠ "" → '|' ∉ target.toList →
        (Command.parse (target ++ "|" ++ line) = .ok ⟨target, c.verb, c.args⟩ ↔ ∀ a ∈ c.args, '~' ∉ a.toList) := by
  obtain ⟨⟨v, checked⟩, later⟩ := performWith_log carried plain bound found taken
  have verb : Envelope.fieldSeparator ∉ c.verb.toList := Verb.name_of_check checked ▸ v.separator_not_mem_name
  exact ⟨_, later, rfl, fun target some free => Command.parse_behind_target some free verb⟩

/-- The lamp takes a command that was read, and one that was built and has a tilde in its argument. -/
theorem lamp_history_matches_wire :
    let read : Command := ⟨"lamp", "move", ["1", "", "|3"]⟩
    let built : Command := ⟨"lamp", "call", ["a~b"]⟩
    (lampAlone.perform (.command "lamp|move~1~~|3")).1 = .done (.ok ()) ∧
      (∃ line, (lampAlone.perform (.command "lamp|move~1~~|3")).2.network =
          lampAlone.network.replace 0 (.log { name := "lamp", persistent := false, history := [line] }) ∧
        "lamp" ++ "|" ++ line = read.text ∧ Command.parse ("light" ++ "|" ++ line) = .ok { read with target := "light" }) ∧
      (lampAlone.perform (.dispatch (.command built))).1 = .done (.ok ()) ∧
      ∃ line, (lampAlone.perform (.dispatch (.command built))).2.network =
          lampAlone.network.replace 0 (.log { name := "lamp", persistent := false, history := [line] }) ∧
        "lamp" ++ "|" ++ line = built.text ∧
        Command.parse ("light" ++ "|" ++ line) ≠ .ok { built with target := "light" } := by
  intro read built
  have plain : ¬(Envelope.command read).IsLifecycle := by simp [read, Envelope.IsLifecycle, Verb.name]
  have plainBuilt : ¬(Envelope.command built).IsLifecycle := by simp [built, Envelope.IsLifecycle, Verb.name]
  obtain ⟨line, later, whole, behind⟩ := history_matches_wire lampAlone.network.idle lampAlone _ read
    (.command "lamp|move~1~~|3") 0 { name := "lamp", persistent := false } (.command rfl) plain rfl rfl
    (performWith_idle _ lampAlone)
  obtain ⟨builtLine, builtLater, builtWhole, builtBehind⟩ := history_matches_wire lampAlone.network.idle lampAlone _ built
    (.dispatch (.command built)) 0 { name := "lamp", persistent := false } (.dispatch _) plainBuilt rfl rfl
    (performWith_idle _ lampAlone)
  refine ⟨rfl, ⟨line, later, whole, ?_⟩, rfl, builtLine, builtLater, builtWhole, fun same => ?_⟩
  · exact (behind "light" (by decide) (by decide)).mpr (by decide)
  · exact absurd ((builtBehind "light" (by decide) (by decide)).mp same) (by decide)

end Session
end Chip8
