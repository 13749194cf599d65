import Chip8.Proofs.Network.Changes

/-!
When a message is refused because its target is busy: just when a handler of the target is running.
Since no call leaves a handler running behind it, a call from outside all handlers is never refused so.
-/

namespace Chip8

namespace Session

section
variable {run : Enter} {s t : Session} {name : String}

theorem destroyWith_not_busy {bound : String} {answer : Except RouteError Unit}
    (h : destroyWith run bound s = some (answer, t)) : answer ≠ .error (.nodeBusy name) := by
  unfold destroyWith at h
  split at h
  · cases h
    simp
  · split at h
    · cases h
      simp
    · obtain ⟨r, -, heq⟩ := Option.map_eq_some_iff.mp h
      cases heq
      simp

theorem deliverWith_busy_iff {envelope : Envelope} {answer : Except RouteError Unit}
    (h : deliverWith run envelope s = some (answer, t)) :
    answer = .error (.nodeBusy name) ↔
      name = envelope.target ∧ ¬envelope.IsLifecycle ∧
        ∃ id, s.network.find? envelope.target = some id ∧ id ∈ s.network.running := by
  unfold deliverWith at h
  split at h
  · next free =>
    cases h
    simp [free]
  · next id bound =>
    split at h
    · next unregister =>
      cases h
      have lifecycle : envelope.IsLifecycle := Envelope.isLifecycle_of_untold (by simp [unregister])
      simp [lifecycle]
    · next destroy =>
      have lifecycle : envelope.IsLifecycle := Envelope.isLifecycle_of_untold (by simp [destroy])
      simpa [lifecycle] using destroyWith_not_busy h
    · next message told =>
      have plain : ¬envelope.IsLifecycle := Envelope.not_isLifecycle_of_tell told
      split at h
      · next busy =>
        cases h
        simp [plain, bound, mem_running busy, eq_comm]
      · next idle =>
        obtain ⟨⟨reply, u⟩, -, heq⟩ := Option.map_eq_some_iff.mp h
        cases heq
        have free : id ∉ s.network.running := not_mem_running (by simpa using idle)
        cases reply <;> simp [bound, free]

theorem dispatchWith_busy_iff {envelope : Envelope} {answer : Except RouteError Unit}
    (h : dispatchWith run envelope s = some (answer, t)) :
    answer = .error (.nodeBusy name) ↔
      name = envelope.target ∧ ¬envelope.IsLifecycle ∧
        ∃ id, s.network.find? envelope.target = some id ∧ id ∈ s.network.running := by
  obtain ⟨⟨reply, u⟩, delivered, heq⟩ := Option.map_eq_some_iff.mp h
  cases heq
  exact deliverWith_busy_iff delivered

/-- A call that is refused as busy met a node with a handler running. -/
theorem answerWith_busy {c : Call} (h : answerWith run c s = some (.done (.error (.nodeBusy name)), t)) :
    ∃ id ∈ s.network.running, s.network.find? name = some id := by
  cases answered_of_answerWith h with
  | dispatched hd =>
    obtain ⟨rfl, -, id, bound, running⟩ := (dispatchWith_busy_iff hd).mp rfl
    exact ⟨id, running, bound⟩
  | destroyed hd => exact absurd rfl (destroyWith_not_busy hd)

end

theorem performWith_dispatch_busy_iff {run : Enter} {s t : Session} {envelope : Envelope} {o : Outcome}
    (h : performWith run (.dispatch envelope) s = some (o, t)) (name : String) :
    o = .done (.error (.nodeBusy name)) ↔
      name = envelope.target ∧ ¬envelope.IsLifecycle ∧
        ∃ id, s.network.find? envelope.target = some id ∧ id ∈ s.network.running := by
  obtain ⟨⟨answer, u⟩, hd, heq⟩ := Option.map_eq_some_iff.mp h
  cases heq
  rw [Outcome.done.injEq, dispatchWith_busy_iff hd, network_note]

theorem perform_not_busy {s : Session} (rest : s.network.running = []) (c : Call) (name : String) :
    (s.perform c).1 ≠ .done (.error (.nodeBusy name)) := by
  intro refused
  have h := performWith_idle c s
  rw [show s.perform c = ((s.perform c).1, (s.perform c).2) from rfl, refused] at h
  obtain ⟨id, running, -⟩ := answerWith_busy h
  rw [network_note, rest] at running
  cases running

/-- A dispatch is refused as busy just when its name is bound to a node with a handler running and its
verb is not one of the lifecycle; so it is with each dispatch, however deep, that is noted while changes
are made of a network at rest. No call leaves a handler running that did not run before, or ends one that
did; so no call from outside all handlers is refused as busy. -/
theorem busy_iff_running (s : Session) (rest : s.network.running = []) (changes : List Change) :
    (∀ (t : Session) depth envelope o u, performWith (enter depth) (.dispatch envelope) t = some (o, u) →
      ∀ name, o = .done (.error (.nodeBusy name)) ↔
        name = envelope.target ∧ ¬envelope.IsLifecycle ∧
          ∃ id, t.network.find? envelope.target = some id ∧ id ∈ t.network.running) ∧
    (∃ es, (s.after changes).trace = es ++ s.trace ∧ Event.Orderly [] es ∧
      ∀ envelope bound answer earlier, .dispatched envelope bound answer :: earlier <:+ es →
        ∀ name, answer = .error (.nodeBusy name) ↔
          name = envelope.target ∧ ¬envelope.IsLifecycle ∧
            ∃ id, bound = some id ∧ id ∈ Event.runningAfter [] earlier) ∧
    (∀ (t : Session) depth c o u, performWith (enter depth) c t = some (o, u) →
      u.network.running = t.network.running) ∧
    (s.after changes).network.running = [] ∧
    ∀ c name, ((s.after changes).perform c).1 ≠ .done (.error (.nodeBusy name)) := by
  obtain ⟨running, es, trace, -, orderly⟩ := after_orderly s changes
  rw [rest] at running orderly
  refine ⟨?_, ⟨es, trace, orderly, ?_⟩, ?_, running, perform_not_busy running⟩
  · intro t depth envelope o u h
    exact performWith_dispatch_busy_iff h
  · intro envelope bound answer earlier moment
    exact orderly.fits moment
  · intro t depth c o u h
    obtain ⟨es, course⟩ := course_of_performWith h
    exact course.running

/-- The agent is refused when it speaks to itself, and heard again afterwards. -/
theorem echo_busy_while_running :
    echo.network.running = [] ∧
    (∃ es, (echo.after [.call (.dispatch (.data ⟨"voice", "hello"⟩))]).trace = es ++ echo.trace ∧
      ∃ later earlier, es = later ++
        .dispatched (.data ⟨"echo", "hello"⟩) (some 1) (.error (.nodeBusy "echo")) :: earlier) ∧
    ∀ c name, ((echo.after [.call (.dispatch (.data ⟨"voice", "hello"⟩))]).perform c).1 ≠
      .done (.error (.nodeBusy name)) :=
  ⟨rfl, ⟨_, (List.append_nil _).symm, [_, _, _], _, rfl⟩, (busy_iff_running echo rfl _).2.2.2.2⟩

end Session
end Chip8
