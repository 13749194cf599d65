import Chip8.Proofs.Network.Course

/-!
Which handlers run at a moment, read off the events alone: a handler runs from the event of its begin
to that of its end. In every course the events are orderly. A handler begins only for a node that has
none running, the innermost handler ends first, and a dispatch is refused as busy just when a handler
of its target is running at that moment.
-/

namespace Chip8

namespace Event

/-- The nodes whose handlers run after the event, the innermost first. -/
def turn : Event → List NodeId → List NodeId
  | entered (id :: _) _, running => id :: running
  | left id, running => running.erase id
  | _, running => running

/-- The nodes whose handlers run after some events, the latest event first. -/
def runningAfter (before : List NodeId) (events : List Event) : List NodeId := events.foldr turn before

/-- What an event says of the nodes whose handlers run just before it is so. -/
def Fits (running : List NodeId) : Event → Prop
  | asked now _ => now = running
  | entered now _ => ∃ id, now = id :: running ∧ id ∉ running
  | left id => ∃ rest, running = id :: rest
  | dispatched envelope bound answer => ∀ name, answer = .error (.nodeBusy name) ↔
      name = envelope.target ∧ ¬envelope.IsLifecycle ∧ ∃ id, bound = some id ∧ id ∈ running
  | _ => True

/-- Each event fits the handlers that run just before it. -/
def Orderly (before : List NodeId) : List Event → Prop
  | [] => True
  | e :: earlier => e.Fits (runningAfter before earlier) ∧ Orderly before earlier

variable {before running : List NodeId} {es fs : List Event} {e : Event}

@[simp] theorem runningAfter_nil : runningAfter before [] = before := rfl

@[simp] theorem runningAfter_cons : runningAfter before (e :: es) = e.turn (runningAfter before es) := rfl

@[simp] theorem runningAfter_append :
    runningAfter before (fs ++ es) = runningAfter (runningAfter before es) fs := List.foldr_append

@[simp] theorem orderly_append :
    Orderly before (fs ++ es) ↔ Orderly (runningAfter before es) fs ∧ Orderly before es := by
  induction fs with
  | nil => simp [Orderly]
  | cons e fs ih => simp [Orderly, ih, and_assoc]

theorem Orderly.suffix (h : Orderly before es) (hs : fs <:+ es) : Orderly before fs := by
  obtain ⟨later, rfl⟩ := hs
  exact (orderly_append.mp h).2

theorem Orderly.fits (h : Orderly before es) {earlier : List Event} (hs : e :: earlier <:+ es) :
    e.Fits (runningAfter before earlier) := (h.suffix hs).1

/-- No node runs two handlers at once. -/
theorem Orderly.nodup (h : Orderly before es) (hn : before.Nodup) : (runningAfter before es).Nodup := by
  induction es with
  | nil => exact hn
  | cons e es ih =>
    have hn' := ih h.2
    cases e with
    | entered now message =>
      obtain ⟨id, hnow, fresh⟩ := h.1
      rw [runningAfter_cons, hnow]
      exact List.nodup_cons.mpr ⟨fresh, hn'⟩
    | left id => exact hn'.erase id
    | _ => exact hn'

/-- A handler that runs ran before the events or began in one of them. -/
theorem mem_runningAfter {id : NodeId} (h : id ∈ runningAfter before es) :
    id ∈ before ∨ ∃ rest message, .entered (id :: rest) message ∈ es := by
  induction es with
  | nil => exact Or.inl h
  | cons e es ih =>
    have weaken : id ∈ runningAfter before es →
        id ∈ before ∨ ∃ rest message, .entered (id :: rest) message ∈ e :: es := fun h' =>
      (ih h').imp_right fun ⟨rest, message, hm⟩ => ⟨rest, message, List.mem_cons_of_mem _ hm⟩
    cases e with
    | entered now message =>
      cases now with
      | nil => exact weaken h
      | cons first rest =>
        rcases List.mem_cons.mp h with rfl | h
        · exact Or.inr ⟨rest, message, List.mem_cons_self⟩
        · exact weaken h
    | left other => exact weaken (List.mem_of_mem_erase h)
    | _ => exact weaken h

/-- Events that no handler begins or ends with, and that tell nothing about handlers. -/
theorem orderly_of_plain (h : ∀ e ∈ es, e.source = .node ∨ e.isRemark = true) :
    runningAfter running es = running ∧ Orderly running es := by
  induction es with
  | nil => exact ⟨rfl, trivial⟩
  | cons e es ih =>
    obtain ⟨hr, ho⟩ := ih fun e he => h e (List.mem_cons_of_mem _ he)
    have plain := h e List.mem_cons_self
    cases e <;> simp [source, isRemark] at plain <;> exact ⟨hr, trivial, ho⟩

end Event

/-- What a node notes itself are its own events. -/
theorem Node.source_of_mem_notes {node : Node} {message : Message} {e : Event}
    (h : e ∈ (node.respond message).notes) : e.source = .node := by
  cases node with
  | log n =>
    cases message with
    | execute verb args =>
      simp only [respond, respondLog] at h
      split at h
      · cases h
      · obtain rfl := List.mem_singleton.mp h
        rfl
    | receive payload =>
      obtain rfl := List.mem_singleton.mp h
      rfl
    | destroy =>
      obtain rfl := List.mem_singleton.mp h
      rfl
  | inbox | recorder => cases message <;> cases h
  | agent => cases h

namespace Session

open Event

theorem handlerNotes_orderly {running : List NodeId} {id : NodeId} {message : Message}
    {own calls : List Event} (idle : id ∉ running) (hown : ∀ e ∈ own, e.source = .node)
    (h : runningAfter (id :: running) calls = id :: running ∧ Orderly (id :: running) calls) :
    runningAfter running (handlerNotes running id message own calls) = running ∧
      Orderly running (handlerNotes running id message own calls) := by
  have plain : ∀ e ∈ own.reverse, e.source = .node ∨ e.isRemark = true := fun e he =>
    Or.inl (hown e (List.mem_reverse.mp he))
  have hr : runningAfter (id :: running) own.reverse = id :: running := (orderly_of_plain plain).1
  have ho : Orderly (id :: running) own.reverse := (orderly_of_plain plain).2
  simp [handlerNotes, turn, hr, h.1, Orderly, Fits, idle, ho, h.2]

theorem handlerNotes_source {running : List NodeId} {id : NodeId} {message : Message} {own calls : List Event}
    (hown : ∀ e ∈ own, e.source = .node) (h : ∀ e ∈ calls, e.source = .network ∨ e.source = .node) :
    ∀ e ∈ handlerNotes running id message own calls, e.source = .network ∨ e.source = .node := by
  intro e he
  rcases mem_handlerNotes.mp he with rfl | he | he | rfl
  · exact Or.inl rfl
  · exact h e he
  · exact Or.inr (hown e he)
  · exact Or.inl rfl

theorem dispatchNotes_orderly {running : List NodeId} {envelope : Envelope} {bound : Option NodeId}
    {answer : Except RouteError Unit} (h : (Event.dispatched envelope bound answer).Fits running) :
    runningAfter running (dispatchNotes envelope bound answer) = running ∧
      Orderly running (dispatchNotes envelope bound answer) := by
  cases answer with
  | ok => exact ⟨rfl, h, trivial⟩
  | error cause => exact ⟨rfl, trivial, h, trivial⟩

theorem not_mem_running {s : Session} {id : NodeId} (idle : s.network.isBusy id = false) :
    id ∉ s.network.running := by simpa [Network.isBusy] using idle

theorem mem_running {s : Session} {id : NodeId} (busy : s.network.isBusy id = true) :
    id ∈ s.network.running := by simpa [Network.isBusy] using busy

/-- The events of a course are orderly, and the handlers that run after them are those before. -/
theorem Course.orderly {s t : Session} {es : List Event} (h : Course s es t) :
    runningAfter s.network.running es = s.network.running ∧ Orderly s.network.running es := by
  induction h with
  | refl | hear => exact ⟨rfl, trivial⟩
  | trans h₁ _ ih₁ ih₂ =>
    rw [h₁.running] at ih₂
    exact ⟨by rw [runningAfter_append, ih₁.1, ih₂.1], orderly_append.mpr ⟨by rw [ih₁.1]; exact ih₂.2, ih₁.2⟩⟩
  | ask => exact ⟨rfl, rfl, trivial⟩
  | remark h => exact orderly_of_plain fun e he => Or.inr (List.mem_singleton.mp he ▸ h)
  | unbind => exact ⟨rfl, trivial, trivial⟩
  | drop => exact ⟨rfl, trivial, trivial, trivial, trivial⟩
  | destroy _ idle _ _ _ ih =>
    obtain ⟨hr, ho⟩ := handlerNotes_orderly (not_mem_running idle) (fun _ => Node.source_of_mem_notes) ih
    exact ⟨by simpa [turn] using hr, by simpa [Orderly, Fits, turn] using ho⟩
  | lose => exact dispatchNotes_orderly fun name => by simp
  | @refuse s envelope id message bound told busy =>
    have plain : ¬envelope.IsLifecycle := Envelope.not_isLifecycle_of_tell told
    refine dispatchNotes_orderly fun name => ?_
    simp [plain, mem_running busy, eq_comm]
  | @lifecycle s _ envelope id _ _ untold _ ih =>
    have lifecycle : envelope.IsLifecycle := Envelope.isLifecycle_of_untold untold
    have answered : (Event.dispatched envelope (some id) (.ok ())).Fits s.network.running := fun name => by
      simp [lifecycle]
    obtain ⟨hr, ho⟩ := dispatchNotes_orderly answered
    exact ⟨by rw [runningAfter_append, ih.1, hr], orderly_append.mpr ⟨by rw [ih.1]; exact ho, ih.2⟩⟩
  | @tell s t envelope id message node reply es bound told idle found _ _ _ ih =>
    have free := not_mem_running idle
    have own : ∀ e ∈ (node.respond message).notes, e.source = .node := fun _ => Node.source_of_mem_notes
    obtain ⟨hr, ho⟩ := handlerNotes_orderly free own ih
    have answered : (Event.dispatched envelope (some id)
        (reply.mapError (.node envelope.target))).Fits s.network.running := by
      intro name
      cases reply <;> simp [free]
    obtain ⟨hr', ho'⟩ := dispatchNotes_orderly answered
    exact ⟨by rw [runningAfter_append, hr, hr'], orderly_append.mpr ⟨by rw [hr]; exact ho', ho⟩⟩

/-- All that is noted in a course comes from the network or from the nodes. -/
theorem Course.source {s t : Session} {es : List Event} (h : Course s es t) :
    ∀ e ∈ es, e.source = .network ∨ e.source = .node := by
  have dispatched : ∀ {envelope bound answer}, ∀ e ∈ dispatchNotes envelope bound answer, e.source = .network := by
    intro envelope bound answer e he
    cases answer <;> simp only [dispatchNotes, List.mem_cons, List.not_mem_nil, or_false] at he
    · rcases he with rfl | rfl <;> rfl
    · exact he ▸ rfl
  induction h with
  | refl | hear => exact fun _ he => nomatch he
  | ask | unbind | drop => simp [Event.source]
  | trans _ _ ih₁ ih₂ => exact fun e he => (List.mem_append.mp he).elim (ih₂ e) (ih₁ e)
  | remark h =>
    intro e he
    obtain rfl := List.mem_singleton.mp he
    cases e <;> cases h <;> exact Or.inl rfl
  | destroy _ _ _ _ _ ih =>
    intro e he
    rcases List.mem_cons.mp he with rfl | he
    · exact Or.inl rfl
    · rcases List.mem_append.mp he with he | he
      · exact handlerNotes_source (fun _ => Node.source_of_mem_notes) ih e he
      · obtain rfl := List.mem_singleton.mp he
        exact Or.inl rfl
  | lose | refuse => exact fun e he => Or.inl (dispatched e he)
  | lifecycle _ _ _ ih => exact fun e he => (List.mem_append.mp he).elim (fun he => Or.inl (dispatched e he)) (ih e)
  | tell _ _ _ _ _ _ _ ih =>
    intro e he
    rcases List.mem_append.mp he with he | he
    · exact Or.inl (dispatched e he)
    · exact handlerNotes_source (fun _ => Node.source_of_mem_notes) ih e he

/-- A handler that begins in a course is one of a node with a name. -/
theorem Course.entered_bound {s t : Session} {es : List Event} (h : Course s es t) :
    ∀ {id rest message}, .entered (id :: rest) message ∈ es → id ∈ s.network.bindings.map (·.2) := by
  have named : ∀ {net : Network} {name id}, net.find? name = some id → id ∈ net.bindings.map (·.2) := by
    intro net name id bound
    obtain ⟨l₁, l₂, heq, -⟩ := List.lookup_eq_some_iff.mp bound
    rw [heq]
    simp
  have own : ∀ {node : Node} {m e}, e ∈ (node.respond m).notes → ∀ now m', e ≠ .entered now m' := by
    rintro node m e he now m' rfl
    cases Node.source_of_mem_notes he
  have unnoted : ∀ {envelope bound answer now m}, Event.entered now m ∉ dispatchNotes envelope bound answer := by
    intro envelope bound answer now m
    cases answer <;> simp [dispatchNotes]
  intro id rest message he
  induction h with
  | refl | hear | ask | unbind | drop => simp at he
  | trans h₁ _ ih₁ ih₂ =>
    rcases List.mem_append.mp he with he | he
    · exact (h₁.bindings.map _).subset (ih₂ he)
    · exact ih₁ he
  | remark h =>
    obtain rfl := List.mem_singleton.mp he
    cases h
  | @destroy s t name k node es bound _ _ _ _ ih =>
    have noted : Event.entered (id :: rest) message ∈
        handlerNotes s.network.running k .destroy (node.respond .destroy).notes es := by simpa using he
    rcases mem_handlerNotes.mp noted with he | he | he | he
    · cases he
    · obtain ⟨b, hb, rfl⟩ := List.mem_map.mp (ih he)
      exact List.mem_map.mpr ⟨b, (List.mem_filter.mp hb).1, rfl⟩
    · exact absurd rfl (own he _ _)
    · cases he
      exact named bound
  | lose | refuse => exact absurd he unnoted
  | lifecycle _ _ _ ih =>
    rcases List.mem_append.mp he with he | he
    · exact absurd he unnoted
    · exact ih he
  | tell bound _ _ _ _ _ _ ih =>
    rcases List.mem_append.mp he with he | he
    · exact absurd he unnoted
    · rcases mem_handlerNotes.mp he with he | he | he | he
      · cases he
      · exact ih he
      · exact absurd rfl (own he _ _)
      · cases he
        exact named bound

end Session
end Chip8
