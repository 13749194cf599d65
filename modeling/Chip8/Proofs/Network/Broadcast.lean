import Chip8.Proofs.Network.Termination

/-!
What a reset broadcast does to the names. Which names go is settled when it begins; they are all gone when
it ends, whatever the last calls of their nodes ask for meanwhile. No other name goes unless a handler asks
for it in so many words: a broadcast inside the broadcast finds no node that was busy idle, and none that
stays willing to go.
-/

namespace Chip8

/-- A call that asks for a name to be forgotten. -/
def Call.Removes (name : String) : Call → Prop
  | .dispatch envelope => envelope.target = name ∧ envelope.IsLifecycle
  | .command text => ∃ c, Command.parse text = .ok c ∧ c.target = name ∧ (Envelope.command c).IsLifecycle
  | .destroy other | .unregister other => other = name
  | .data _ | .broadcastReset | .contains _ | .size => False

theorem Agent.persistent_hear (n : Agent) (h : Heard) : (n.hear h).persistent = n.persistent := by
  unfold hear
  split <;> rfl

/-- No handler makes a node change its mind about going. -/
theorem Node.goesOnReset_respond (node : Node) (message : Message) :
    (node.respond message).node.goesOnReset = node.goesOnReset := by
  cases node with
  | log n =>
    cases message with
    | execute verb args =>
      simp only [respond, respondLog]
      split <;> rfl
    | receive | destroy => rfl
  | inbox | recorder => cases message <;> rfl
  | agent n => exact congrArg not (n.persistent_hear _)

theorem Node.goesOnReset_hear (node : Node) (o : Outcome) : (node.hear o).goesOnReset = node.goesOnReset := by
  cases node with
  | log | inbox | recorder => rfl
  | agent n => exact congrArg not (n.persistent_hear _)

namespace Network
variable {net : Network} {name : String} {id : NodeId}

theorem lookup_eq_some_iff {bindings : List (String × NodeId)} (distinct : (bindings.map (·.1)).Nodup) :
    bindings.lookup name = some id ↔ (name, id) ∈ bindings := by
  induction bindings with
  | nil => simp
  | cons b rest ih =>
    obtain ⟨bound, k⟩ := b
    rw [List.map_cons, List.nodup_cons] at distinct
    by_cases same : name = bound
    · subst same
      have fresh : (name, id) ∉ rest := fun h => distinct.1 (List.mem_map.mpr ⟨_, h, rfl⟩)
      simp [fresh, eq_comm]
    · rw [List.lookup_cons, beq_eq_false_iff_ne.mpr same, List.mem_cons]
      simp [ih distinct.2, same]

theorem find?_eq_some_iff : net.find? name = some id ↔ (name, id) ∈ net.bindings :=
  lookup_eq_some_iff net.names_nodup

/-- A network with fewer bindings finds the same nodes under the names that it still has. -/
theorem find?_of_sublist {later : Network} (fewer : later.bindings.Sublist net.bindings)
    (h : later.find? name = some id) : net.find? name = some id :=
  find?_eq_some_iff.mpr (fewer.subset (find?_eq_some_iff.mp h))

theorem find?_eq_none_of_sublist {later : Network} (fewer : later.bindings.Sublist net.bindings)
    (h : net.find? name = none) : later.find? name = none := by
  cases found : later.find? name with
  | none => rfl
  | some id =>
    rw [find?_of_sublist fewer found] at h
    cases h

theorem goesOnReset_replace {node new : Node} (found : net.nodes[id]? = some node)
    (same : new.goesOnReset = node.goesOnReset) (k : NodeId) :
    (net.replace id new).goesOnReset k = net.goesOnReset k := by
  by_cases here : k = id
  · subst here
    obtain ⟨made, -⟩ := List.getElem?_eq_some_iff.mp found
    simp only [goesOnReset, replace, List.getElem?_set_self made, found, same]
  · simp only [goesOnReset, replace, List.getElem?_set_ne (Ne.symm here)]

end Network

namespace Session
variable {s t u : Session} {name : String} {id : NodeId}

theorem mem_goingNames :
    name ∈ s.goingNames ↔
      ∃ id, s.network.find? name = some id ∧ id ∉ s.network.running ∧ s.network.goesOnReset id = true := by
  have swept : ∀ b, b ∈ s.sweep ↔ b ∈ s.network.bindings := fun b => (s.network.order_perm _ _).mem_iff
  simp only [goingNames, List.mem_map, List.mem_filter, swept, Network.find?_eq_some_iff, Network.isBusy,
    Bool.and_eq_true, Bool.not_eq_true', List.contains_eq_mem, decide_eq_false_iff_not]
  constructor
  · rintro ⟨⟨bound, id⟩, ⟨h, idle, goes⟩, rfl⟩
    exact ⟨id, h, idle, goes⟩
  · rintro ⟨id, h, idle, goes⟩
    exact ⟨(name, id), ⟨h, idle, goes⟩, rfl⟩

theorem goingNames_nodup (s : Session) : s.goingNames.Nodup := by
  have distinct : (s.sweep.map (·.1)).Nodup :=
    ((s.network.order_perm _ _).map _).nodup_iff.mpr s.network.names_nodup
  exact (List.filter_sublist.map _).nodup distinct

/-! ### Names that are spared -/

/-- A node that a reset broadcast leaves alone: it is busy, or it does not want to go. -/
def Spared (s : Session) (id : NodeId) : Prop := id ∈ s.network.running ∨ s.network.goesOnReset id = false

theorem not_mem_goingNames (spared : s.Spared id) (bound : s.network.find? name = some id) :
    name ∉ s.goingNames := by
  intro h
  obtain ⟨k, found, idle, goes⟩ := mem_goingNames.mp h
  obtain rfl := Option.some.inj (bound.symm.trans found)
  rcases spared with busy | stays
  · exact idle busy
  · rw [goes] at stays
    cases stays

/-- Between two sessions, the names of spared nodes stay but for those of `gone` and those that some call
asked to be forgotten. -/
structure Spares (gone : String → Prop) (s t : Session) : Prop where
  running : t.network.running = s.network.running
  goes : ∀ id, t.network.goesOnReset id = s.network.goesOnReset id
  trace : ∃ es, t.trace = es ++ s.trace
  names : ∀ name id, s.Spared id → s.network.find? name = some id → ¬gone name →
    t.network.find? name = some id ∨
      ∃ es, t.trace = es ++ s.trace ∧ ∃ running c, .asked running c ∈ es ∧ c.Removes name

namespace Spares
variable {gone gone' : String → Prop}

theorem of_noted (es : List Event) (network : t.network = s.network) (trace : t.trace = es ++ s.trace) :
    Spares gone s t where
  running := by rw [network]
  goes := by simp [network]
  trace := ⟨es, trace⟩
  names := by
    intro name id _ bound _
    rw [network]
    exact Or.inl bound

theorem refl (s : Session) : Spares gone s s := of_noted [] rfl rfl

theorem spared (h : Spares gone s t) (hs : s.Spared id) : t.Spared id := by
  unfold Spared
  rw [h.running, h.goes]
  exact hs

theorem trans (h₁ : Spares gone s t) (h₂ : Spares gone t u) : Spares gone s u where
  running := h₂.running.trans h₁.running
  goes := fun id => (h₂.goes id).trans (h₁.goes id)
  trace := by
    obtain ⟨es, first⟩ := h₁.trace
    obtain ⟨fs, later⟩ := h₂.trace
    exact ⟨fs ++ es, by rw [later, first, List.append_assoc]⟩
  names := by
    intro name id hs bound stays
    obtain ⟨es, first⟩ := h₁.trace
    obtain ⟨fs, later⟩ := h₂.trace
    have whole : u.trace = (fs ++ es) ++ s.trace := by rw [later, first, List.append_assoc]
    rcases h₁.names name id hs bound stays with kept | ⟨es', trace, running, c, asked, removes⟩
    · rcases h₂.names name id (h₁.spared hs) kept stays with kept | ⟨fs', trace, running, c, asked, removes⟩
      · exact Or.inl kept
      · obtain rfl := List.append_cancel_right (later.symm.trans trace)
        exact Or.inr ⟨_, whole, running, c, List.mem_append_left _ asked, removes⟩
    · obtain rfl := List.append_cancel_right (first.symm.trans trace)
      exact Or.inr ⟨_, whole, running, c, List.mem_append_right _ asked, removes⟩

theorem mono (h : Spares gone s t) (more : ∀ name, gone name → gone' name) : Spares gone' s t where
  running := h.running
  goes := h.goes
  trace := h.trace
  names := fun name id hs bound stays => h.names name id hs bound fun hg => stays (more name hg)

/-- Events that are noted afterwards. -/
theorem noting (h : Spares gone s t) (es : List Event) : Spares gone s (t.noting es) :=
  h.trans (of_noted es rfl rfl)

theorem unbind (s : Session) (name : String) (id : NodeId) : Spares (· = name) s (s.unbind name id) where
  running := rfl
  goes := fun _ => rfl
  trace := ⟨[.unregistered name id], rfl⟩
  names := by
    intro other k _ bound stays
    rw [network_unbind, Network.find?_unbind, if_neg stays]
    exact Or.inl bound

end Spares

/-! ### What each call spares -/

/-- A way of running handlers under which the names of spared nodes stay. -/
def Sparing (run : Enter) : Prop :=
  ∀ id message s r, run id message s = some r → Spares (fun _ => False) s r.2

section
variable {run : Enter} (sparing : Sparing run)
include sparing

theorem destroyWith_spares {r : Except RouteError Unit × Session} (h : destroyWith run name s = some r) :
    Spares (· = name) s r.2 := by
  unfold destroyWith at h
  split at h
  · cases h
    exact .refl s
  · next id bound =>
    have unbound := Spares.unbind s name id
    split at h
    · cases h
      exact unbound.noting [.destroyed name id, .droppedBusy name id]
    · obtain ⟨r', hr, rfl⟩ := Option.map_eq_some_iff.mp h
      have handled : Spares (· = name) (s.unbind name id) r'.2 := (sparing _ _ _ _ hr).mono fun _ => False.elim
      exact (unbound.trans handled).noting [.destroyed name id]

theorem dispatchWith_spares {envelope : Envelope} {r : Except RouteError Unit × Session}
    (h : dispatchWith run envelope s = some r) :
    Spares (fun name => envelope.target = name ∧ envelope.IsLifecycle) s r.2 := by
  unfold dispatchWith at h
  obtain ⟨⟨answer, after⟩, delivered, rfl⟩ := Option.map_eq_some_iff.mp h
  refine Spares.noting ?_ (dispatchNotes envelope (s.network.find? envelope.target) answer)
  unfold deliverWith at delivered
  split at delivered
  · cases delivered
    exact .refl s
  · next id bound =>
    split at delivered
    · next unregister =>
      cases delivered
      have lifecycle : envelope.IsLifecycle := Envelope.isLifecycle_of_untold (by simp [unregister])
      exact (Spares.unbind s _ id).mono fun name same => ⟨same.symm, lifecycle⟩
    · next destroy =>
      have lifecycle : envelope.IsLifecycle := Envelope.isLifecycle_of_untold (by simp [destroy])
      exact (destroyWith_spares sparing delivered).mono fun name same => ⟨same.symm, lifecycle⟩
    · split at delivered
      · cases delivered
        exact .refl s
      · obtain ⟨r', hr, heq⟩ := Option.map_eq_some_iff.mp delivered
        cases heq
        exact (sparing _ _ _ _ hr).mono fun _ => False.elim

theorem destroyAllWith_spares {names : List String} (h : destroyAllWith run names s = some t) :
    Spares (· ∈ names) s t := by
  induction names generalizing s with
  | nil =>
    obtain rfl := Option.some.inj h
    exact .refl s
  | cons name rest ih =>
    obtain ⟨r, hr, ht⟩ := Option.bind_eq_some_iff.mp h
    have first : Spares (· ∈ name :: rest) s r.2 :=
      (destroyWith_spares sparing hr).mono fun _ same => List.mem_cons.mpr (Or.inl same)
    have later : Spares (· ∈ name :: rest) r.2 t := (ih ht).mono fun _ => List.mem_cons_of_mem name
    exact first.trans later

/-- A broadcast has no part in the names of spared nodes. -/
theorem broadcastResetWith_spares {r : Nat × Session} (h : broadcastResetWith run s = some r) :
    Spares (fun _ => False) s r.2 := by
  obtain ⟨t, ht, rfl⟩ := Option.map_eq_some_iff.mp h
  have noted : Spares (· ∈ s.goingNames) s (s.noteAll (s.busyNames.map .skippedByReset)) :=
    .of_noted (s.busyNames.map .skippedByReset).reverse rfl rfl
  have destroyed := (noted.trans (destroyAllWith_spares sparing ht)).noting [.resetBroadcast s.goingNames.length]
  refine ⟨destroyed.running, destroyed.goes, destroyed.trace, ?_⟩
  intro name id hs bound _
  exact destroyed.names name id hs bound (not_mem_goingNames hs bound)

theorem answerWith_spares {c : Call} {r : Outcome × Session} (h : answerWith run c s = some r) :
    Spares (fun name => c.Removes name) s r.2 := by
  cases c with
  | dispatch envelope =>
    obtain ⟨r', hr, rfl⟩ := Option.map_eq_some_iff.mp h
    exact dispatchWith_spares sparing hr
  | command text =>
    simp only [answerWith] at h
    split at h
    · next cause _ =>
      cases h
      exact .of_noted [.commandMalformed cause] rfl rfl
    · next c parsed =>
      obtain ⟨r', hr, rfl⟩ := Option.map_eq_some_iff.mp h
      refine (dispatchWith_spares sparing hr).mono ?_
      intro name removes
      obtain ⟨same, lifecycle⟩ := removes
      exact ⟨c, parsed, same, lifecycle⟩
  | data text =>
    simp only [answerWith] at h
    split at h
    · next cause _ =>
      cases h
      exact .of_noted [.dataMalformed cause] rfl rfl
    · obtain ⟨r', hr, rfl⟩ := Option.map_eq_some_iff.mp h
      refine (dispatchWith_spares sparing hr).mono ?_
      intro name removes
      obtain ⟨_, lifecycle⟩ := removes
      exact lifecycle
  | destroy name =>
    obtain ⟨r', hr, rfl⟩ := Option.map_eq_some_iff.mp h
    exact (destroyWith_spares sparing hr).mono fun other same => same.symm
  | unregister name =>
    simp only [answerWith] at h
    split at h
    · next id _ =>
      cases h
      exact (Spares.unbind s name id).mono fun other same => same.symm
    · cases h
      exact .refl s
  | broadcastReset =>
    obtain ⟨r', hr, rfl⟩ := Option.map_eq_some_iff.mp h
    exact (broadcastResetWith_spares sparing hr).mono fun _ => False.elim
  | contains | size =>
    cases h
    exact .refl s

/-- What a call forgets was asked for, by that call or by one that a handler made meanwhile. -/
theorem performWith_spares {c : Call} {r : Outcome × Session} (h : performWith run c s = some r) :
    Spares (fun _ => False) s r.2 := by
  have noted : Spares (fun name => c.Removes name) s (s.note (.asked s.network.running c)) :=
    .of_noted [.asked s.network.running c] rfl rfl
  have answered := answerWith_spares sparing h
  have whole := noted.trans answered
  refine ⟨whole.running, whole.goes, whole.trace, ?_⟩
  intro name id hs bound _
  by_cases removes : c.Removes name
  · obtain ⟨es, trace⟩ := answered.trace
    refine Or.inr ⟨es ++ [.asked s.network.running c], ?_, s.network.running, c, ?_, removes⟩
    · rw [trace, trace_note, List.append_assoc]
      rfl
    · exact List.mem_append_right _ (List.mem_singleton_self _)
  · exact whole.names name id hs bound removes

omit sparing in
theorem hear_spares (s : Session) (id : NodeId) (o : Outcome) : Spares (fun _ => False) s (s.hear id o) where
  running := running_hear s id o
  goes := by
    intro k
    unfold hear
    split
    · next node found => exact Network.goesOnReset_replace found (Node.goesOnReset_hear node o) k
    · rfl
  trace := ⟨[], trace_hear s id o⟩
  names := by
    intro name k _ bound _
    rw [Network.find?, bindings_hear]
    exact Or.inl bound

theorem handleWith_spares {handling : Handling (Except NodeError Unit)} {r : Except NodeError Unit × Session}
    (h : handleWith run id handling s = some r) : Spares (fun _ => False) s r.2 := by
  induction handling generalizing s with
  | ends reply =>
    obtain rfl := Option.some.inj h
    exact .refl s
  | asks c next ih =>
    obtain ⟨⟨o, t⟩, ht, hr⟩ := Option.bind_eq_some_iff.mp h
    exact ((performWith_spares sparing ht).trans (hear_spares t id o)).trans (ih o hr)

end

theorem sparing_enter (depth : Nat) : Sparing (enter depth) := by
  induction depth with
  | zero =>
    intro id message s r h
    cases h
  | succ depth ih =>
    intro id message s r h
    simp only [enter] at h
    split at h
    · cases h
    · next node found =>
      obtain ⟨⟨reply, t⟩, ht, rfl⟩ := Option.map_eq_some_iff.mp h
      have called : Spares _ _ t := handleWith_spares ih ht
      obtain ⟨es, trace⟩ := called.trace
      have begun : ∀ k, (s.begin id message (node.respond message)).network.goesOnReset k = s.network.goesOnReset k :=
        fun k => Network.goesOnReset_replace found (Node.goesOnReset_respond node message) k
      have whole : (t.finish id).trace =
          handlerNotes s.network.running id message (node.respond message).notes es ++ s.trace := by
        simp [handlerNotes, trace]
      refine ⟨by simp [called.running], fun k => (called.goes k).trans (begun k), ⟨_, whole⟩, ?_⟩
      intro name k hs bound _
      -- The handler makes its node busy besides, which spares no name less.
      have still : (s.begin id message (node.respond message)).Spared k := by
        rcases hs with busy | stays
        · exact Or.inl (List.mem_cons_of_mem id busy)
        · exact Or.inr ((begun k).trans stays)
      rcases called.names name k still bound not_false with kept | ⟨es', trace', running, c, asked, removes⟩
      · exact Or.inl kept
      · obtain rfl := List.append_cancel_right (trace.symm.trans trace')
        exact Or.inr ⟨_, whole, running, c, mem_handlerNotes.mpr (Or.inr (Or.inl asked)), removes⟩

/-! ### What goes -/

theorem destroyWith_forgets {run : Enter} (runs : Runs run) {r : Except RouteError Unit × Session}
    (h : destroyWith run name s = some r) : r.2.network.find? name = none := by
  unfold destroyWith at h
  split at h
  · next free =>
    cases h
    exact free
  · next id bound =>
    have unbound : (s.unbind name id).network.find? name = none := by
      rw [network_unbind, Network.find?_unbind, if_pos rfl]
    split at h
    · cases h
      exact unbound
    · obtain ⟨r', hr, rfl⟩ := Option.map_eq_some_iff.mp h
      obtain ⟨node, reply, es, t, handled, rfl⟩ := runs _ _ _ _ hr
      exact Network.find?_eq_none_of_sublist handled.calls.bindings unbound

end Session
end Chip8
