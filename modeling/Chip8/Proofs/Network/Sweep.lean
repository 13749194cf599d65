import Chip8.Proofs.Network.Broadcast
import Chip8.Proofs.Network.Locality
import Mathlib.Logic.Function.Iterate

/-!
The order in which a reset broadcast goes through the names. Among nodes that keep to themselves it makes no difference:
whatever the order, each name that goes is forgotten, and each node has its last call once for each of its names that
go. So the names that are left, the state of each node and the answer depend on what was registered alone.
-/

namespace Chip8

namespace Node

theorem parted_iterate_log (n : LogNode) (count : Nat) :
    parted^[count] (.log n) = .log { n with destroyed := n.destroyed || decide (0 < count) } := by
  induction count generalizing n with
  | zero => simp
  | succ count ih =>
    have told : parted (.log n) = .log { n with destroyed := true } := rfl
    rw [Function.iterate_succ_apply, told, ih]
    simp

end Node

namespace Network
variable {net later : Network} {name : String} {id : NodeId}

theorem Quiet.farewell (quiet : net.Quiet) (name : String) (id : NodeId) : (net.farewell name id).Quiet := by
  unfold Network.farewell
  split
  · next node found =>
    split
    · exact quiet
    · intro other member
      rcases List.mem_or_eq_of_mem_set member with old | rfl
      · exact quiet other old
      · exact (quiet node (List.mem_of_getElem? found)).respond .destroy
  · exact quiet

/-- What is left of a network when some names are destroyed: the other names, and each node after as many last calls as
it has lost names. -/
structure Swept (names : List String) (net later : Network) : Prop where
  bindings : later.bindings = net.bindings.filter fun b => b.1 ∉ names
  nodes : ∀ id, later.nodes[id]? = net.nodes[id]?.map Node.parted^[names.countP fun name => net.find? name = some id]

namespace Swept

theorem nil (net : Network) : Swept [] net net where
  bindings := by simp
  nodes := by simp

/-- A name is destroyed before the others. -/
theorem cons {names : List String} (fresh : name ∉ names) (bound : net.find? name = some id) (idle : id ∉ net.running)
    (h : Swept names (net.farewell name id) later) : Swept (name :: names) net later := by
  have made := find?_lt bound
  have found : net.nodes[id]? = some _ := List.getElem?_eq_getElem made
  constructor
  · rw [h.bindings, bindings_farewell, List.filter_filter]
    refine List.filter_congr fun b _ => ?_
    by_cases same : b.1 = name <;> simp [same]
  · intro k
    -- The names that are left to destroy are bound as before.
    have same : (names.countP fun other => (net.farewell name id).find? other = some k) =
        names.countP fun other => net.find? other = some k := by
      refine List.countP_congr fun other member => ?_
      have apart : other ≠ name := fun eq => fresh (eq ▸ member)
      rw [find?_farewell, if_neg apart]
    rw [h.nodes, same, List.countP_cons, bound, farewell_of_idle found idle]
    by_cases here : id = k
    · subst here
      simp [replace, List.getElem?_set_self made, found]
    · simp [replace, List.getElem?_set_ne here, here]

end Swept
end Network

namespace Session
variable {s t : Session} {name : String} {id : NodeId} {depth : Nat}

open Network (Swept)

theorem destroyAllWith_swept {names : List String} (quiet : s.network.Quiet) (distinct : names.Nodup)
    (bound : ∀ name ∈ names, ∃ id, s.network.find? name = some id ∧ id ∉ s.network.running)
    (h : destroyAllWith (enter depth) names s = some t) : Swept names s.network t.network := by
  induction names generalizing s with
  | nil =>
    obtain rfl := Option.some.inj h
    exact .nil _
  | cons name rest ih =>
    obtain ⟨r, destroyed, later⟩ := Option.bind_eq_some_iff.mp h
    obtain ⟨fresh, distinct⟩ := List.nodup_cons.mp distinct
    obtain ⟨id, found, idle⟩ := bound name List.mem_cons_self
    obtain ⟨-, network⟩ := destroyWith_of_quiet (quiet.at name) found destroyed
    refine .cons fresh found idle (network ▸ ih (network ▸ quiet.farewell name id) distinct ?_ later)
    intro other member
    have apart : other ≠ name := fun same => fresh (same ▸ member)
    rw [network, Network.find?_farewell, if_neg apart, Network.running_farewell]
    exact bound other (List.mem_cons_of_mem name member)

/-- The names of the idle nodes that want to go, in any order. -/
structure AreGoing (s : Session) (names : List String) : Prop where
  distinct : names.Nodup
  mem_iff : ∀ name, name ∈ names ↔
    ∃ id, s.network.find? name = some id ∧ id ∉ s.network.running ∧ s.network.goesOnReset id = true

theorem AreGoing.perm {names names' : List String} (h : s.AreGoing names) (h' : s.AreGoing names') :
    names'.Perm names :=
  (List.perm_ext_iff_of_nodup h'.distinct h.distinct).mpr fun name => (h'.mem_iff name).trans (h.mem_iff name).symm

theorem areGoing_goingNames (s : Session) : s.AreGoing s.goingNames := ⟨goingNames_nodup s, fun _ => mem_goingNames⟩

/-- A reset broadcast destroys the names that go, each once. -/
theorem perform_broadcastReset_swept (quiet : s.network.Quiet) :
    ∃ going, s.AreGoing going ∧ (s.perform .broadcastReset).1 = .count going.length ∧
      Swept going s.network (s.perform .broadcastReset).2.network := by
  obtain ⟨⟨count, t⟩, reset, answered⟩ := Option.map_eq_some_iff.mp (performWith_idle .broadcastReset s)
  obtain ⟨u, destroyed, heq⟩ := Option.map_eq_some_iff.mp reset
  cases heq
  let asked := s.note (.asked s.network.running .broadcastReset)
  have going := areGoing_goingNames asked
  have swept : Swept asked.goingNames s.network u.network := by
    refine destroyAllWith_swept (s := asked.noteAll _) quiet going.distinct ?_ destroyed
    intro name member
    obtain ⟨id, bound, idle, -⟩ := (going.mem_iff name).mp member
    exact ⟨id, bound, idle⟩
  rw [← answered]
  exact ⟨asked.goingNames, ⟨going.distinct, going.mem_iff⟩, rfl, swept⟩

/-! ### Orders -/

/-- The session in which the bindings are gone through in another order. -/
def reordered (s : Session) (order : List Event → List (String × NodeId) → List (String × NodeId))
    (perm : ∀ events bindings, (order events bindings).Perm bindings) : Session :=
  { s with network := { s.network with order := order, order_perm := perm } }

end Session

namespace Network.Swept
variable {net later later' : Network} {names names' : List String} {name : String} {id : NodeId}

/-- The order in which names are destroyed makes no difference. -/
theorem of_perm (perm : names.Perm names') (h : Swept names net later) : Swept names' net later where
  bindings := by
    rw [h.bindings]
    exact List.filter_congr fun b _ => by simp only [perm.mem_iff]
  nodes := fun id => by rw [h.nodes, perm.countP_eq]

theorem unique (h : Swept names net later) (h' : Swept names net later') :
    later'.bindings = later.bindings ∧ later'.nodes = later.nodes :=
  ⟨h'.bindings.trans h.bindings.symm, List.ext_getElem? fun id => (h'.nodes id).trans (h.nodes id).symm⟩

theorem find?_eq_none_iff (h : Swept names net later) (bound : net.find? name = some id) :
    later.find? name = none ↔ name ∈ names := by
  constructor
  · intro free
    by_contra kept
    have member : (name, id) ∈ later.bindings := by simp [h.bindings, find?_eq_some_iff.mp bound, kept]
    cases free.symm.trans (find?_eq_some_iff.mpr member)
  · intro gone
    by_contra still
    obtain ⟨k, found⟩ := Option.ne_none_iff_exists'.mp still
    have member := find?_eq_some_iff.mp found
    simp [h.bindings, gone] at member

/-- A log is destroyed if it was, or if it has lost a name. -/
theorem log (h : Swept names net later) {n : LogNode} (found : net.nodes[id]? = some (.log n)) :
    ∃ m, later.nodes[id]? = some (.log m) ∧ m = { n with destroyed := m.destroyed } ∧
      (m.destroyed = true ↔ n.destroyed = true ∨ ∃ name ∈ names, net.find? name = some id) := by
  have left := h.nodes id
  rw [found, Option.map_some, Node.parted_iterate_log] at left
  refine ⟨_, left, rfl, ?_⟩
  simp [List.countP_pos_iff]

end Network.Swept

namespace Session
variable {s : Session}

/-- When no handler is running, the names that go are those of all nodes that want to. -/
theorem AreGoing.perm_bindings {going : List String} (h : s.AreGoing going) (rest : s.network.running = []) :
    going.Perm ((s.network.bindings.filter fun b => s.network.goesOnReset b.2).map (·.1)) := by
  have distinct : ((s.network.bindings.filter fun b => s.network.goesOnReset b.2).map (·.1)).Nodup :=
    (List.filter_sublist.map _).nodup s.network.names_nodup
  refine (List.perm_ext_iff_of_nodup h.distinct distinct).mpr fun name => ?_
  rw [h.mem_iff]
  simp [rest, Network.find?_eq_some_iff]

/-- What a reset broadcast leaves of a network at rest. -/
theorem AreGoing.leaves {going : List String} (h : s.AreGoing going) (rest : s.network.running = []) {later : Network}
    (swept : Network.Swept going s.network later) :
    later.bindings = s.network.bindings.filter (fun b => !s.network.goesOnReset b.2) ∧
      going.length = s.network.size - later.size := by
  have left : later.bindings = s.network.bindings.filter (fun b => !s.network.goesOnReset b.2) := by
    rw [swept.bindings]
    refine List.filter_congr fun b member => ?_
    have bound : s.network.find? b.1 = some b.2 := Network.find?_eq_some_iff.mpr member
    have goes : b.1 ∈ going ↔ s.network.goesOnReset b.2 = true := by
      rw [h.mem_iff]
      simp [bound, rest]
    simp [goes]
  refine ⟨left, ?_⟩
  have parts := List.length_eq_length_filter_add (l := s.network.bindings) fun b => s.network.goesOnReset b.2
  have gone := (h.perm_bindings rest).length_eq
  rw [List.length_map] at gone
  rw [Network.size, Network.size, left]
  omega

/-- Among nodes that make no calls, a reset broadcast of a network at rest comes to the same in whatever order the names
are gone through: the same names are left, the nodes are in the same states, and the answer is the same. The names that
are left are those of the nodes that want to stay, the answer is the number of the others, and a log is destroyed by it
just if it has lost a name. -/
theorem broadcast_in_any_order (s : Session) (quiet : s.network.Quiet) (rest : s.network.running = [])
    (order : List Event → List (String × NodeId) → List (String × NodeId))
    (perm : ∀ events bindings, (order events bindings).Perm bindings) :
    let t := s.perform .broadcastReset
    let t' := (s.reordered order perm).perform .broadcastReset
    t'.1 = t.1 ∧ t'.2.network.bindings = t.2.network.bindings ∧ t'.2.network.nodes = t.2.network.nodes ∧
      t.2.network.bindings = s.network.bindings.filter (fun b => !s.network.goesOnReset b.2) ∧
      t.1 = .count (s.network.size - t.2.network.size) ∧
      ∀ id n, s.network.nodes[id]? = some (.log n) →
        ∃ m, t.2.network.nodes[id]? = some (.log m) ∧ m = { n with destroyed := m.destroyed } ∧
          (m.destroyed = true ↔
            n.destroyed = true ∨ ∃ name, s.network.find? name = some id ∧ t.2.network.find? name = none) := by
  intro t t'
  obtain ⟨going, goes, answer, swept⟩ := perform_broadcastReset_swept quiet
  obtain ⟨going', goes', answer', swept'⟩ := perform_broadcastReset_swept (s := s.reordered order perm) quiet
  have same : going'.Perm going := goes.perm ⟨goes'.distinct, goes'.mem_iff⟩
  have again := swept'.of_perm same
  obtain ⟨bindings, nodes⟩ := swept.unique ⟨again.bindings, again.nodes⟩
  obtain ⟨left, count⟩ := goes.leaves rest swept
  refine ⟨?_, bindings, nodes, left, ?_, ?_⟩
  · rw [answer, answer', same.length_eq]
  · rw [answer, count]
  · intro id n found
    obtain ⟨m, log, frame, destroyed⟩ := swept.log found
    refine ⟨m, log, frame, destroyed.trans (or_congr_right ?_)⟩
    constructor
    · intro ⟨name, member, bound⟩
      exact ⟨name, bound, (swept.find?_eq_none_iff bound).mpr member⟩
    · intro ⟨name, bound, free⟩
      exact ⟨name, (swept.find?_eq_none_iff bound).mp free, bound⟩

/-- The lamp and the recorder go, in whatever order, and the inbox and the bell stay. -/
theorem shed_in_reverse :
    shed.network.Quiet ∧ shed.network.running = [] ∧
    let t := (shed.reordered (fun _ bindings => bindings.reverse) fun _ bindings => bindings.reverse_perm).perform
      .broadcastReset
    t.1 = .count 3 ∧ t.2.network.bindings = [("post", 1), ("bell", 3)] ∧
      t.2.network.nodes =
        [.log { name := "lamp", persistent := false, destroyed := true }, .inbox ["hello"], .recorder [] [],
          .agent bell] := by
  obtain ⟨answer, bindings, nodes, -⟩ := broadcast_in_any_order shed shed_quiet rfl (fun _ bindings => bindings.reverse)
    fun _ bindings => bindings.reverse_perm
  exact ⟨shed_quiet, rfl, answer, bindings, nodes⟩

end Session
end Chip8
