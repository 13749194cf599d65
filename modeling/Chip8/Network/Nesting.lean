import Chip8.Network.Call

/-!
Handlers nest no deeper than there are idle nodes: a handler is only run for a node that has none
running, and its node stays busy until it ends. So a depth of as many as there are idle nodes always
suffices, and calls of the network need no limit to be given.
-/

namespace Chip8

namespace Network

/-- What no call changes: the number of nodes, and which of them are running. -/
structure SameNodes (a b : Network) : Prop where
  length : b.nodes.length = a.nodes.length
  running : b.running = a.running

namespace SameNodes

variable {a b c : Network}

theorem refl (a : Network) : SameNodes a a := ⟨rfl, rfl⟩

theorem trans (h₁ : SameNodes a b) (h₂ : SameNodes b c) : SameNodes a c :=
  ⟨h₂.length.trans h₁.length, h₂.running.trans h₁.running⟩

theorem idle (h : SameNodes a b) : b.idle = a.idle := by
  simp only [Network.idle, Network.isBusy, h.length, h.running]

theorem isBusy (h : SameNodes a b) (id : NodeId) : b.isBusy id = a.isBusy id := by
  simp only [Network.isBusy, h.running]

end SameNodes

theorem sameNodes_replace (net : Network) (id : NodeId) (node : Node) :
    SameNodes net (net.replace id node) := ⟨by simp [replace], rfl⟩

theorem sameNodes_unbind (net : Network) (name : String) : SameNodes net (net.unbind name) := ⟨rfl, rfl⟩

/-- Counting with one member of a range taken out. -/
theorem length_filter_lt {p q : Nat → Bool} {l : List Nat} {id : Nat} (hid : id ∈ l)
    (hp : p id = true) (hq : q id = false) (hqp : ∀ x, q x = true → p x = true) :
    (l.filter q).length < (l.filter p).length := by
  induction l with
  | nil => simp at hid
  | cons x l ih =>
    have hle : (l.filter q).length ≤ (l.filter p).length := by
      rw [← List.countP_eq_length_filter, ← List.countP_eq_length_filter]
      exact List.countP_mono_left fun y _ => hqp y
    rcases List.mem_cons.mp hid with rfl | hid
    · simp only [List.filter_cons, hp, hq, if_true, List.length_cons]
      exact Nat.lt_succ_of_le hle
    · have hlt := ih hid
      cases hqx : q x with
      | true => simp only [List.filter_cons, hqx, hqp x hqx, if_true, List.length_cons]; omega
      | false =>
        cases hpx : p x with
        | true => simp only [List.filter_cons, hqx, hpx, if_true, List.length_cons]; simpa using by omega
        | false => simpa [List.filter_cons, hqx, hpx] using hlt

end Network

namespace Session

open Network (SameNodes)

/-- Telling a node an answer changes neither the nodes' number nor which are running. -/
theorem sameNodes_hear (s : Session) (id : NodeId) (o : Outcome) :
    SameNodes s.network (s.hear id o).network := by
  unfold hear
  split
  · exact Network.sameNodes_replace ..
  · exact SameNodes.refl _

/-- A node that begins to handle a message is idle no longer. -/
theorem idle_begin_lt {s : Session} {id : NodeId} (message : Message) (response : Node.Response)
    (made : id < s.network.nodes.length) (free : s.network.isBusy id = false) :
    (s.begin id message response).network.idle < s.network.idle := by
  simp only [Network.idle, begin, noteAll, note, Network.replace, List.length_set]
  refine Network.length_filter_lt (List.mem_range.mpr made) (by simp [free])
    (by simp [Network.isBusy]) ?_
  intro x hx
  simp only [Network.isBusy, List.contains_cons, Bool.not_or, Bool.and_eq_true] at hx ⊢
  exact hx.2

/-- A way of running handlers that manages as many nested ones as `depth`, and leaves the nodes'
number and the running ones as they were. -/
def Manages (depth : Nat) (run : Enter) : Prop :=
  ∀ id message s, s.network.idle ≤ depth → id < s.network.nodes.length →
    s.network.isBusy id = false →
    ∃ r, run id message s = some r ∧ SameNodes s.network r.2.network

section

variable {depth : Nat} {run : Enter} (manages : Manages depth run)
include manages

theorem destroyWith_some (name : String) {s : Session} (fits : s.network.idle ≤ depth) :
    ∃ r, destroyWith run name s = some r ∧ SameNodes s.network r.2.network := by
  unfold destroyWith
  split
  · exact ⟨_, rfl, SameNodes.refl _⟩
  · next id bound =>
    have unbound : SameNodes s.network (s.unbind name id).network := Network.sameNodes_unbind ..
    split
    · exact ⟨_, rfl, unbound⟩
    · next free =>
      obtain ⟨r, hr, same⟩ := manages id .destroy (s.unbind name id) (unbound.idle ▸ fits)
        (by rw [unbound.length]; exact Network.find?_lt bound) (by simpa [unbound.isBusy] using free)
      exact ⟨_, by rw [hr]; rfl, unbound.trans same⟩

theorem deliverWith_some (envelope : Envelope) {s : Session} (fits : s.network.idle ≤ depth) :
    ∃ r, deliverWith run envelope s = some r ∧ SameNodes s.network r.2.network := by
  unfold deliverWith
  split
  · exact ⟨_, rfl, SameNodes.refl _⟩
  · next id bound =>
    split
    · exact ⟨_, rfl, Network.sameNodes_unbind ..⟩
    · exact destroyWith_some manages _ fits
    · next message _ =>
      split
      · exact ⟨_, rfl, SameNodes.refl _⟩
      · next free =>
        obtain ⟨r, hr, same⟩ := manages id message s fits (Network.find?_lt bound) (by simpa using free)
        exact ⟨_, by rw [hr]; rfl, same⟩

theorem dispatchWith_some (envelope : Envelope) {s : Session} (fits : s.network.idle ≤ depth) :
    ∃ r, dispatchWith run envelope s = some r ∧ SameNodes s.network r.2.network := by
  obtain ⟨⟨answer, after⟩, hr, same⟩ := deliverWith_some manages envelope fits
  unfold dispatchWith
  rw [hr]
  cases answer <;> exact ⟨_, rfl, same⟩

theorem destroyAllWith_some (names : List String) {s : Session} (fits : s.network.idle ≤ depth) :
    ∃ r, destroyAllWith run names s = some r ∧ SameNodes s.network r.network := by
  induction names generalizing s with
  | nil => exact ⟨s, rfl, SameNodes.refl _⟩
  | cons name rest ih =>
    obtain ⟨r, hr, same⟩ := destroyWith_some manages name fits
    obtain ⟨t, ht, same'⟩ := ih (s := r.2) (same.idle ▸ fits)
    refine ⟨t, ?_, same.trans same'⟩
    simp only [destroyAllWith, hr]
    exact ht

theorem broadcastResetWith_some {s : Session} (fits : s.network.idle ≤ depth) :
    ∃ r, broadcastResetWith run s = some r ∧ SameNodes s.network r.2.network := by
  obtain ⟨t, ht, same⟩ := destroyAllWith_some manages s.goingNames
    (s := s.noteAll (s.busyNames.map .skippedByReset)) fits
  exact ⟨(s.goingNames.length, t.note (.resetBroadcast _)),
    by rw [broadcastResetWith, ht]; rfl, same⟩

theorem answerWith_some (c : Call) {s : Session} (fits : s.network.idle ≤ depth) :
    ∃ r, answerWith run c s = some r ∧ SameNodes s.network r.2.network := by
  have dispatched : ∀ envelope, ∃ r, ((dispatchWith run envelope s).map fun r =>
      (Outcome.done r.1, r.2)) = some r ∧ SameNodes s.network r.2.network := by
    intro envelope
    obtain ⟨r, hr, same⟩ := dispatchWith_some manages envelope fits
    exact ⟨_, by rw [hr]; rfl, same⟩
  cases c with
  | dispatch envelope => exact dispatched envelope
  | command text =>
    unfold answerWith
    dsimp only
    split
    · exact ⟨_, rfl, SameNodes.refl _⟩
    · exact dispatched _
  | data text =>
    unfold answerWith
    dsimp only
    split
    · exact ⟨_, rfl, SameNodes.refl _⟩
    · exact dispatched _
  | destroy name =>
    obtain ⟨r, hr, same⟩ := destroyWith_some manages name fits
    exact ⟨_, by rw [answerWith, hr]; rfl, same⟩
  | unregister name =>
    unfold answerWith
    dsimp only
    split
    · exact ⟨_, rfl, Network.sameNodes_unbind ..⟩
    · exact ⟨_, rfl, SameNodes.refl _⟩
  | broadcastReset =>
    obtain ⟨r, hr, same⟩ := broadcastResetWith_some manages fits
    exact ⟨_, by rw [answerWith, hr]; rfl, same⟩
  | contains name => exact ⟨_, rfl, SameNodes.refl _⟩
  | size => exact ⟨_, rfl, SameNodes.refl _⟩

theorem performWith_some (c : Call) {s : Session} (fits : s.network.idle ≤ depth) :
    ∃ r, performWith run c s = some r ∧ SameNodes s.network r.2.network :=
  answerWith_some manages c (s := s.note (.asked s.network.running c)) fits

theorem handleWith_some (id : NodeId) (handling : Handling (Except NodeError Unit)) {s : Session}
    (fits : s.network.idle ≤ depth) :
    ∃ r, handleWith run id handling s = some r ∧ SameNodes s.network r.2.network := by
  induction handling generalizing s with
  | ends reply => exact ⟨(reply, s), rfl, SameNodes.refl _⟩
  | asks c next ih =>
    obtain ⟨⟨o, t⟩, ht, same⟩ := performWith_some manages c fits
    have heard : SameNodes s.network (t.hear id o).network := same.trans (sameNodes_hear ..)
    obtain ⟨r, hr, same'⟩ := ih o (s := t.hear id o) (heard.idle ▸ fits)
    refine ⟨r, ?_, heard.trans same'⟩
    simp only [handleWith, ht]
    exact hr

end

/-- As many nested handlers as there are idle nodes are managed. -/
theorem manages_enter (depth : Nat) : Manages depth (enter depth) := by
  induction depth with
  | zero =>
    intro id message s fits made free
    have := idle_begin_lt message { node := .inbox [] } made free
    omega
  | succ depth ih =>
    intro id message s fits made free
    have found : s.network.nodes[id]? = some s.network.nodes[id] := List.getElem?_eq_getElem made
    have less := idle_begin_lt message (s.network.nodes[id].respond message) made free
    obtain ⟨r, hr, same⟩ := handleWith_some ih id (s.network.nodes[id].respond message).handling
      (s := s.begin id message (s.network.nodes[id].respond message)) (by omega)
    refine ⟨_, by simp only [enter, found, hr]; rfl, ?_, ?_⟩
    · simpa [finish, note, begin, noteAll, Network.replace] using same.length
    · simp only [finish, note, same.running]
      simp [begin, noteAll, note]

/-! ### Calls without a limit -/

theorem performWith_idle_isSome (c : Call) (s : Session) :
    (performWith (enter s.network.idle) c s).isSome := by
  obtain ⟨r, hr, -⟩ := performWith_some (manages_enter s.network.idle) c (Nat.le_refl _)
  rw [hr]
  rfl

def perform (s : Session) (c : Call) : Outcome × Session :=
  (performWith (enter s.network.idle) c s).get (performWith_idle_isSome c s)

/-- Tells a node a message without going through a name. A node that is busy or was never made takes
none, and answers `none`. -/
def tell? (s : Session) (id : NodeId) (message : Message) :
    Option (Except NodeError Unit × Session) :=
  if s.network.isBusy id then none else enter s.network.idle id message s

end Session
end Chip8
