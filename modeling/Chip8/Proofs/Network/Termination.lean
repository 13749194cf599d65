import Chip8.Proofs.Network.Running
import Mathlib.Data.List.Dedup
import Mathlib.Data.List.Perm.Subperm

/-!
Every call ends, however handlers call each other. A limit on how deep handlers may nest has no influence
on a call that ends within it, and as many as there are idle nodes are never exceeded. At no moment do
more handlers run than there are nodes with a name.
-/

namespace Chip8

/-- The nodes that have a name, each once. -/
def Network.namedNodes (net : Network) : List NodeId := (net.bindings.map (·.2)).dedup

namespace Session

/-! ### A higher limit changes nothing -/

/-- Whatever handler comes to an end under `run` comes to the same end under `more`. -/
def Covers (more run : Enter) : Prop :=
  ∀ id message s r, run id message s = some r → more id message s = some r

section
variable {more run : Enter} (covers : Covers more run)
include covers

theorem destroyWith_covers {name : String} {s : Session} {r : Except RouteError Unit × Session}
    (h : destroyWith run name s = some r) : destroyWith more name s = some r := by
  unfold destroyWith at h ⊢
  split
  · next free => simpa [free] using h
  · next id bound =>
    simp only [bound] at h
    split
    · next busy => simpa [busy] using h
    · next idle =>
      simp only [idle, Bool.false_eq_true, if_false] at h
      obtain ⟨r', hr, rfl⟩ := Option.map_eq_some_iff.mp h
      exact Option.map_eq_some_iff.mpr ⟨r', covers _ _ _ _ hr, rfl⟩

theorem deliverWith_covers {envelope : Envelope} {s : Session} {r : Except RouteError Unit × Session}
    (h : deliverWith run envelope s = some r) : deliverWith more envelope s = some r := by
  unfold deliverWith at h ⊢
  split
  · next free => simpa [free] using h
  · next id bound =>
    simp only [bound] at h
    split
    · next unregister => simpa [unregister] using h
    · next destroy =>
      simp only [destroy] at h
      exact destroyWith_covers covers h
    · next message told =>
      simp only [told] at h
      split
      · next busy => simpa [busy] using h
      · next idle =>
        simp only [idle, Bool.false_eq_true, if_false] at h
        obtain ⟨r', hr, rfl⟩ := Option.map_eq_some_iff.mp h
        exact Option.map_eq_some_iff.mpr ⟨r', covers _ _ _ _ hr, rfl⟩

theorem dispatchWith_covers {envelope : Envelope} {s : Session} {r : Except RouteError Unit × Session}
    (h : dispatchWith run envelope s = some r) : dispatchWith more envelope s = some r := by
  obtain ⟨r', hr, rfl⟩ := Option.map_eq_some_iff.mp h
  exact Option.map_eq_some_iff.mpr ⟨r', deliverWith_covers covers hr, rfl⟩

theorem destroyAllWith_covers {names : List String} {s t : Session}
    (h : destroyAllWith run names s = some t) : destroyAllWith more names s = some t := by
  induction names generalizing s with
  | nil => exact h
  | cons name rest ih =>
    obtain ⟨r, hr, ht⟩ := Option.bind_eq_some_iff.mp h
    exact Option.bind_eq_some_iff.mpr ⟨r, destroyWith_covers covers hr, ih ht⟩

theorem broadcastResetWith_covers {s : Session} {r : Nat × Session}
    (h : broadcastResetWith run s = some r) : broadcastResetWith more s = some r := by
  obtain ⟨t, ht, rfl⟩ := Option.map_eq_some_iff.mp h
  exact Option.map_eq_some_iff.mpr ⟨t, destroyAllWith_covers covers ht, rfl⟩

theorem answerWith_covers {c : Call} {s : Session} {r : Outcome × Session}
    (h : answerWith run c s = some r) : answerWith more c s = some r := by
  have dispatched : ∀ {envelope}, ((dispatchWith run envelope s).map fun r =>
      (Outcome.done r.1, r.2)) = some r →
      ((dispatchWith more envelope s).map fun r => (Outcome.done r.1, r.2)) = some r := by
    intro envelope h
    obtain ⟨r', hr, rfl⟩ := Option.map_eq_some_iff.mp h
    exact Option.map_eq_some_iff.mpr ⟨r', dispatchWith_covers covers hr, rfl⟩
  cases c with
  | dispatch envelope => exact dispatched h
  | command text =>
    simp only [answerWith] at h ⊢
    split
    · next cause malformed => simpa [malformed] using h
    · next c parsed =>
      simp only [parsed] at h
      exact dispatched h
  | data text =>
    simp only [answerWith] at h ⊢
    split
    · next cause malformed => simpa [malformed] using h
    · next d parsed =>
      simp only [parsed] at h
      exact dispatched h
  | destroy name =>
    obtain ⟨r', hr, rfl⟩ := Option.map_eq_some_iff.mp h
    exact Option.map_eq_some_iff.mpr ⟨r', destroyWith_covers covers hr, rfl⟩
  | broadcastReset =>
    obtain ⟨r', hr, rfl⟩ := Option.map_eq_some_iff.mp h
    exact Option.map_eq_some_iff.mpr ⟨r', broadcastResetWith_covers covers hr, rfl⟩
  | unregister | contains | size => exact h

theorem handleWith_covers {id : NodeId} {handling : Handling (Except NodeError Unit)} {s : Session}
    {r : Except NodeError Unit × Session} (h : handleWith run id handling s = some r) :
    handleWith more id handling s = some r := by
  induction handling generalizing s with
  | ends reply => exact h
  | asks c next ih =>
    obtain ⟨⟨o, t⟩, ht, hr⟩ := Option.bind_eq_some_iff.mp h
    exact Option.bind_eq_some_iff.mpr ⟨(o, t), answerWith_covers covers ht, ih o hr⟩

end

theorem enter_covers (depth : Nat) : Covers (enter (depth + 1)) (enter depth) := by
  induction depth with
  | zero =>
    intro id message s r h
    cases h
  | succ depth ih =>
    intro id message s r h
    unfold enter at h ⊢
    split
    · next missing => simp [missing] at h
    · next node found =>
      simp only [found] at h
      obtain ⟨t, ht, rfl⟩ := Option.map_eq_some_iff.mp h
      exact Option.map_eq_some_iff.mpr ⟨t, handleWith_covers ih ht, rfl⟩

/-- A call that ends within a limit ends the same under a higher one. -/
theorem performWith_of_le {depth higher : Nat} (hle : depth ≤ higher) {c : Call} {s : Session}
    {r : Outcome × Session} (h : performWith (enter depth) c s = some r) :
    performWith (enter higher) c s = some r := by
  induction hle with
  | refl => exact h
  | step _ ih => exact answerWith_covers (enter_covers _) ih

theorem performWith_idle (c : Call) (s : Session) :
    performWith (enter s.network.idle) c s = some (s.perform c) := (Option.some_get _).symm

/-- No limit that allows as many handlers as there are idle nodes is ever felt. -/
theorem performWith_of_idle_le {depth : Nat} {s : Session} (h : s.network.idle ≤ depth) (c : Call) :
    performWith (enter depth) c s = some (s.perform c) := performWith_of_le h (performWith_idle c s)

/-- Whatever the limit, a call that ends within it ends as a call without a limit does. -/
theorem eq_perform_of_performWith {depth : Nat} {c : Call} {s : Session} {r : Outcome × Session}
    (h : performWith (enter depth) c s = some r) : r = s.perform c := by
  rcases Nat.le_total depth s.network.idle with hle | hle
  · exact Option.some.inj ((performWith_of_le hle h).symm.trans (performWith_idle c s))
  · exact Option.some.inj (h.symm.trans (performWith_of_idle_le hle c))

theorem perform_course (c : Call) (s : Session) : ∃ es, Course s es (s.perform c).2 :=
  course_of_performWith (performWith_idle c s)

/-! ### No more handlers than nodes -/

open Event

theorem Course.length_runningAfter_le {s t : Session} {es moment : List Event} (h : Course s es t)
    (rest : s.network.running = []) (hm : moment <:+ es) :
    (runningAfter [] moment).length ≤ s.network.namedNodes.length := by
  have orderly : Orderly [] moment := (rest ▸ h.orderly.2).suffix hm
  have named : runningAfter [] moment ⊆ s.network.namedNodes := by
    intro id hid
    rcases mem_runningAfter hid with hid | ⟨now, message, he⟩
    · cases hid
    · exact List.mem_dedup.mpr (h.entered_bound (hm.subset he))
  exact (List.subperm_of_subset (orderly.nodup .nil) named).length_le

theorem idle_of_rest {s : Session} (rest : s.network.running = []) :
    s.network.idle = s.network.nodes.length := by
  simp [Network.idle, Network.isBusy, rest]

/-- A call from outside all handlers ends: no limit on nesting that allows as many handlers as there are
nodes is ever felt. At no moment of it do more handlers run than there are nodes with a name. -/
theorem perform_ends_within_nodes (s : Session) (c : Call) (rest : s.network.running = []) :
    (∀ depth, s.network.nodes.length ≤ depth → performWith (enter depth) c s = some (s.perform c)) ∧
    ∃ es, (s.perform c).2.trace = es ++ s.trace ∧ Orderly [] es ∧ ∀ moment, moment <:+ es →
      (runningAfter [] moment).Nodup ∧
      (runningAfter [] moment).length ≤ s.network.namedNodes.length := by
  refine ⟨fun depth hd => performWith_of_idle_le (idle_of_rest rest ▸ hd) c, ?_⟩
  obtain ⟨es, course⟩ := perform_course c s
  have orderly : Orderly [] es := rest ▸ course.orderly.2
  refine ⟨es, course.trace, orderly, fun moment hm => ⟨?_, course.length_runningAfter_le rest hm⟩⟩
  exact (orderly.suffix hm).nodup .nil

/-- A lamp, and an agent of two names that passes data on to the lamp and then to itself. -/
def echo : Session where
  network.nodes := [
    .log { name := "lamp", persistent := true },
    .agent {
      execute := fun _ verb _ => .ends (.error (.unrecognizedCommand verb))
      receive := fun _ payload =>
        .asks (.dispatch (.data ⟨"lamp", payload⟩)) fun _ => .asks (.dispatch (.data ⟨"echo", payload⟩)) fun _ => .ends ()
      onDestroy := fun _ => .ends ()
      persistent := false }]
  network.bindings := [("lamp", 0), ("voice", 1), ("echo", 1)]

theorem echo_ends_within_two :
    echo.network.running = [] ∧ echo.network.namedNodes.length = 2 ∧
    performWith (enter 2) (.dispatch (.data ⟨"voice", "hello"⟩)) echo =
      some (echo.perform (.dispatch (.data ⟨"voice", "hello"⟩))) :=
  ⟨rfl, rfl, (perform_ends_within_nodes echo _ rfl).1 2 (Nat.le_refl 2)⟩

end Session
end Chip8
