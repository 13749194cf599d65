import Chip8.Proofs.Machine.Asides
import Chip8.Proofs.Network.Changes
import Chip8.Proofs.World.Moves

/-!
The landmarks that are passed while something is done in a world. Between two of them the machine and the
devices note something on the side, and the network does some work; of the work it only matters what is
known of the session before it and after it. The mail is left alone.
-/

namespace Chip8

/-- The landmarks among some events, in their order. -/
def landmarks (events : List Event) : List Event := events.filter Event.isLandmark

theorem landmarks_append (events later : List Event) :
    landmarks (events ++ later) = landmarks events ++ landmarks later := List.filter_append ..

theorem landmarks_eq_nil {events : List Event} (h : ∀ e ∈ events, e.isLandmark = false) : landmarks events = [] :=
  List.filter_eq_nil_iff.mpr fun e he => by simp [h e he]

theorem landmarks_of_asides {events : List Event} (h : Asides events) : landmarks events = [] :=
  landmarks_eq_nil fun e he => (Event.plain_of_isAside (h e he)).1

namespace Session
variable {Work : Session → Session → Prop} {s t : Session} {es : List Event}

/-- What a session goes through, and the landmarks on the way, the latest first. -/
inductive Passage (Work : Session → Session → Prop) : Session → List Event → Session → Prop
  | refl (s : Session) : Passage Work s [] s
  | trans {s t u : Session} {es fs : List Event} :
      Passage Work s es t → Passage Work t fs u → Passage Work s (fs ++ es) u
  | aside (s : Session) {e : Event} (h : e.isAside = true) : Passage Work s [] (s.note e)
  | landmark (s : Session) {e : Event} (h : e.isLandmark = true) : Passage Work s [e] (s.note e)
  | work {s t : Session} (h : Work s t) : Passage Work s [] t

theorem Passage.asides (s : Session) (h : Asides es) : Passage Work s [] (s.noting es) := by
  induction es with
  | nil => exact .refl s
  | cons e rest ih =>
    obtain ⟨he, hrest⟩ := asides_cons.mp h
    exact (ih hrest).trans (.aside (s.noting rest) he)

/-- What is noted on the way has the landmarks of the passage, if the network passes none at its work. -/
theorem Passage.trace (h : Passage Work s es t) (tidy : ∀ s t, Work s t → s.Tidy t) :
    ∃ new, t.trace = new ++ s.trace ∧ landmarks new = es ∧ ∀ e ∈ new, e.isMail = false := by
  induction h with
  | refl s => exact ⟨[], rfl, rfl, fun _ h => nomatch h⟩
  | trans _ _ ih₁ ih₂ =>
    obtain ⟨first, trace₁, rfl, mail₁⟩ := ih₁
    obtain ⟨later, trace₂, rfl, mail₂⟩ := ih₂
    refine ⟨later ++ first, by rw [trace₂, trace₁, List.append_assoc], landmarks_append .., ?_⟩
    exact List.forall_mem_append.mpr ⟨mail₂, mail₁⟩
  | @aside s e h =>
    obtain ⟨landmark, mail⟩ := Event.plain_of_isAside h
    exact ⟨[e], rfl, by simp [landmarks, landmark], by simp [mail]⟩
  | @landmark s e h => exact ⟨[e], rfl, by simp [landmarks, h], by simp [Event.not_isMail_of_isLandmark h]⟩
  | work h =>
    obtain ⟨new, trace, source⟩ := (tidy _ _ h).notes
    have plain : ∀ e ∈ new, e.isLandmark = false ∧ e.isMail = false := by
      intro e he
      apply Event.plain_of_source
      rcases source e he with network | node <;> simp [*]
    exact ⟨new, trace, landmarks_eq_nil fun e he => (plain e he).1, fun e he => (plain e he).2⟩

theorem Passage.running (h : Passage Work s es t) (tidy : ∀ s t, Work s t → s.Tidy t) :
    t.network.running = s.network.running := by
  induction h with
  | refl | aside | landmark => rfl
  | trans _ _ ih₁ ih₂ => exact ih₂.trans ih₁
  | work h => exact (tidy _ _ h).running

/-- If the network has no work to do, it is left alone, and nothing is noted in its name. -/
theorem Passage.alone (h : Passage (fun _ _ => False) s es t) :
    t.network = s.network ∧ ∃ new, t.trace = new ++ s.trace ∧ ∀ e ∈ new, e.source ≠ .network := by
  induction h with
  | refl s => exact ⟨rfl, [], rfl, fun _ h => nomatch h⟩
  | trans _ _ ih₁ ih₂ =>
    obtain ⟨same₁, first, trace₁, own₁⟩ := ih₁
    obtain ⟨same₂, later, trace₂, own₂⟩ := ih₂
    refine ⟨same₂.trans same₁, later ++ first, by rw [trace₂, trace₁, List.append_assoc], ?_⟩
    exact List.forall_mem_append.mpr ⟨own₂, own₁⟩
  | @aside s e h => exact ⟨rfl, [e], rfl, by simpa using Event.source_of_isAside h⟩
  | @landmark s e h => exact ⟨rfl, [e], rfl, by simp [Event.source_of_isLandmark h]⟩
  | work h => exact h.elim

end Session

def World.session {δ : Type} (w : World δ) : Session := ⟨w.network, w.trace⟩

namespace Act
variable {δ α β : Type}

/-- Done with a machine `m` when the landmarks `before` have been passed, something leaves a result, a
machine and the landmarks passed by then, of which `Q` holds; or it fails and leaves a machine and landmarks
of which `E` holds. -/
def Passes (Work : Session → Session → Prop) (m : Machine) (before : List Event) (x : Act δ α)
    (Q : α → Machine → List Event → Prop) (E : Machine → List Event → Prop) : Prop :=
  ∀ w : World δ, w.machine = m → x.Ends w
    (fun a after => ∃ es, w.session.Passage Work es after.session ∧ Q a after.machine (es ++ before))
    fun _ after => ∃ es, w.session.Passage Work es after.session ∧ E after.machine (es ++ before)

namespace Passes
open Session (Passage)

variable {Work : Session → Session → Prop} {m n : Machine} {before : List Event}
  {Q Q' : α → Machine → List Event → Prop} {R : β → Machine → List Event → Prop}
  {E E' : Machine → List Event → Prop}

theorem mono {x : Act δ α} (h : Passes Work m before x Q E) (hq : ∀ a n es, Q a n es → Q' a n es)
    (he : ∀ n es, E n es → E' n es) : Passes Work m before x Q' E' := by
  intro w hm
  refine (h w hm).mono ?_ ?_
  · rintro a after ⟨es, passage, q⟩
    exact ⟨es, passage, hq a _ _ q⟩
  · rintro fault after ⟨es, passage, e⟩
    exact ⟨es, passage, he _ _ e⟩

/-- What is passed does not depend on what was passed before. -/
theorem later {x : Act δ α} (h : Passes Work m [] x Q E) :
    Passes Work m before x (fun a n es => ∃ new, es = new ++ before ∧ Q a n new)
      fun n es => ∃ new, es = new ++ before ∧ E n new := by
  intro w hm
  refine (h w hm).mono ?_ ?_
  · rintro a after ⟨es, passage, q⟩
    rw [List.append_nil] at q
    exact ⟨es, passage, es, rfl, q⟩
  · rintro fault after ⟨es, passage, e⟩
    rw [List.append_nil] at e
    exact ⟨es, passage, es, rfl, e⟩

theorem pure {a : α} (h : Q a m before) : Passes Work m before (Pure.pure a : Act δ α) Q E := by
  rintro w rfl
  exact ⟨[], .refl _, h⟩

theorem bind {x : Act δ α} {f : α → Act δ β} (h : Passes Work m before x Q E)
    (hf : ∀ a n es, Q a n es → Passes Work n es (f a) R E) : Passes Work m before (x >>= f) R E := by
  intro w hm
  refine ends_bind.mpr ((h w hm).imp ?_)
  rintro a after ⟨es, first, q⟩
  refine (hf a after.machine _ q after rfl).mono ?_ ?_
  · rintro b last ⟨fs, next, r⟩
    rw [← List.append_assoc] at r
    exact ⟨fs ++ es, first.trans next, r⟩
  · rintro fault last ⟨fs, next, e⟩
    rw [← List.append_assoc] at e
    exact ⟨fs ++ es, first.trans next, e⟩

theorem machine_bind {f : Machine → Act δ β} (h : Passes Work m before (f m) R E) :
    Passes Work m before (machine >>= f) R E := by
  rintro w rfl
  rw [ends_bind, ends_machine]
  exact h w rfl

theorem setMachine {Q : Machine → List Event → Prop} (h : Q n before) :
    Passes Work m before (setMachine n : Act δ Unit) (fun _ => Q) E :=
  fun _ _ => ⟨[], .refl _, h⟩

theorem setMachine_bind {f : Unit → Act δ β} (h : Passes Work n before (f ()) R E) :
    Passes Work m before (Act.setMachine n >>= f) R E := by
  intro w _
  rw [ends_bind, ends_setMachine]
  exact h _ rfl

/-- Something of which nothing else is known than what it notes, and what follows it. -/
theorem silent_bind {x : Act δ α} {f : α → Act δ β}
    (h : Passes Work m before x (fun _ after es => after = m ∧ es = before) E)
    (hf : ∀ a, Passes Work m before (f a) R E) : Passes Work m before (x >>= f) R E := by
  refine h.bind ?_
  rintro a _ _ ⟨rfl, rfl⟩
  exact hf a

theorem note {e : Event} {Q : Machine → List Event → Prop} (aside : e.isAside = true) (h : Q m before) :
    Passes Work m before (note e : Act δ Unit) (fun _ => Q) E := by
  rintro w rfl
  exact ⟨[], .aside w.session aside, h⟩

theorem landmark {e : Event} {Q : Machine → List Event → Prop} (landmark : e.isLandmark = true)
    (h : Q m (e :: before)) : Passes Work m before (Act.note e : Act δ Unit) (fun _ => Q) E := by
  rintro w rfl
  exact ⟨[e], .landmark w.session landmark, h⟩

theorem landmark_bind {e : Event} {f : Unit → Act δ β} (landmark : e.isLandmark = true)
    (h : Passes Work m (e :: before) (f ()) R E) : Passes Work m before (Act.note e >>= f) R E := by
  refine Passes.bind (.landmark landmark (Q := fun n es => n = m ∧ es = e :: before) ⟨rfl, rfl⟩) ?_
  rintro _ _ _ ⟨rfl, rfl⟩
  exact h

theorem noted_bind {x : Noted α} {f : α → Act δ β} (asides : Asides x.notes)
    (h : Passes Work m before (f x.value) R E) : Passes Work m before (noted x >>= f) R E := by
  have silent : Passes Work m before (noted x : Act δ α)
      (fun a after es => (a = x.value ∧ after = m) ∧ es = before) E := by
    rintro w rfl
    have reversed : Asides x.notes.reverse := fun e he => asides e (List.mem_reverse.mp he)
    exact ⟨[], .asides w.session reversed, ⟨rfl, rfl⟩, rfl⟩
  refine silent.bind ?_
  rintro _ _ _ ⟨⟨rfl, rfl⟩, rfl⟩
  exact h

theorem require_bind {o : Option α} {f : α → Act δ β} (some : ∀ a, o = some a → Passes Work m before (f a) R E)
    (none : o = none → E m before) : Passes Work m before (require o >>= f) R E := by
  rintro w rfl
  cases o with
  | some a => exact some a rfl w rfl
  | none => exact ⟨[], .refl _, none rfl⟩

theorem onNetwork {f : Session → α × Session} (works : ∀ s, Work s (f s).2) :
    Passes Work m before (onNetwork f : Act δ α) (fun _ after es => after = m ∧ es = before) E := by
  intro w hm
  rw [ends_onNetwork]
  exact ⟨[], .work (works w.session), hm, rfl⟩

theorem callDevice {ε : Type} {c : DeviceCall} {wrap : ε → Fault} {f : δ → Noted (Except ε α × δ)}
    (ok : ∀ a, Q a m (.called c none :: before)) (failed : ∀ fault, E m (.called c (some fault) :: before)) :
    Passes Work m before (callDevice c wrap f) Q E := by
  rintro w rfl
  have passage : ∀ {after : World δ} {es : List Event} {failure : Option Fault}, after.network = w.network →
      after.trace = .called c failure :: es ++ w.trace → (∀ e ∈ es, e.ofDevice = true) →
        w.session.Passage Work [.called c failure] after.session := by
    intro after es failure network trace own
    have noted : after.session = (w.session.noting es).note (.called c failure) := by
      rw [World.session, network, trace]
      rfl
    rw [noted]
    have asides : w.session.Passage Work [] (w.session.noting es) :=
      .asides _ fun e he => Event.isAside_of_ofDevice (own e he)
    exact asides.trans (.landmark _ rfl)
  refine (ends_callDevice c wrap f w).mono ?_ ?_
  · rintro a after ⟨same, network, es, trace, own⟩
    exact ⟨_, passage network trace own, same ▸ ok a⟩
  · rintro fault after ⟨-, same, network, es, trace, own⟩
    exact ⟨_, passage network trace own, same ▸ failed fault⟩

theorem whenever {condition : Bool} {x : Act δ Unit} {Q : Machine → List Event → Prop}
    (h : condition = true → Passes Work m before x (fun _ => Q) E) (skip : condition = false → Q m before) :
    Passes Work m before (whenever condition x) (fun _ => Q) E := by
  unfold Act.whenever
  cases condition with
  | true => exact h rfl
  | false => exact pure (skip rfl)

/-- What is known of something, whether it fails or not. -/
theorem after {x : Act δ α} {P : Machine → List Event → Prop} (h : Passes Work m [] x (fun _ => P) P) {w : World δ}
    (hm : w.machine = m) : ∃ es, w.session.Passage Work es (x w).2.session ∧ P (x w).2.machine es := by
  have ended := h w hm
  simp only [List.append_nil] at ended
  exact ended.answer (P := fun _ after => ∃ es, w.session.Passage Work es after.session ∧ P after.machine es)

/-- What is known of the landmarks that something passes, it has noted. -/
theorem noted {x : Act δ α} {P : Machine → List Event → Prop} (h : Passes Session.Tidy m [] x (fun _ => P) P)
    {w : World δ} (hm : w.machine = m) :
    ∃ new, (x w).2.trace = new ++ w.trace ∧ P (x w).2.machine (landmarks new) := by
  obtain ⟨_, passage, p⟩ := h.after hm
  obtain ⟨new, trace, rfl, -⟩ := passage.trace fun _ _ => id
  exact ⟨new, trace, p⟩

end Passes
end Act
end Chip8
