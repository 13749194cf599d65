import Chip8.Proofs.Machine.Effect
import Chip8.Proofs.Machine.Notes

/-!
Most of what is noted only comments on what happens. Landmarks do not: an instruction, a call of a device and
a start from the beginning each stand for something done, and so does a message that is taken out of the mail.
The machine itself notes nothing but comments.
-/

namespace Chip8

namespace Event

def isLandmark : Event → Bool
  | executed _ | called .. | restarted .. => true
  | _ => false

def isMail : Event → Bool
  | mailTaken _ => true
  | _ => false

/-- An event that the machine or a device notes on the side. -/
def isAside (e : Event) : Bool := !e.isLandmark && !e.isMail && e.source != .network && e.source != .node

variable {e : Event}

theorem not_isMail_of_isLandmark (h : e.isLandmark = true) : e.isMail = false := by
  cases e with
  | mailTaken => cases h
  | _ => rfl

theorem plain_of_source (h : e.source ≠ .machine) : e.isLandmark = false ∧ e.isMail = false := by
  cases e with
  | executed | called | restarted | mailTaken => exact absurd rfl h
  | _ => exact ⟨rfl, rfl⟩

theorem plain_of_isAside (h : e.isAside = true) : e.isLandmark = false ∧ e.isMail = false := by
  simp only [isAside, Bool.and_eq_true, Bool.not_eq_true'] at h
  exact h.1.1

theorem source_of_isAside (h : e.isAside = true) : e.source ≠ .network := by
  simp only [isAside, Bool.and_eq_true, bne_iff_ne] at h
  exact h.1.2

theorem source_of_isLandmark (h : e.isLandmark = true) : e.source = .machine := by
  cases e with
  | executed | called | restarted => rfl
  | _ => cases h

theorem isAside_of_source (machine : e.source ≠ .machine) (network : e.source ≠ .network) (node : e.source ≠ .node) :
    e.isAside = true := by
  obtain ⟨landmark, mail⟩ := plain_of_source machine
  simp [isAside, landmark, mail, network, node]

theorem isAside_of_ofDevice (h : e.ofDevice = true) : e.isAside = true := by
  simp only [ofDevice, Bool.or_eq_true, beq_iff_eq] at h
  rcases h with h | h <;> exact isAside_of_source (by simp [h]) (by simp [h]) (by simp [h])

end Event

def Asides (events : List Event) : Prop := ∀ e ∈ events, e.isAside = true

section
variable {e : Event} {events later : List Event}

@[simp] theorem asides_nil : Asides [] := fun _ h => nomatch h

@[simp] theorem asides_cons : Asides (e :: events) ↔ e.isAside = true ∧ Asides events := List.forall_mem_cons

@[simp] theorem asides_append : Asides (events ++ later) ↔ Asides events ∧ Asides later := List.forall_mem_append

theorem asides_of_memory (h : ∀ e ∈ events, e.source = .memory) : Asides events := by
  intro e he
  have memory := h e he
  exact e.isAside_of_source (by simp [memory]) (by simp [memory]) (by simp [memory])

end

namespace Machine
variable {m : Machine}

theorem asides_advance (addr count : UInt16) : Asides (advance addr count).notes := by
  simp only [advance, Noted.notes_bind, Noted.notes_noteIf, Noted.notes_pure, List.append_nil]
  split <;> simp [Event.isAside, Event.isLandmark, Event.isMail, Event.source]

theorem asides_follow (flow : Flow) : Asides (m.follow flow).notes := by
  cases flow with
  | next => simpa [follow] using asides_advance m.pc 2
  | skip => simpa [follow] using asides_advance m.pc 4
  | jump addr => exact asides_nil
  | stay => exact asides_nil

theorem asides_halt (reason : HaltReason) : Asides (m.halt reason).notes := by
  simp [halt, Event.isAside, Event.isLandmark, Event.isMail, Event.source]

theorem asides_checkEnd : Asides m.checkEnd.notes := by
  unfold checkEnd
  split
  · exact asides_halt _
  · exact asides_nil

theorem asides_haltHere (reason : HaltReason) : Asides (m.haltHere reason).notes := by
  simpa [haltHere, goOn] using asides_halt reason

theorem asides_ret {done : Noted Executed} (h : m.ret = some done) : Asides done.notes := by
  unfold ret at h
  split at h
  · cases h
    exact asides_haltHere _
  · obtain ⟨sp, -, rest⟩ := Option.bind_eq_some_iff.mp h
    obtain ⟨addr, -, rest⟩ := Option.bind_eq_some_iff.mp rest
    cases rest
    simpa [goOn] using asides_advance addr 2

theorem asides_call {addr : UInt16} {done : Noted Executed} (h : m.call addr = some done) : Asides done.notes := by
  unfold call at h
  split at h
  · obtain ⟨sp, -, rfl⟩ := Option.map_eq_some_iff.mp h
    exact asides_nil
  · cases h
    exact asides_haltHere _

theorem asides_obey (control : Control) : Asides (m.obey control).notes := by
  cases control <;> simp [obey, haltHere, halt, goOn, Event.isAside, Event.isLandmark, Event.isMail, Event.source]

theorem asides_extend (code : UInt8) : Asides (m.extend code).notes := by
  have decoded : Asides (Extension.decode code m.v m.i m.ram m.config.window).notes := by
    intro e he
    rcases Extension.reads_of_mem_notes_decode he with h | h <;>
      exact e.isAside_of_source (by simp [h]) (by simp [h]) (by simp [h])
  rw [extend, Noted.notes_bind, asides_append]
  refine ⟨decoded, ?_⟩
  split
  · simp [Event.isAside, Event.isLandmark, Event.isMail, Event.source]
  · next control _ => exact asides_obey control
  · simp [goOn, Event.isAside, Event.isLandmark, Event.isMail, Event.source]

theorem asides_storeAtIndex (bytes : List UInt8) : Asides (m.storeAtIndex bytes).notes := by
  have stored : Asides (m.ram.storeAll m.i.toNat bytes).notes :=
    asides_of_memory fun e he => Ram.source_of_mem_notes_storeAll he
  simpa [storeAtIndex, goOn] using stored

theorem asides_execute {instruction : Instruction} {done : Noted Executed} (h : m.execute instruction = some done) :
    Asides done.notes := by
  cases instruction with
  | ret => exact asides_ret h
  | call addr => exact asides_call h
  | extension code =>
    cases h
    exact asides_extend code
  | storeDigits x =>
    cases h
    exact asides_storeAtIndex _
  | storeRegs x =>
    cases h
    exact asides_storeAtIndex _
  | system addr =>
    cases h
    simp [goOn, Event.isAside, Event.isLandmark, Event.isMail, Event.source]
  | unknown word =>
    cases h
    simp [goOn, Event.isAside, Event.isLandmark, Event.isMail, Event.source]
  | jumpOffset addr =>
    simp only [execute] at h
    split at h
    · cases h
      exact asides_nil
    · cases h
  | loadGlyph x =>
    obtain ⟨addr, -, rfl⟩ := Option.map_eq_some_iff.mp h
    exact asides_nil
  | _ =>
    -- The others note nothing.
    cases h
    exact asides_nil

theorem asides_load {program : List UInt8} {loaded : Noted (Nat × Machine)} (h : m.load? program = some loaded) :
    Asides loaded.notes := by
  obtain ⟨memory, hm, rfl⟩ := Option.map_eq_some_iff.mp h
  unfold Ram.load? at hm
  obtain ⟨written, -, rfl⟩ := Option.map_eq_some_iff.mp hm
  simp only [Noted.notes_bind, Noted.notes_noteIf, Noted.notes_pure, List.append_nil]
  split <;> simp [Event.isAside, Event.isLandmark, Event.isMail, Event.source]

theorem asides_receive (text : String) : Asides (m.receive text).notes := by
  obtain ⟨-, notes⟩ := Ram.writeAscii_keeps m.ram m.config.window.address.toNat text m.config.window.size.toNat
  simpa [receive, Event.isAside, Event.isLandmark, Event.isMail, Event.source] using asides_of_memory notes

theorem asides_writeAscii (addr : UInt16) (text : String) : Asides (m.writeAscii addr text).notes := by
  obtain ⟨-, notes⟩ := Ram.writeAscii_keeps m.ram addr.toNat text (ramSize - addr.toNat)
  simpa [writeAscii] using asides_of_memory notes

end Machine
end Chip8
