import Chip8.Extension
import Chip8.Proofs.Envelope
import Chip8.Proofs.Text.Numeral

/-!
Messages of the guest program survive the wire. Whatever stands in the registers and in memory, a message
that is made of it is written and read again without loss, unless it has no target; its verb is the one of
its code and takes its arguments, and the numbers among them are those of the registers.
-/

namespace Chip8

namespace Ram
variable {ram : Ram}

theorem length_asciiAt_le (addr limit : Nat) : (ram.asciiAt addr limit).length ≤ limit := by
  induction limit generalizing addr with
  | zero => exact Nat.le_refl 0
  | succ limit ih =>
    simp only [asciiAt]
    split_ifs
    · exact Nat.zero_le _
    · exact Nat.succ_le_succ (ih (addr + 1))
    · exact Nat.le_succ_of_le (ih (addr + 1))

theorem toNat_of_isPrintable {b : UInt8} (h : isPrintable b = true) :
    0x20 ≤ (Char.ofNat b.toNat).toNat ∧ (Char.ofNat b.toNat).toNat ≤ 0x7e := by
  obtain ⟨low, high⟩ : 0x20 ≤ b ∧ b ≤ 0x7e := by simpa [isPrintable] using h
  have most : b.toNat ≤ 0x7e := high
  have valid : b.toNat.isValidChar := Or.inl (Nat.lt_of_le_of_lt most (by decide))
  have same : (Char.ofNat b.toNat).toNat = b.toNat := by
    rw [Char.ofNat, dif_pos valid]
    rfl
  rw [same]
  exact ⟨low, high⟩

theorem printable_of_mem_asciiAt {c : Char} {addr limit : Nat} (h : c ∈ ram.asciiAt addr limit) :
    0x20 ≤ c.toNat ∧ c.toNat ≤ 0x7e := by
  induction limit generalizing addr with
  | zero => cases h
  | succ limit ih =>
    simp only [asciiAt] at h
    split_ifs at h with ended printable
    · cases h
    · rcases List.mem_cons.mp h with rfl | later
      · exact toNat_of_isPrintable printable
      · exact ih later
    · exact ih h

end Ram

namespace Extension
variable {v : Registers} {ram : Ram}

/-! ### Texts -/

/-- A text of at most `limit` printable characters, in which no mark of the wire occurs. -/
structure IsField (limit : Nat) (text : String) : Prop where
  length : text.length ≤ limit
  printable : ∀ c ∈ text.toList, 0x20 ≤ c.toNat ∧ c.toNat ≤ 0x7e
  bar : '|' ∉ text.toList
  tilde : '~' ∉ text.toList

/-- What is read from memory for an envelope has a place in it. -/
theorem isField_readField (ram : Ram) (addr limit : Nat) : IsField limit (readField ram addr limit).value := by
  have chars : (readField ram addr limit).value.toList =
      (ram.asciiAt addr limit).filter (!isSeparator ·) := by
    simp only [readField, Ram.readAscii, Noted.value_bind, Noted.value_pure, String.toList_ofList]
  refine ⟨?_, fun c hc => ?_, fun bar => ?_, fun tilde => ?_⟩
  · rw [← String.length_toList, chars]
    exact Nat.le_trans (List.length_filter_le ..) (Ram.length_asciiAt_le addr limit)
  · rw [chars] at hc
    exact Ram.printable_of_mem_asciiAt (List.mem_filter.mp hc).1
  · rw [chars] at bar
    cases (List.mem_filter.mp bar).2
  · rw [chars] at tilde
    cases (List.mem_filter.mp tilde).2

/-! ### Numbers -/

/-- Reads a number from -128 to 127. -/
def readSigned (text : String) : Except Text.NumeralError Int := Text.readInteger 8 text.toList

/-- Reads a number from 0 to 255. -/
def readByte (text : String) : Except Text.NumeralError Nat := Text.readNatural 10 255 text.toList

theorem readSigned_signedText (b : UInt8) : readSigned (signedText b) = .ok b.toInt8.toInt :=
  Text.readInteger_toString b.toInt8.le_toInt b.toInt8.toInt_lt

theorem readByte_numberText (b : UInt8) : readByte (numberText b) = .ok b.toNat :=
  Text.readNatural_toString (Nat.le_of_lt_succ b.toNat_lt)

theorem tilde_not_mem_signedText (b : UInt8) : '~' ∉ (signedText b).toList := by
  intro tilde
  rcases Text.of_mem_toString_int tilde with minus | digit
  · cases minus
  · cases digit

theorem tilde_not_mem_toString (n : Nat) : '~' ∉ (toString n).toList := by
  intro tilde
  cases Text.isDigit_of_mem_toString tilde

/-! ### Arguments -/

theorem tilde_not_mem_arguments {operands : Operands} {a : String} (h : a ∈ (arguments operands v ram).value) :
    '~' ∉ a.toList := by
  cases operands with
  | none => cases h
  | signed count =>
    obtain ⟨b, -, rfl⟩ := List.mem_map.mp h
    exact tilde_not_mem_signedText b
  | color =>
    obtain ⟨b, -, rfl⟩ := List.mem_map.mp h
    exact tilde_not_mem_toString b.toNat
  | percent =>
    obtain rfl := List.mem_singleton.mp h
    exact tilde_not_mem_toString _
  | text =>
    obtain rfl := List.mem_singleton.mp h
    exact (isField_readField ..).tilde

theorem map_readSigned_arguments (count : Nat) :
    (arguments (.signed count) v ram).value.map readSigned = (v.toList.take count).map (.ok ·.toInt8.toInt) := by
  rw [arguments, Noted.value_pure, List.map_map]
  exact List.map_congr_left fun b _ => readSigned_signedText b

theorem map_readByte_arguments :
    (arguments .color v ram).value.map readByte = (v.toList.take 4).map (.ok ·.toNat) := by
  rw [arguments, Noted.value_pure, List.map_map]
  exact List.map_congr_left fun b _ => readByte_numberText b

theorem length_arguments (verb : Verb) : (arguments verb.operands v ram).value.length = verb.arity := by
  cases verb <;> simp [arguments, Verb.operands, Verb.arity]

theorem check_arguments (verb : Verb) :
    Verb.check verb.name (arguments verb.operands v ram).value = .ok verb := by
  rw [Verb.check, Verb.parse, Verb.ofName?_name]
  simp only [length_arguments, if_true]

/-- What the arguments of a verb say about the registers. -/
def Tells (v : Registers) (args : List String) : Verb → Prop
  | .moveX | .moveY | .moveZ | .rotateX | .rotateY | .rotateZ | .scaleX | .scaleY | .scaleZ =>
    args.map readSigned = [.ok v[(0 : Register)].toInt8.toInt]
  | .move | .rotate | .scale =>
    args.map readSigned =
      [.ok v[(0 : Register)].toInt8.toInt, .ok v[(1 : Register)].toInt8.toInt, .ok v[(2 : Register)].toInt8.toInt]
  | .setMaterialColor | .setLightColor =>
    args.map readByte =
      [.ok v[(0 : Register)].toNat, .ok v[(1 : Register)].toNat, .ok v[(2 : Register)].toNat,
        .ok v[(3 : Register)].toNat]
  | .setLightIntensity => args.map readByte = [.ok (min v[(0 : Register)].toNat 100)]
  | .spawn | .call | .broadcast | .reparent | .lookAt => ∃ text, args = [text] ∧ IsField 63 text
  | .addMaterial | .unregister | .destroy => args = []

/-- The first registers, one by one. -/
theorem take_one (v : Registers) : v.toList.take 1 = [v[0]] := by simp [List.take_add_one]

theorem take_three (v : Registers) : v.toList.take 3 = [v[0], v[1], v[2]] := by simp [List.take_add_one]

theorem take_four (v : Registers) : v.toList.take 4 = [v[0], v[1], v[2], v[3]] := by simp [List.take_add_one]

theorem tells_arguments (verb : Verb) : Tells v (arguments verb.operands v ram).value verb := by
  have percent : readByte (toString (min v[0].toNat 100)) = .ok (min v[0].toNat 100) :=
    Text.readNatural_toString (Nat.le_trans (Nat.min_le_right ..) (by decide))
  cases verb with
  | moveX | moveY | moveZ | rotateX | rotateY | rotateZ | scaleX | scaleY | scaleZ =>
    exact (map_readSigned_arguments 1).trans (by rw [take_one]; rfl)
  | move | rotate | scale => exact (map_readSigned_arguments 3).trans (by rw [take_three]; rfl)
  | setMaterialColor | setLightColor => exact map_readByte_arguments.trans (by rw [take_four]; rfl)
  | setLightIntensity => exact congrArg (fun read => [read]) percent
  | spawn | call | broadcast | reparent | lookAt => exact ⟨_, rfl, isField_readField ..⟩
  | addMaterial | unregister | destroy => rfl

/-! ### Messages -/

/-- A message holds the data of the text window, or the verb of its code with its arguments. -/
theorem eq_of_decode_route {code : UInt8} {i : UInt16} {window : TextWindow} {e : Envelope}
    (h : (decode code v i ram window).value = .route e) :
    ∃ target, IsField 31 target ∧
      ((∃ payload, e = .data ⟨target, payload⟩) ∨
        ∃ verb, Verb.ofCode? code = some verb ∧
          e = .command ⟨target, verb.name, (arguments verb.operands v ram).value⟩) := by
  refine ⟨_, isField_readField ram i.toNat targetLimit, ?_⟩
  rw [decode, Noted.value_bind] at h
  split at h
  · cases h
    exact Or.inl ⟨_, rfl⟩
  · split at h
    · cases h
    · split at h
      · cases h
      · next verb found =>
        cases h
        exact Or.inr ⟨verb, found, rfl⟩

/-- Whatever the guest program has put into the registers and into memory, a message that is made of it has
a short target of printable characters without the marks of the wire. If the target is not empty, the
message is read again as it was. A command is one that its node can check, and says what the registers
hold. -/
theorem routed_survives_wire (code : UInt8) (v : Registers) (i : UInt16) (ram : Ram) (window : TextWindow)
    {e : Envelope} (routed : (decode code v i ram window).value = .route e) :
    IsField 31 e.target ∧
      e.parseLike e.text = (if e.target = "" then .error (.emptyTarget e.text) else .ok e) ∧
      ∀ c, e = .command c →
        ∃ verb, Verb.ofCode? code = some verb ∧ Verb.check c.verb c.args = .ok verb ∧ Tells v c.args verb := by
  obtain ⟨target, field, ⟨payload, rfl⟩ | ⟨verb, found, rfl⟩⟩ := eq_of_decode_route routed
  · have read := Data.parse_text (d := ⟨target, payload⟩) field.bar
    exact ⟨field, (congrArg (Except.map _) read).trans (apply_ite ..), nofun⟩
  · have named : '~' ∉ verb.name.toList := by cases verb <;> decide
    have read := Command.parse_text (c := ⟨target, verb.name, (arguments verb.operands v ram).value⟩)
      field.bar named fun a => tilde_not_mem_arguments
    refine ⟨field, (congrArg (Except.map _) read).trans (apply_ite ..), ?_⟩
    rintro _ ⟨⟩
    exact ⟨verb, found, check_arguments verb, tells_arguments verb⟩

/-- A bar in the name of the target is left out, and the angles keep their signs. -/
theorem rotate_survives_wire :
    let v : Registers := ((Vector.replicate 16 0).set 0 0x80).set 1 45
    let ram := ((⟨Vector.replicate _ 0, 0x50⟩ : Ram).writeAscii 0x300 "Ca|r" 32).value.2
    let e := Envelope.command ⟨"Car", "rotate", ["-128", "45", "0"]⟩
    (decode 0x08 v 0x300 ram ⟨0x1a0, 0x60⟩).value = .route e ∧
      e.parseLike "Car|rotate~-128~45~0" = .ok e ∧
      Verb.check "rotate" ["-128", "45", "0"] = .ok .rotate ∧
      ["-128", "45", "0"].map readSigned = [.ok (-128), .ok 45, .ok 0] := by
  intro v ram e
  have routed : (decode 0x08 v 0x300 ram ⟨0x1a0, 0x60⟩).value = .route e := by decide +kernel
  obtain ⟨-, read, command⟩ := routed_survives_wire 0x08 v 0x300 ram ⟨0x1a0, 0x60⟩ routed
  obtain ⟨verb, found, checked, tells⟩ := command _ rfl
  have rotate : verb = .rotate := Option.some.inj (found.symm.trans rfl)
  subst rotate
  exact ⟨routed, read, checked, tells⟩

end Extension
end Chip8
