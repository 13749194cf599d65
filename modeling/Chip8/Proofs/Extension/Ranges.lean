import Chip8.Proofs.Extension
import Mathlib.Data.Set.Defs

/-!
The numbers in the commands of the guest program. Each number that a verb takes has a range, and whatever the registers
hold, it lies in it: a register is read as a signed byte, as a byte, or cut off at a hundred. The alpha of a color is
the exception. It is the whole byte of its register, so it leaves its range when the register does.
-/

namespace Chip8

namespace Verb

/-- How far to move, turn or scale. -/
def deltas : Set Int := {z | -128 ≤ z ∧ z ≤ 127}

def channels : Set Int := {z | 0 ≤ z ∧ z ≤ 255}

def alphas : Set Int := {z | 1 ≤ z ∧ z ≤ 100}

def intensities : Set Int := {z | 0 ≤ z ∧ z ≤ 100}

/-- The ranges of the numbers that a verb takes, in order. -/
def ranges : Verb → List (Set Int)
  | moveX | moveY | moveZ | rotateX | rotateY | rotateZ | scaleX | scaleY | scaleZ => [deltas]
  | move | rotate | scale => [deltas, deltas, deltas]
  | setMaterialColor | setLightColor => [channels, channels, channels, alphas]
  | setLightIntensity => [intensities]
  | addMaterial | spawn | call | broadcast | reparent | lookAt | unregister | destroy => []

/-- The place of the alpha among the numbers of a verb, if it takes one. -/
def alphaPlace? : Verb → Option Nat
  | setMaterialColor | setLightColor => some 3
  | _ => none

end Verb

namespace Extension
variable {v : Registers} {ram : Ram}

/-- A text that is a number of a range. -/
def IsIn (range : Set Int) (text : String) : Prop := ∃ z ∈ range, text = toString z

/-- A number has one text. -/
theorem isIn_toString_iff {range : Set Int} {n : Nat} : IsIn range (toString n) ↔ (n : Int) ∈ range := by
  constructor
  · intro ⟨z, member, same⟩
    have eq : (n : Int) = z := Text.toString_injective same
    exact eq ▸ member
  · intro member
    exact ⟨n, member, rfl⟩

theorem isIn_deltas (b : UInt8) : IsIn Verb.deltas (signedText b) :=
  ⟨b.toInt8.toInt, ⟨b.toInt8.le_toInt, Int.le_of_lt_add_one b.toInt8.toInt_lt⟩, rfl⟩

theorem isIn_channels (b : UInt8) : IsIn Verb.channels (numberText b) := by
  have small := b.toNat_lt
  exact isIn_toString_iff.mpr ⟨by omega, by omega⟩

theorem isIn_intensities (b : UInt8) : IsIn Verb.intensities (toString (min b.toNat 100)) :=
  isIn_toString_iff.mpr ⟨by omega, by omega⟩

theorem isIn_alphas_iff (b : UInt8) : IsIn Verb.alphas (numberText b) ↔ 1 ≤ b.toNat ∧ b.toNat ≤ 100 := by
  rw [numberText, isIn_toString_iff, Verb.alphas, Set.mem_ofPred_eq]
  omega

/-- What stands among the arguments of a verb in the place of a number: a number of its range, or the byte of V3 as the
alpha. -/
inductive Fits (v : Registers) (verb : Verb) (k : Nat) : Set Int → String → Prop
  | plain {range : Set Int} {text : String} (other : verb.alphaPlace? ≠ some k) (member : IsIn range text) :
      Fits v verb k range text
  | alpha (place : verb.alphaPlace? = some k) : Fits v verb k Verb.alphas (numberText v[(3 : Register)])

theorem fits_arguments (verb : Verb) {k : Nat} {range : Set Int} (ranged : verb.ranges[k]? = some range) :
    ∃ text, (arguments verb.operands v ram).value[k]? = some text ∧ Fits v verb k range text := by
  cases verb with
  | moveX | moveY | moveZ | rotateX | rotateY | rotateZ | scaleX | scaleY | scaleZ =>
    have args : (arguments (.signed 1) v ram).value = [signedText v[0]] := by
      rw [arguments, Noted.value_pure, take_one, List.map_singleton]
    rcases k with _ | k
    · cases ranged
      exact ⟨_, congrArg (·[0]?) args, .plain (by simp [Verb.alphaPlace?]) (isIn_deltas _)⟩
    · cases ranged
  | move | rotate | scale =>
    have args : (arguments (.signed 3) v ram).value = [signedText v[0], signedText v[1], signedText v[2]] := by
      rw [arguments, Noted.value_pure, take_three]
      rfl
    rcases k with _ | _ | _ | k
    iterate 3
      cases ranged
      exact ⟨_, congrArg (·[_]?) args, .plain (by simp [Verb.alphaPlace?]) (isIn_deltas _)⟩
    cases ranged
  | setMaterialColor | setLightColor =>
    have args : (arguments .color v ram).value =
        [numberText v[0], numberText v[1], numberText v[2], numberText v[3]] := by
      rw [arguments, Noted.value_pure, take_four]
      rfl
    rcases k with _ | _ | _ | _ | k
    iterate 3
      cases ranged
      exact ⟨_, congrArg (·[_]?) args, .plain (by simp [Verb.alphaPlace?]) (isIn_channels _)⟩
    · cases ranged
      exact ⟨_, congrArg (·[3]?) args, .alpha rfl⟩
    · cases ranged
  | setLightIntensity =>
    rcases k with _ | k
    · cases ranged
      exact ⟨_, rfl, .plain (by simp [Verb.alphaPlace?]) (isIn_intensities _)⟩
    · cases ranged
  | addMaterial | spawn | call | broadcast | reparent | lookAt | unregister | destroy => cases ranged

/-- Whatever the guest program has put into the registers and into memory, a command that is made of it has a number in
each place where its verb takes one, and the number is in its range. Only the alpha of a color may be out of range: it
is the byte of V3 as it stands, and so in range just when that is from 1 to 100. -/
theorem operands_in_range_unless_alpha (code : UInt8) (v : Registers) (i : UInt16) (ram : Ram) (window : TextWindow)
    {c : Command} (routed : (decode code v i ram window).value = .route (.command c)) :
    ∃ verb, Verb.ofCode? code = some verb ∧ c.verb = verb.name ∧
      ∀ k range, verb.ranges[k]? = some range → ∃ text, c.args[k]? = some text ∧
        (verb.alphaPlace? ≠ some k → IsIn range text) ∧
        (verb.alphaPlace? = some k → text = toString v[(3 : Register)].toNat ∧
          (IsIn range text ↔ 1 ≤ v[(3 : Register)].toNat ∧ v[(3 : Register)].toNat ≤ 100)) := by
  obtain ⟨target, -, ⟨payload, data⟩ | ⟨verb, found, command⟩⟩ := eq_of_decode_route routed
  · cases data
  · cases command
    refine ⟨verb, found, rfl, ?_⟩
    intro k range ranged
    have fitted : ∃ text, (arguments verb.operands v ram).value[k]? = some text ∧ Fits v verb k range text :=
      fits_arguments verb ranged
    obtain ⟨text, stands, fits⟩ := fitted
    refine ⟨text, stands, ?_⟩
    cases fits with
    | plain other member => exact ⟨fun _ => member, fun place => absurd place other⟩
    | alpha place => exact ⟨fun other => absurd place other, fun _ => ⟨rfl, isIn_alphas_iff _⟩⟩

/-- Red with an alpha of 100, which is the largest. -/
theorem full_alpha_in_range :
    let v : Registers := ((Vector.replicate 16 0).setIfInBounds 0 255).setIfInBounds 3 100
    let ram := ((⟨Vector.replicate _ 0, 0x50⟩ : Ram).writeAscii 0x300 "Lamp" 32).value.2
    let c : Command := ⟨"Lamp", "setMaterialColor", ["255", "0", "0", "100"]⟩
    (decode 0x11 v 0x300 ram ⟨0x1a0, 0x60⟩).value = .route (.command c) ∧
      IsIn Verb.channels "255" ∧ IsIn Verb.alphas "100" := by
  intro v ram c
  have routed : (decode 0x11 v 0x300 ram ⟨0x1a0, 0x60⟩).value = .route (.command c) := by decide +kernel
  obtain ⟨verb, found, -, numbers⟩ := operands_in_range_unless_alpha 0x11 v 0x300 ram ⟨0x1a0, 0x60⟩ routed
  have color : verb = .setMaterialColor := Option.some.inj (found.symm.trans rfl)
  subst color
  obtain ⟨red, stands, plain, -⟩ := numbers 0 _ rfl
  obtain ⟨alpha, stands', -, whole⟩ := numbers 3 _ rfl
  cases stands
  cases stands'
  exact ⟨routed, plain (by decide), (whole rfl).2.mpr (by decide)⟩

/-- An alpha of 200 is sent as it stands, and so is one of zero. -/
theorem alpha_leaves_range :
    let v : Registers := (Vector.replicate 16 0).setIfInBounds 3 200
    let ram := ((⟨Vector.replicate _ 0, 0x50⟩ : Ram).writeAscii 0x300 "Lamp" 32).value.2
    (decode 0x11 v 0x300 ram ⟨0x1a0, 0x60⟩).value =
        .route (.command ⟨"Lamp", "setMaterialColor", ["0", "0", "0", "200"]⟩) ∧
      (decode 0x12 (Vector.replicate 16 0) 0x300 ram ⟨0x1a0, 0x60⟩).value =
        .route (.command ⟨"Lamp", "setLightColor", ["0", "0", "0", "0"]⟩) ∧
      Verb.setMaterialColor.ranges[3]? = some Verb.alphas ∧ Verb.setLightColor.ranges[3]? = some Verb.alphas ∧
      ¬IsIn Verb.alphas "200" ∧ ¬IsIn Verb.alphas "0" := by
  refine ⟨by decide +kernel, by decide +kernel, rfl, rfl, ?_, ?_⟩
  · exact mt (isIn_alphas_iff 200).mp (by decide)
  · exact mt (isIn_alphas_iff 0).mp (by decide)

end Extension
end Chip8
