/-!
The commands that nodes understand. A verb has a name on the wire, a code in the extension opcodes,
and a fixed number of arguments.
-/

namespace Chip8

inductive Verb
  | moveX | moveY | moveZ | move
  | rotateX | rotateY | rotateZ | rotate
  | scaleX | scaleY | scaleZ | scale
  | addMaterial | setMaterialColor | setLightColor | setLightIntensity
  | spawn | call | broadcast | reparent | lookAt
  | unregister | destroy
  deriving DecidableEq, Repr

/-- Where the arguments of a verb come from when the guest program sends it. -/
inductive Operands
  | none
  /-- The first registers, as signed numbers. -/
  | signed (count : Nat)
  /-- V0 to V2 as channels and V3 as the alpha. -/
  | color
  /-- V0, at most 100. -/
  | percent
  /-- The text at the address in V0 and V1. -/
  | text
  deriving DecidableEq, Repr

/-- A node that cannot make sense of a command. -/
inductive NodeError
  | unrecognizedCommand (verb : String)
  | badArguments (verb : String) (expected found : Nat)
  deriving DecidableEq, Repr

def NodeError.message : NodeError → String
  | unrecognizedCommand verb => "unrecognized command: " ++ verb
  | badArguments verb expected found =>
    verb ++ " expects " ++ toString expected ++ " argument(s), got " ++ toString found

namespace Verb

/-- Every verb, by code. -/
def all : List Verb :=
  [moveX, moveY, moveZ, move, rotateX, rotateY, rotateZ, rotate, scaleX, scaleY, scaleZ, scale,
   addMaterial, setMaterialColor, setLightColor, setLightIntensity, spawn, call, broadcast, reparent,
   lookAt, unregister, destroy]

def name : Verb → String
  | moveX => "moveX"
  | moveY => "moveY"
  | moveZ => "moveZ"
  | move => "move"
  | rotateX => "rotateX"
  | rotateY => "rotateY"
  | rotateZ => "rotateZ"
  | rotate => "rotate"
  | scaleX => "scaleX"
  | scaleY => "scaleY"
  | scaleZ => "scaleZ"
  | scale => "scale"
  | addMaterial => "addMaterial"
  | setMaterialColor => "setMaterialColor"
  | setLightColor => "setLightColor"
  | setLightIntensity => "setLightIntensity"
  | spawn => "spawn"
  | call => "call"
  | broadcast => "broadcast"
  | reparent => "reparent"
  | lookAt => "lookAt"
  | unregister => "unregister"
  | destroy => "destroy"

/-- The lower byte of the extension word that sends the verb. -/
def code : Verb → UInt8
  | moveX => 0x01
  | moveY => 0x02
  | moveZ => 0x03
  | move => 0x04
  | rotateX => 0x05
  | rotateY => 0x06
  | rotateZ => 0x07
  | rotate => 0x08
  | scaleX => 0x09
  | scaleY => 0x0a
  | scaleZ => 0x0b
  | scale => 0x0c
  | addMaterial => 0x10
  | setMaterialColor => 0x11
  | setLightColor => 0x12
  | setLightIntensity => 0x13
  | spawn => 0x14
  | call => 0x20
  | broadcast => 0x21
  | reparent => 0x22
  | lookAt => 0x23
  | unregister => 0x24
  | destroy => 0x25

def operands : Verb → Operands
  | moveX | moveY | moveZ | rotateX | rotateY | rotateZ | scaleX | scaleY | scaleZ => .signed 1
  | move | rotate | scale => .signed 3
  | setMaterialColor | setLightColor => .color
  | setLightIntensity => .percent
  | spawn | call | broadcast | reparent | lookAt => .text
  | addMaterial | unregister | destroy => .none

/-- The number of arguments that follow the verb. -/
def arity (v : Verb) : Nat :=
  match v.operands with
  | .none => 0
  | .signed count => count
  | .color => 4
  | .percent | .text => 1

def ofCode? (code : UInt8) : Option Verb := all.find? (·.code == code)

def ofName? (name : String) : Option Verb := all.find? (·.name == name)

theorem ofName?_name (v : Verb) : ofName? v.name = some v := by cases v <;> rfl

/-- A verb has one name and shares it with no other. -/
theorem ofName?_eq_some_iff {text : String} {v : Verb} : ofName? text = some v ↔ text = v.name := by
  constructor
  · intro h
    have found := List.find?_some h
    exact (eq_of_beq found).symm
  · rintro rfl
    exact ofName?_name v

def parse (text : String) : Except NodeError Verb :=
  match ofName? text with
  | some v => .ok v
  | none => .error (.unrecognizedCommand text)

/-- Reads the name of a verb that has come with the right number of arguments. -/
def check (text : String) (args : List String) : Except NodeError Verb :=
  match parse text with
  | .error e => .error e
  | .ok v =>
    if args.length = v.arity then .ok v
    else .error (.badArguments text v.arity args.length)

theorem name_of_check {text : String} {args : List String} {v : Verb} (h : check text args = .ok v) :
    v.name = text := by
  unfold check parse at h
  split at h
  · cases h
  · next named =>
    split at named
    · next found =>
      cases named
      split at h
      · cases h
        exact (ofName?_eq_some_iff.mp found).symm
      · cases h
    · cases named

end Verb
end Chip8
