import Chip8.Text.Fields
import Chip8.Text.Quoted

/-!
Messages between the machine and the nodes. A message names its target. On the wire it is text: the
target, a bar, and then the verb with its arguments behind tildes, or free data.
-/

namespace Chip8

/-- A command for the node of a name. -/
structure Command where
  target : String
  verb : String
  args : List String
  deriving DecidableEq, Repr

/-- Free data for the node of a name. -/
structure Data where
  target : String
  payload : String
  deriving DecidableEq, Repr

inductive Envelope
  | command (command : Command)
  | data (data : Data)
  deriving DecidableEq, Repr

inductive CodecError
  | missingSeparator (text : String)
  | emptyTarget (text : String)
  deriving DecidableEq, Repr

def CodecError.message : CodecError → String
  | missingSeparator text => "envelope has no '|' separator: " ++ Text.quoted text
  | emptyTarget text => "envelope has an empty target name: " ++ Text.quoted text

namespace Envelope

def targetSeparator : Char := '|'

def fieldSeparator : Char := '~'

/-- A verb and its arguments, each argument behind a separator of its own. -/
def fieldsText (verb : String) (args : List String) : String :=
  verb ++ String.join (args.map fun a => String.singleton fieldSeparator ++ a)

/-- Divides a text into the target, which is not empty, and the rest. -/
def splitTarget (text : String) : Except CodecError (List Char × List Char) :=
  match Text.cut? targetSeparator text.toList with
  | none => .error (.missingSeparator text)
  | some ([], _) => .error (.emptyTarget text)
  | some parts => .ok parts

end Envelope

namespace Command

def text (c : Command) : String :=
  c.target ++ String.singleton Envelope.targetSeparator ++ Envelope.fieldsText c.verb c.args

def parse (text : String) : Except CodecError Command :=
  match Envelope.splitTarget text with
  | .error e => .error e
  | .ok (target, rest) =>
    let fields := Text.divide Envelope.fieldSeparator rest
    .ok ⟨String.ofList target, String.ofList fields.1, fields.2.map String.ofList⟩

end Command

namespace Data

def text (d : Data) : String :=
  d.target ++ String.singleton Envelope.targetSeparator ++ d.payload

/-- Reads data off the wire. The payload may hold any character. -/
def parse (text : String) : Except CodecError Data :=
  match Envelope.splitTarget text with
  | .error e => .error e
  | .ok (target, rest) => .ok ⟨String.ofList target, String.ofList rest⟩

end Data

namespace Envelope

def target : Envelope → String
  | command c => c.target
  | data d => d.target

def text : Envelope → String
  | command c => c.text
  | data d => d.text

end Envelope
end Chip8
