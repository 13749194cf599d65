import Chip8.Config
import Chip8.Text.Quoted

/-!
What can go wrong around a machine: a device fails, or the settings do not fit together. Whatever the
guest program does is not a fault; bad programs halt.
-/

namespace Chip8

inductive IoKind
  | notFound
  | notADirectory
  | isADirectory
  | invalidInput
  | other
  deriving DecidableEq, Repr

def IoKind.name : IoKind → String
  | notFound => "NotFound"
  | notADirectory => "NotADirectory"
  | isADirectory => "IsADirectory"
  | invalidInput => "InvalidInput"
  | other => "Other"

/-- A failure of a device: the operating system's, with its number, or the device's own. -/
inductive IoError
  | system (code : Nat) (kind : IoKind) (text : String)
  | device (kind : IoKind) (text : String)
  deriving DecidableEq, Repr

namespace IoError

def noSuchFile : IoError := system 2 .notFound "No such file or directory"

def kind : IoError → IoKind
  | system _ kind _ => kind
  | device kind _ => kind

def message : IoError → String
  | system code _ text => text ++ " (os error " ++ toString code ++ ")"
  | device _ text => text

/-- The error with its fields, which is how a failed run is reported. -/
def report : IoError → String
  | system code kind text =>
    "Os \x7b code: " ++ toString code ++ ", kind: " ++ kind.name ++ ", message: " ++
      Text.quoted text ++ " \x7d"
  | device kind text =>
    "Custom \x7b kind: " ++ kind.name ++ ", error: " ++ Text.quoted text ++ " \x7d"

end IoError

inductive Fault
  | io (cause : IoError)
  | sound (text : String)
  | config (cause : ConfigError)
  /-- An index or a sum left its range, or an inbox was opened while it was at work. -/
  | crash
  deriving DecidableEq, Repr

namespace Fault

def message : Fault → String
  | io cause => "io error: " ++ cause.message
  | sound text => "sound error: " ++ text
  | config cause => "invalid configuration: " ++ cause.message
  | crash => "out of range"

def report : Fault → String
  | io cause => "Io(" ++ cause.report ++ ")"
  | sound text => "Sound(" ++ Text.quoted text ++ ")"
  | config cause => "Config(" ++ cause.report ++ ")"
  | crash => "Crash"

end Fault
end Chip8
