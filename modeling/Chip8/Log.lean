/-!
Lines of the log. A line has a level, the part of the system that wrote it, and a message; the lines
of a node also have its name.
-/

namespace Chip8

inductive Level
  | error
  | warn
  | info
  | debug
  | trace
  deriving DecidableEq, Repr

namespace Level

/-- How much detail the level adds; 0 is the most severe. -/
def detail : Level → Nat
  | error => 0
  | warn => 1
  | info => 2
  | debug => 3
  | trace => 4

def name : Level → String
  | error => "ERROR"
  | warn => "WARN"
  | info => "INFO"
  | debug => "DEBUG"
  | trace => "TRACE"

/-- Whether a log set to this level shows a line of level `line`. -/
def shows (level line : Level) : Bool := line.detail ≤ level.detail

end Level

/-- The parts of the system that write to the log. -/
inductive Source
  | memory | display | extension | network | node | machine | input | sound | program
  deriving DecidableEq, Repr

/-- The name by which a log filter knows the part. -/
def Source.target : Source → String
  | memory => "chip8_net::memory"
  | display => "chip8_net::display"
  | extension => "chip8_net::extension"
  | network => "chip8_net::router"
  | node => "chip8_net::node"
  | machine => "chip8_net::interpreter"
  | input => "chip8_net::input"
  | sound => "chip8_net::sound"
  | program => "chip8_net"

structure Line where
  level : Level
  source : Source
  message : String
  node : Option String := none
  deriving DecidableEq, Repr

namespace Line

/-- The message, and behind it the name of the node. -/
def body (l : Line) : String :=
  match l.node with
  | none => l.message
  | some name => l.message ++ " node=" ++ name

def text (l : Line) : String := l.level.name ++ " " ++ l.body

def sourcedText (l : Line) : String :=
  l.level.name ++ " " ++ l.source.target ++ ": " ++ l.body

end Line
end Chip8
