import Chip8.Address
import Chip8.Config
import Chip8.Text.Fields

/-!
The command line. An option's value follows it, or stands behind an equals sign in the same argument; a
value that starts with a hyphen needs the equals sign, except that a hyphen alone is a value. Two
hyphens end the options. Options may come in any order, each once, and `--node` any number of times;
the one argument without an option is the program's file.

Arguments are read from the left. The value of an option that stands in an argument of its own is
settled when the next option or the end is reached, so an unknown option behind it is reported first.
-/

namespace Chip8.CommandLine

structure Arguments where
  rom : Option String := none
  boot : Option UInt16 := none
  font : Option UInt16 := none
  windowAddress : Option UInt16 := none
  windowSize : Option UInt16 := none
  clock : Option UInt32 := none
  ticks : Option UInt64 := none
  seed : Option UInt64 := none
  inbox : Option String := none
  nodes : List String := []
  extensions : Bool := false
  trace : Bool := false
  mute : Bool := false
  deriving DecidableEq, Repr

inductive Refusal
  | unknownArgument
  /-- An option without its value, or an empty name of a file. -/
  | invalidValue
  /-- An option that is given twice. -/
  | argumentConflict
  /-- A value for an option that takes none. -/
  | tooManyValues
  | valueValidation (message : String)
  /-- Not an error: help is asked for. -/
  | displayHelp
  deriving DecidableEq, Repr

def Refusal.message : Refusal → String
  | unknownArgument => "unknown argument"
  | invalidValue => "a value is missing"
  | argumentConflict => "an option is given twice"
  | tooManyValues => "an option takes no value"
  | valueValidation message => message
  | displayHelp => usage
where
  usage : String :=
    "Usage: chip8 [OPTIONS] [ROM]\n\n" ++
    "  --boot ADDR            where the program starts\n" ++
    "  --font ADDR            where the font lies\n" ++
    "  --data-port ADDR       where the text window starts\n" ++
    "  --data-port-size SIZE  how many bytes the text window has\n" ++
    "  --clock COUNT          instructions in one frame\n" ++
    "  --extensions           carry out extension words\n" ++
    "  --trace                log the registers before every instruction\n" ++
    "  --ticks COUNT          stop after so many frames\n" ++
    "  --node NAME            make a logging node (repeatable)\n" ++
    "  --inbox NAME           the name of the machine among the nodes\n" ++
    "  --mute                 no sound\n" ++
    "  --seed NUMBER          fix the random numbers\n"

/-- The arguments that have a value. -/
inductive Setting
  | rom | boot | font | windowAddress | windowSize | clock | ticks | seed | inbox | node
  deriving DecidableEq, Repr

/-- The options that have none. -/
inductive Switch
  | extensions | trace | mute | help
  deriving DecidableEq, Repr

inductive Flag
  | setting (s : Setting)
  | switch (s : Switch)
  deriving DecidableEq, Repr

def option? : String → Option Flag
  | "boot" => some (.setting .boot)
  | "font" => some (.setting .font)
  | "data-port" => some (.setting .windowAddress)
  | "data-port-size" => some (.setting .windowSize)
  | "clock" => some (.setting .clock)
  | "ticks" => some (.setting .ticks)
  | "seed" => some (.setting .seed)
  | "inbox" => some (.setting .inbox)
  | "node" => some (.setting .node)
  | "extensions" => some (.switch .extensions)
  | "trace" => some (.switch .trace)
  | "mute" => some (.switch .mute)
  | "help" => some (.switch .help)
  | _ => none

/-! ### Values -/

def readAddr (text : String) : Except Refusal UInt16 :=
  (parseAddress text).mapError fun e => .valueValidation e.message

def readWord (text : String) : Except Refusal UInt64 :=
  match Text.readNatural 10 (UInt64.size - 1) text.toList with
  | .ok n => .ok (UInt64.ofNat n)
  | .error cause => .error (.valueValidation cause.message)

/-- Reads a number of 32 bits. It is read as a wider one, and its range is checked afterwards. -/
def readClock (text : String) : Except Refusal UInt32 :=
  match Text.readInteger 64 text.toList with
  | .error cause => .error (.valueValidation cause.message)
  | .ok n =>
    if 0 ≤ n ∧ n < UInt32.size then .ok (UInt32.ofNat n.toNat)
    else .error (.valueValidation (toString n ++ " is not in 0..=4294967295"))

def readPath (text : String) : Except Refusal String :=
  if text.isEmpty then .error .invalidValue else .ok text

/-- The value of an option that was not given before. -/
def once {α β : Type} (before : Option α) (value : Except Refusal β) : Except Refusal (Option β) :=
  if before.isSome then .error .argumentConflict else value.map some

def Arguments.assign (a : Arguments) (value : String) : Setting → Except Refusal Arguments
  | .rom => return { a with rom := ← once a.rom (readPath value) }
  | .boot => return { a with boot := ← once a.boot (readAddr value) }
  | .font => return { a with font := ← once a.font (readAddr value) }
  | .windowAddress => return { a with windowAddress := ← once a.windowAddress (readAddr value) }
  | .windowSize => return { a with windowSize := ← once a.windowSize (readAddr value) }
  | .clock => return { a with clock := ← once a.clock (readClock value) }
  | .ticks => return { a with ticks := ← once a.ticks (readWord value) }
  | .seed => return { a with seed := ← once a.seed (readWord value) }
  | .inbox => return { a with inbox := ← once a.inbox (.ok value) }
  | .node => return { a with nodes := a.nodes ++ [value] }

/-- The switch after it is turned on, which can be done once. -/
def turnOn (before : Bool) : Except Refusal Bool :=
  if before then .error .argumentConflict else .ok true

def Arguments.switch (a : Arguments) : Switch → Except Refusal Arguments
  | .extensions => return { a with extensions := ← turnOn a.extensions }
  | .trace => return { a with trace := ← turnOn a.trace }
  | .mute => return { a with mute := ← turnOn a.mute }
  | .help => .error .displayHelp

/-! ### Arguments -/

/-- How far a command line was read. -/
structure Progress where
  arguments : Arguments := {}
  /-- The setting that is not settled yet, with its value if that has come. -/
  pending : Option (Setting × Option String) := none
  /-- A file's name was given. -/
  positional : Bool := false
  /-- The options have ended. -/
  ended : Bool := false

namespace Progress

def settle (p : Progress) : Except Refusal Progress :=
  match p.pending with
  | none => .ok p
  | some (_, none) => .error .invalidValue
  | some (setting, some value) =>
    return { p with arguments := ← p.arguments.assign value setting, pending := none }

/-- Takes an option without its two hyphens. -/
def takeOption (p : Progress) (body : List Char) : Except Refusal Progress :=
  let (name, value) := match Text.cut? '=' body with
    | some (name, value) => (name, some (String.ofList value))
    | none => (body, none)
  match option? (String.ofList name), value with
  | none, _ => .error .unknownArgument
  | some (.switch _), some _ => .error .tooManyValues
  | some (.switch s), none => do
    let p ← p.settle
    return { p with arguments := ← p.arguments.switch s }
  | some (.setting s), some value => do
    let p ← p.settle
    return { p with arguments := ← p.arguments.assign value s }
  | some (.setting s), none => do
    let p ← p.settle
    return { p with pending := some (s, none) }

def takePositional (p : Progress) (text : String) : Except Refusal Progress :=
  if p.positional then .error .unknownArgument
  else do
    let p ← p.settle
    return { p with positional := true, pending := some (.rom, some text) }

/-- Takes an argument that is no option: a value that is waited for, or a file's name. -/
def takePlain (p : Progress) (text : String) : Except Refusal Progress :=
  match p.pending with
  | some (setting, none) => .ok { p with pending := some (setting, some text) }
  | _ => p.takePositional text

def take (p : Progress) (text : String) : Except Refusal Progress :=
  if p.ended then p.takePositional text
  else
    match text.toList with
    | '-' :: '-' :: [] => .ok { p with ended := true }
    | '-' :: '-' :: body => p.takeOption body
    | '-' :: 'h' :: _ => do
      let _ ← p.settle
      .error .displayHelp
    | '-' :: _ :: _ => .error .unknownArgument
    | _ => p.takePlain text

end Progress

def parse (argv : List String) : Except Refusal Arguments := do
  let p ← argv.foldlM Progress.take {}
  return (← p.settle).arguments

namespace Arguments

/-- The machine's settings. A frame of the program runs ten instructions when nothing else is chosen. -/
def config (a : Arguments) : Config :=
  let standard : Config := {}
  { bootAddress := a.boot.getD standard.bootAddress
    fontAddress := a.font.getD standard.fontAddress
    window :=
      ⟨a.windowAddress.getD standard.window.address, a.windowSize.getD standard.window.size⟩
    clockMultiplier := a.clock.getD 10
    compatibility := !a.extensions
    logging := a.trace
    program := none
    romPath := a.rom
    seed := a.seed
    inboxName := a.inbox.getD standard.inboxName }

/-- The log that is written when nothing else is chosen: what goes wrong, and with `--trace` what the
program does as well. -/
def logFilter (a : Arguments) : String := if a.trace then "warn,chip8_net=info" else "warn"

end Arguments
end Chip8.CommandLine
