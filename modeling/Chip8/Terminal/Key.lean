import Chip8.Text.Quoted

/-!
What is typed at a terminal, as events. A terminal sends characters; the keys without a character, and
the mouse, send an escape sequence. A character after an escape was typed with the ALT key, and the
controls of ASCII were typed with CONTROL.
-/

namespace Chip8.Terminal

inductive KeyCode
  | char (c : Char)
  | enter | tab | backspace | escape
  | up | down | right | left | home | toEnd | backTab
  | delete | pageUp | pageDown | insert | null
  | function (n : Nat)
  deriving DecidableEq, Repr

def KeyCode.name : KeyCode → String
  | char c => "Char(" ++ Text.quotedChar c ++ ")"
  | enter => "Enter"
  | tab => "Tab"
  | backspace => "Backspace"
  | escape => "Esc"
  | up => "Up"
  | down => "Down"
  | right => "Right"
  | left => "Left"
  | home => "Home"
  | toEnd => "End"
  | backTab => "BackTab"
  | delete => "Delete"
  | pageUp => "PageUp"
  | pageDown => "PageDown"
  | insert => "Insert"
  | null => "Null"
  | function n => "F(" ++ toString n ++ ")"

structure KeyPress where
  code : KeyCode
  control : Bool := false
  alt : Bool := false
  deriving DecidableEq, Repr

inductive Button
  | left | middle | right
  deriving DecidableEq, Repr

def Button.name : Button → String
  | left => "Left"
  | middle => "Middle"
  | right => "Right"

/-- A button of the mouse that went down, or up again, over a cell. -/
structure MouseClick where
  button : Button
  released : Bool
  column : Nat
  row : Nat
  deriving DecidableEq, Repr

def MouseClick.name (m : MouseClick) : String :=
  "Mouse(MouseEvent \x7b kind: " ++ (if m.released then "Up(" else "Down(") ++ m.button.name ++
    "), column: " ++ toString m.column ++ ", row: " ++ toString m.row ++ ", modifiers: NONE \x7d)"

inductive TypedEvent
  | key (press : KeyPress)
  | mouse (click : MouseClick)
  /-- Anything else that a terminal tells, such as its new size, a turn of the mouse's wheel or a way that the
  mouse was dragged, as it is named. -/
  | other (name : String)
  deriving DecidableEq, Repr

namespace TypedEvent

def pressOf (c : Char) : KeyPress :=
  let n := c.toNat
  if c = '\r' then { code := .enter }
  else if c = '\t' then { code := .tab }
  else if n = 0x7f then { code := .backspace }
  else if n = 0 then { code := .char ' ', control := true }
  else if n ≤ 0x1a then { code := .char (Char.ofNat ('a'.toNat + (n - 1))), control := true }
  else if 0x1c ≤ n ∧ n ≤ 0x1f then
    { code := .char (Char.ofNat ('4'.toNat + (n - 0x1c))), control := true }
  else { code := .char c }

/-- The decimal number at the start of a text, and what is left behind it. -/
def number (cs : List Char) : Nat × List Char :=
  ((cs.takeWhile Char.isDigit).foldl (fun n c => 10 * n + (c.toNat - '0'.toNat)) 0,
    cs.dropWhile Char.isDigit)

def button? : Nat → Option Button
  | 0 => some .left
  | 1 => some .middle
  | 2 => some .right
  | _ => none

/-- Reads the report of a click: the button, the column and the row, both from 1. -/
def click? (cs : List Char) : Option (TypedEvent × List Char) := do
  let (button, cs) := number cs
  let button ← button? button
  let (column, cs) := number (← cs.head?.bind fun c => if c = ';' then some (cs.drop 1) else none)
  let (row, cs) := number (← cs.head?.bind fun c => if c = ';' then some (cs.drop 1) else none)
  match cs with
  | 'M' :: rest => some (.mouse ⟨button, false, column - 1, row - 1⟩, rest)
  | 'm' :: rest => some (.mouse ⟨button, true, column - 1, row - 1⟩, rest)
  | _ => none

/-- Reads an escape sequence, without the escape in front. -/
def sequence? : List Char → Option (TypedEvent × List Char)
  | '[' :: 'A' :: rest => some (.key { code := .up }, rest)
  | '[' :: 'B' :: rest => some (.key { code := .down }, rest)
  | '[' :: 'C' :: rest => some (.key { code := .right }, rest)
  | '[' :: 'D' :: rest => some (.key { code := .left }, rest)
  | '[' :: 'H' :: rest => some (.key { code := .home }, rest)
  | '[' :: 'F' :: rest => some (.key { code := .toEnd }, rest)
  | '[' :: 'Z' :: rest => some (.key { code := .backTab }, rest)
  | '[' :: '3' :: '~' :: rest => some (.key { code := .delete }, rest)
  | '[' :: '5' :: '~' :: rest => some (.key { code := .pageUp }, rest)
  | '[' :: '6' :: '~' :: rest => some (.key { code := .pageDown }, rest)
  | '[' :: '<' :: rest => click? rest
  | 'O' :: 'P' :: rest => some (.key { code := .function 1 }, rest)
  | 'O' :: 'Q' :: rest => some (.key { code := .function 2 }, rest)
  | 'O' :: 'R' :: rest => some (.key { code := .function 3 }, rest)
  | 'O' :: 'S' :: rest => some (.key { code := .function 4 }, rest)
  | _ => none

/-- Reads what follows an escape: a sequence, a second escape, or a character typed with ALT. -/
def afterEscape : List Char → TypedEvent × List Char
  | [] => (.key { code := .escape }, [])
  | c :: rest =>
    if c = '\x1b' then (.key { code := .escape }, rest)
    else
      match sequence? (c :: rest) with
      | some event => event
      | none => (.key { pressOf c with alt := true }, rest)

/-- Reads at most `limit` events. -/
def readUpTo : (limit : Nat) → List Char → List TypedEvent
  | 0, _ => []
  | _, [] => []
  | limit + 1, c :: rest =>
    if c = '\x1b' then
      let (event, rest) := afterEscape rest
      event :: readUpTo limit rest
    else .key (pressOf c) :: readUpTo limit rest

/-- The events that a typed text makes. An event takes at least one character. -/
def read (typed : List Char) : List TypedEvent := readUpTo typed.length typed

end TypedEvent
end Chip8.Terminal
