import Chip8.Program
import Chip8.Terminal.Paint

/-!
The command. It runs the program at sixty frames a second, paints a frame when there is a new one, and
writes the log to the standard error. A line that is typed counts as its keys.
-/

namespace Chip8.Program

open Terminal (Console)

/-- The contents of the file at a path, or why they cannot be had. -/
def readProgram (path : String) : IO (Except IoError (List UInt8)) := do
  try
    return .ok (← IO.FS.readBinFile path).toList
  catch
    | .noFileOrDirectory _ _ _ => return .error .noSuchFile
    | e => return .error (.device .other (toString e))

/-- Paints the frame, if it is not the one that was painted last, and writes the log. -/
def showWorld (level : Level) (painted : Option (List UInt8)) (w : World Console) :
    IO (Option (List UInt8) × World Console) := do
  for line in lines level w.trace.reverse do
    IO.eprintln line
  let pixels := w.devices.shown.map (·.pixels)
  if let some frame := w.devices.shown then
    if pixels != painted then
      IO.print frame.paint
      (← IO.getStdout).flush
  return (pixels, { w with trace := [] })

def failWith (failure : Failure) : IO UInt32 := do
  IO.eprintln failure.text
  return 1

partial def frames (a : CommandLine.Arguments) (ticks : Nat) (painted : Option (List UInt8))
    (typing : Task (Except IO.Error String)) (w : World Console) : IO UInt32 := do
  let (painted, w) ← showWorld (logLevel a) painted w
  let arrived ← IO.hasFinished typing
  let line := if arrived then (typing.get.toOption.getD "") else ""
  let typing ← if line.isEmpty then pure typing else IO.asTask (← IO.getStdin).getLine
  let typed := w.devices.typed ++ line.trimAsciiEnd.toString.toList
  let w := { w with devices := { w.devices with typed } }
  let left := match a.ticks with
    | some n => min 1 (n.toNat - ticks)
    | none => 1
  match failing (Act.runFrames left ticks) w with
  | (.error failure, w) => do
    let _ ← showWorld (logLevel a) painted w
    failWith failure
  | (.ok after, w) =>
    if after = ticks then do
      let (_, w) := failing (Act.endFrames ticks >>= fun _ => conclude ticks) w
      let _ ← showWorld (logLevel a) painted w
      IO.println ""
      return 0
    else do
      IO.sleep 16
      frames a after painted typing w

/-- Runs the program on the real devices; the result is its exit code. -/
def execute (argv : List String) : IO UInt32 := do
  match CommandLine.parse argv with
  | .error .displayHelp => do
    IO.print CommandLine.Refusal.displayHelp.message
    return 0
  | .error refusal => do
    IO.eprintln ("error: " ++ refusal.message)
    return 2
  | .ok a => do
    let file ← match a.rom with
      | some path => readProgram path
      | none => pure (.error .noSuchFile)
    let entropy := UInt64.ofNat (← IO.monoNanosNow)
    match build a (console a (fun _ => file) "") entropy with
    | .error failure => failWith failure
    | .ok w =>
      IO.print Terminal.clearScreen
      match start a.nodes w with
      | (.error failure, w) => do
        let _ ← showWorld (logLevel a) none w
        failWith failure
      | (.ok (), w) => do
        let typing ← IO.asTask (← IO.getStdin).getLine
        frames a 0 none typing w

end Chip8.Program

def main (argv : List String) : IO UInt32 := Chip8.Program.execute argv
