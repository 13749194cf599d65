import Chip8.Address
import Chip8.Bench
import Chip8.CommandLine
import Chip8.Config
import Chip8.Control
import Chip8.Demo
import Chip8.Digits
import Chip8.Envelope
import Chip8.Event
import Chip8.Extension
import Chip8.Fault
import Chip8.Font
import Chip8.Instruction
import Chip8.Log
import Chip8.Machine.Basic
import Chip8.Machine.Execute
import Chip8.Main
import Chip8.Network.Basic
import Chip8.Network.Call
import Chip8.Network.Change
import Chip8.Network.Message
import Chip8.Network.Nesting
import Chip8.Network.Node
import Chip8.Noted
import Chip8.Number.Precision
import Chip8.Number.Shortest
import Chip8.Opcode
import Chip8.Path
import Chip8.Program
import Chip8.Ram
import Chip8.Random
import Chip8.Screen
import Chip8.Screen.Sketch
import Chip8.Sixteen
import Chip8.Status
import Chip8.Terminal.Bitplane
import Chip8.Terminal.Console
import Chip8.Terminal.Frame
import Chip8.Terminal.Key
import Chip8.Terminal.Keyboard
import Chip8.Terminal.Paint
import Chip8.Terminal.Speaker
import Chip8.Text.Fields
import Chip8.Text.Hex
import Chip8.Text.Numeral
import Chip8.Text.Quoted
import Chip8.Text.Unprintable
import Chip8.Verb
import Chip8.World.Basic
import Chip8.World.Frame
import Chip8.World.Operation
import Chip8.World.Reset
import Chip8.World.Step
import Chip8.Proofs.Network.Course
import Chip8.Proofs.Network.Running
import Chip8.Proofs.Network.Termination
import Chip8.Proofs.Network.Changes
import Chip8.Proofs.Network.Busy
import Chip8.Proofs.Network.Delivery
import Chip8.Proofs.Network.Broadcast
import Chip8.Proofs.Network.Inbox
import Chip8.Proofs.Network.LastCalls
import Chip8.Proofs.Machine.Bounds
import Chip8.Proofs.World.Ends
import Chip8.Proofs.World.Safety
import Chip8.Proofs.Machine.Effect
import Chip8.Proofs.Machine.Asides
import Chip8.Proofs.Machine.Memory
import Chip8.Proofs.Machine.Strings
import Chip8.Proofs.Machine.Agreement
import Chip8.Proofs.Machine.Modes
import Chip8.Proofs.Text.Numeral
import Chip8.Proofs.Envelope
import Chip8.Proofs.Network.Listening
import Chip8.Proofs.Extension
import Chip8.Proofs.Extension.Ranges
import Chip8.Proofs.Screen
import Chip8.Proofs.World.Moves
import Chip8.Proofs.World.Passage
import Chip8.Proofs.World.Landmarks
import Chip8.Proofs.World.Display
import Chip8.Proofs.World.Turns
import Chip8.Proofs.World.Font
import Chip8.Proofs.World.Calls
import Chip8.Proofs.World.DeviceCalls
import Chip8.Proofs.World.Timers
import Chip8.Proofs.World.Tone
import Chip8.Proofs.World.Frames
import Chip8.Proofs.World.Mail
import Chip8.Proofs.World.Pairs
import Chip8.Proofs.World.PowerOn
import Chip8.Proofs.World.GuestReset
import Chip8.Proofs.World.Stopped
import Chip8.Proofs.World.Failures
import Chip8.Proofs.World.Isolation
import Chip8.Proofs.World.Twins
import Chip8.Proofs.World.Ticks
import Chip8.Proofs.World.Retry
import Chip8.Proofs.World.MailAddress
import Chip8.Proofs.Screen.Sprite
import Chip8.Proofs.World.Window
import Chip8.Proofs.Instruction
import Chip8.Proofs.Machine.Registers
import Chip8.Proofs.Machine.Footprint
import Chip8.Proofs.World.Words
import Chip8.Proofs.World.Bounds
import Chip8.Proofs.World.Halts
import Chip8.Proofs.World.Arithmetic
import Chip8.Proofs.Screen.Drawings
import Chip8.Proofs.World.Redraw
import Chip8.Proofs.World.Soundings
import Chip8.Proofs.World.Countdown
import Chip8.Proofs.World.FrameSteps
import Chip8.Proofs.Network.Unheeded
import Chip8.Proofs.Network.Quiet
import Chip8.Proofs.Network.Arity
import Chip8.Proofs.Network.Locality
import Chip8.Proofs.Network.Sweep
import Chip8.Proofs.World.Budget
import Chip8.Proofs.Terminal.Hold
import Chip8.Proofs.World.Blocks
import Chip8.Proofs.World.RandomNumbers
import Chip8.Proofs.World.KeyWait
import Chip8.Proofs.Address
import Chip8.Proofs.Config
import Chip8.Proofs.Network.History
import Chip8.Proofs.Terminal.Bitplane
import Chip8.Proofs.World.Digits
