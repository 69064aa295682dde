import ChipEight.CallStack
import ChipEight.CommandLine.Options
import ChipEight.CommandLine.Parser
import ChipEight.CommandLine.Reader
import ChipEight.CommandLine.Token
import ChipEight.Countdown
import ChipEight.Display.Palette
import ChipEight.Display.Texture
import ChipEight.Display.Window
import ChipEight.Execution
import ChipEight.Execution.Continuation
import ChipEight.Execution.Effect
import ChipEight.Execution.Refusal
import ChipEight.Fault
import ChipEight.Font
import ChipEight.Frame
import ChipEight.Frame.Sprite
import ChipEight.Instruction
import ChipEight.Instruction.Encoding
import ChipEight.Instruction.Fields
import ChipEight.Instruction.Mnemonic
import ChipEight.Keypad
import ChipEight.Layout
import ChipEight.Machine
import ChipEight.Machine.History
import ChipEight.Machine.Loading
import ChipEight.Machine.Record
import ChipEight.Machine.Step
import ChipEight.Main
import ChipEight.Memory
import ChipEight.Memory.Span
import ChipEight.Pacing
import ChipEight.Random.Cipher
import ChipEight.Random.Seed
import ChipEight.Random.Source
import ChipEight.RegisterFile
import ChipEight.Session
import ChipEight.Session.Binding
import ChipEight.Session.Event
import ChipEight.Session.Notice
import ChipEight.Session.Opening
import ChipEight.Session.Script
import ChipEight.Severity
import ChipEight.State
import ChipEight.State.Dump
import ChipEight.Terminal
import ChipEight.Text.Numeral
import ChipEight.Text.Sink
import ChipEight.Word
import ChipEight.Proofs.Instruction.Decoding
import ChipEight.Proofs.Machine.Stepping
import ChipEight.Proofs.Instruction.Footprint
import ChipEight.Proofs.Machine.Reachability
import ChipEight.Proofs.Frame.Drawing
import ChipEight.Proofs.Machine.Safety
import ChipEight.Proofs.Machine.FontIntegrity
import ChipEight.Proofs.Machine.Redraw
import ChipEight.Proofs.Instruction.Changes
import ChipEight.Proofs.Machine.Overwriting
import ChipEight.Proofs.Session.Screen
import ChipEight.Proofs.Instruction.Refusal
import ChipEight.Proofs.Instruction.Encoding
import ChipEight.Proofs.Instruction.Form
import ChipEight.Proofs.Machine.Assembly
import ChipEight.Proofs.Machine.Nesting
import ChipEight.Proofs.Instruction.Adjustment
import ChipEight.Proofs.Machine.Interleaving
import ChipEight.Proofs.Machine.Handoff
import ChipEight.Proofs.Machine.Randomness
import ChipEight.Proofs.Machine.KeyHistory
import ChipEight.Proofs.Machine.Timers
import ChipEight.Proofs.Machine.Reports
import ChipEight.Proofs.Machine.Likeness
import ChipEight.Proofs.Machine.Stuck
import ChipEight.Proofs.Session.Restart
import ChipEight.Proofs.Instruction.Crash
import ChipEight.Proofs.Instruction.Draw
import ChipEight.Proofs.Machine.DeadSlots
import ChipEight.Proofs.Session.Batches
import ChipEight.Proofs.Session.Input
import ChipEight.Proofs.Machine.Loading
import ChipEight.Proofs.Instruction.Arithmetic
import ChipEight.Proofs.Instruction.Transfer
import ChipEight.Proofs.Frame.Overlay
import ChipEight.Proofs.Machine.Overlays
import ChipEight.Proofs.Machine.Waiting
import ChipEight.Proofs.Display.Texture
import ChipEight.Proofs.Text.Separators
import ChipEight.Proofs.Machine.LogLines
import ChipEight.Proofs.Instruction.Mnemonic
import ChipEight.Proofs.Session.Waits
import ChipEight.Proofs.CommandLine.Limits
import ChipEight.Proofs.CommandLine.Documented
import ChipEight.Proofs.CommandLine.Steps
import ChipEight.Proofs.CommandLine.Standard
import ChipEight.Proofs.CommandLine.RoundTrip
import ChipEight.Proofs.Text.ShortSinks
import ChipEight.Proofs.Session.Pace
import ChipEight.Proofs.Display.Upload
