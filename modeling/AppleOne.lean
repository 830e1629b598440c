import AppleOne.Board
import AppleOne.Board.Pia
import AppleOne.Board.Rom
import AppleOne.Bus.Memory
import AppleOne.Bus.Transaction
import AppleOne.CommandLine.Address
import AppleOne.CommandLine.Arguments
import AppleOne.CommandLine.Device
import AppleOne.CommandLine.Directory
import AppleOne.CommandLine.Host
import AppleOne.CommandLine.Path
import AppleOne.CommandLine.Program
import AppleOne.Cpu.Action
import AppleOne.Cpu.Arithmetic
import AppleOne.Cpu.Instruction
import AppleOne.Cpu.Registers
import AppleOne.Cpu.Snapshot
import AppleOne.Cpu.Status
import AppleOne.Cpu.Step
import AppleOne.Decimal.Shortest
import AppleOne.Hex
import AppleOne.Host.Keyboard
import AppleOne.Host.Terminal
import AppleOne.Json.Decode
import AppleOne.Json.Failure
import AppleOne.Json.Printer
import AppleOne.Json.Reader
import AppleOne.Json.Record
import AppleOne.Json.Scan
import AppleOne.Json.Value
import AppleOne.Log.Diagnostic
import AppleOne.Log.Journal
import AppleOne.Log.Level
import AppleOne.Log.Limiter
import AppleOne.Machine
import AppleOne.Machine.Config
import AppleOne.Machine.SaveState
import AppleOne.Machine.Typing
import AppleOne.Main
import AppleOne.Proofs.Board.Decoding
import AppleOne.Proofs.Board.Latch
import AppleOne.Proofs.Board.Timer
import AppleOne.Proofs.Bus.Cells
import AppleOne.Proofs.Bus.Lockstep
import AppleOne.Proofs.Bus.Replay
import AppleOne.Proofs.Bus.StackRam
import AppleOne.Proofs.CommandLine.Checks
import AppleOne.Proofs.CommandLine.Grammar
import AppleOne.Proofs.CommandLine.Outcome
import AppleOne.Proofs.CommandLine.Ticking
import AppleOne.Proofs.CommandLine.World
import AppleOne.Proofs.Cpu.Accesses
import AppleOne.Proofs.Cpu.Addressing
import AppleOne.Proofs.Cpu.Arithmetic
import AppleOne.Proofs.Cpu.Checked
import AppleOne.Proofs.Cpu.Computer
import AppleOne.Proofs.Cpu.Cycles
import AppleOne.Proofs.Cpu.Digits
import AppleOne.Proofs.Cpu.Execution
import AppleOne.Proofs.Cpu.Frame
import AppleOne.Proofs.Cpu.History
import AppleOne.Proofs.Cpu.LongArithmetic
import AppleOne.Proofs.Cpu.LongShifts
import AppleOne.Proofs.Cpu.Resuming
import AppleOne.Proofs.Cpu.Returning
import AppleOne.Proofs.Cpu.Rotation
import AppleOne.Proofs.Cpu.Servicing
import AppleOne.Proofs.Cpu.Snapshot
import AppleOne.Proofs.Cpu.StackRing
import AppleOne.Proofs.Host.Keyboard
import AppleOne.Proofs.Host.TypedText
import AppleOne.Proofs.Json.Acceptance
import AppleOne.Proofs.Json.Integers
import AppleOne.Proofs.Json.RecordText
import AppleOne.Proofs.Json.Spelling
import AppleOne.Proofs.Json.Strings
import AppleOne.Proofs.Json.WellFormed
import AppleOne.Proofs.Log.Calls
import AppleOne.Proofs.Log.Limiting
import AppleOne.Proofs.Log.Routing
import AppleOne.Proofs.Machine.Acceptance
import AppleOne.Proofs.Machine.AddressSpace
import AppleOne.Proofs.Machine.Budget
import AppleOne.Proofs.Machine.Checked
import AppleOne.Proofs.Machine.Chronicle
import AppleOne.Proofs.Machine.Command
import AppleOne.Proofs.Machine.ConfigText
import AppleOne.Proofs.Machine.Display
import AppleOne.Proofs.Machine.Drift
import AppleOne.Proofs.Machine.Echo
import AppleOne.Proofs.Machine.EndOfTime
import AppleOne.Proofs.Machine.Feeding
import AppleOne.Proofs.Machine.Handlers
import AppleOne.Proofs.Machine.Images
import AppleOne.Proofs.Machine.Interrupts
import AppleOne.Proofs.Machine.Operation
import AppleOne.Proofs.Machine.Output
import AppleOne.Proofs.Machine.Reachable
import AppleOne.Proofs.Machine.Reporting
import AppleOne.Proofs.Machine.RoundTrip
import AppleOne.Proofs.Machine.SavedState
import AppleOne.Proofs.Machine.StateText
import AppleOne.Proofs.Machine.StatusBits
import AppleOne.Proofs.Machine.TickLoop
import AppleOne.Proofs.Machine.Timing
import AppleOne.Proofs.Machine.Twins
import AppleOne.Proofs.Time.Sharing
import AppleOne.Text.Number
import AppleOne.Text.Quoted
import AppleOne.Text.Unprintable
import AppleOne.Text.Utf8
import AppleOne.Time.Clocks
import AppleOne.Time.Duration
