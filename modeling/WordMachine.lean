import WordMachine.CommandLine.Arguments
import WordMachine.CommandLine.Files
import WordMachine.CommandLine.Session
import WordMachine.Configuration.Basic
import WordMachine.Configuration.Reader
import WordMachine.Console.Basic
import WordMachine.Console.Sink
import WordMachine.Decimal.Binary64
import WordMachine.Decimal.Integer
import WordMachine.Decimal.Percentage
import WordMachine.Decimal.Shortest
import WordMachine.Instruction.Assembly
import WordMachine.Instruction.Encoding
import WordMachine.Instruction.Operation
import WordMachine.Json.Numeral
import WordMachine.Json.Problem
import WordMachine.Json.Reading
import WordMachine.Json.Record
import WordMachine.Json.Skipping
import WordMachine.Json.StringLiteral
import WordMachine.Json.Token
import WordMachine.Log.Event
import WordMachine.Log.Filter
import WordMachine.Machine.Action
import WordMachine.Machine.Basic
import WordMachine.Machine.Execution
import WordMachine.Machine.Fault
import WordMachine.Machine.Flags
import WordMachine.Machine.Memory
import WordMachine.Machine.Registers
import WordMachine.Machine.Report
import WordMachine.Machine.Tally
import WordMachine.Main
import WordMachine.Program.Image
import WordMachine.Program.Listing
import WordMachine.Proofs.CommandLine.Session
import WordMachine.Proofs.Console.Delivery
import WordMachine.Proofs.Console.Numeral
import WordMachine.Proofs.Console.Transcript
import WordMachine.Proofs.Decimal.Acceptance
import WordMachine.Proofs.Decimal.Integer
import WordMachine.Proofs.Displacement.Execution
import WordMachine.Proofs.Displacement.Simulation
import WordMachine.Proofs.Execution.Alike
import WordMachine.Proofs.Execution.Atomicity
import WordMachine.Proofs.Execution.Effect
import WordMachine.Proofs.Execution.Footprint
import WordMachine.Proofs.Execution.Frame
import WordMachine.Proofs.Execution.InPlace
import WordMachine.Proofs.Execution.Operands
import WordMachine.Proofs.Execution.Outcome
import WordMachine.Proofs.Execution.Output
import WordMachine.Proofs.Execution.Transaction
import WordMachine.Proofs.Flat.Access
import WordMachine.Proofs.Flat.Arithmetic
import WordMachine.Proofs.Flat.Basic
import WordMachine.Proofs.Flat.Console
import WordMachine.Proofs.Flat.Execution
import WordMachine.Proofs.Flat.Machine
import WordMachine.Proofs.Flat.Phase
import WordMachine.Proofs.Flat.Simulation
import WordMachine.Proofs.Flat.Stack
import WordMachine.Proofs.Flat.Word
import WordMachine.Proofs.Instruction.Assembly
import WordMachine.Proofs.Instruction.Fields
import WordMachine.Proofs.Instruction.Opcode
import WordMachine.Proofs.Machine.Access
import WordMachine.Proofs.Machine.Comparison
import WordMachine.Proofs.Machine.Signed
import WordMachine.Proofs.Memory.History
import WordMachine.Proofs.Memory.Word
import WordMachine.Proofs.Policy.Refit
import WordMachine.Proofs.Policy.Rewriting
import WordMachine.Proofs.Program.Factorial
import WordMachine.Proofs.Program.Image
import WordMachine.Proofs.Simulation.Branching
import WordMachine.Proofs.Simulation.Completion
import WordMachine.Proofs.Simulation.Containment
import WordMachine.Proofs.Simulation.Course
import WordMachine.Proofs.Simulation.History
import WordMachine.Proofs.Simulation.Input
import WordMachine.Proofs.Simulation.Limit
import WordMachine.Proofs.Simulation.Mirror
import WordMachine.Proofs.Simulation.Passage
import WordMachine.Proofs.Simulation.Running
import WordMachine.Proofs.Simulation.Step
import WordMachine.Proofs.Stack.Balanced
import WordMachine.Proofs.Stack.Bounds
import WordMachine.Proofs.Stack.Count
import WordMachine.Proofs.Stack.Depth
import WordMachine.Proofs.Stack.Keeping
import WordMachine.Proofs.Stack.Slot
import WordMachine.Proofs.Tally.Account
import WordMachine.Proofs.Tally.Entry
import WordMachine.Proofs.Text.Blank
import WordMachine.Proofs.Text.Utf8
import WordMachine.Proofs.Word.Bytes
import WordMachine.Simulation.Basic
import WordMachine.Simulation.Status
import WordMachine.Text.Blank
import WordMachine.Text.Column
import WordMachine.Text.Printable
import WordMachine.Text.Quoted
import WordMachine.Text.Terminal
import WordMachine.Text.Utf8
import WordMachine.Proofs.Simulation.Place
import WordMachine.Proofs.Simulation.Reading
import WordMachine.Proofs.Program.Countdown
import WordMachine.Proofs.Simulation.Coherence
import WordMachine.Proofs.Simulation.Finished
import WordMachine.Proofs.Simulation.Reporting
import WordMachine.Proofs.Simulation.Transcript
import WordMachine.Proofs.Stack.Peak
import WordMachine.Proofs.Simulation.Sequence
import WordMachine.Proofs.Simulation.Overrun
import WordMachine.Proofs.Program.Listing
import WordMachine.Proofs.Configuration.Reading
import WordMachine.Proofs.Json.Lexeme
import WordMachine.Proofs.Json.Numeral
import WordMachine.Proofs.Json.Record
import WordMachine.Proofs.Flat.Console
import WordMachine.Proofs.Text.Encoding
import WordMachine.Proofs.CommandLine.Clauses
import WordMachine.Proofs.CommandLine.Acceptance
