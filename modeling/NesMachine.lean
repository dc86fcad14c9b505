import NesMachine.Main
import NesMachine.Probe
import NesMachine.Session.Plain
import NesMachine.Proofs.Exchange.Contract
import NesMachine.Proofs.Cpu.Clock
import NesMachine.Proofs.Cpu.Request
import NesMachine.Proofs.Cpu.History
import NesMachine.Proofs.Cpu.Series
import NesMachine.Proofs.Cpu.Stack
import NesMachine.Proofs.Cpu.Interruption
import NesMachine.Proofs.Console.Clock
import NesMachine.Proofs.Cartridge.Acceptance
import NesMachine.Proofs.Memory.Block
import NesMachine.Proofs.Console.Loading
import NesMachine.Proofs.Console.Coherence
import NesMachine.Proofs.Cpu.Accesses
import NesMachine.Proofs.Exchange.Bare
import NesMachine.Proofs.Exchange.Refusal
import NesMachine.Proofs.Cpu.Refusal
import NesMachine.Proofs.Console.Stepping
import NesMachine.Proofs.Console.Composition
import NesMachine.Proofs.Console.Tracing
import NesMachine.Proofs.Session.Phases
import NesMachine.Proofs.Cpu.Execution
import NesMachine.Proofs.Cpu.Flow
import NesMachine.Proofs.Console.Halting
import NesMachine.Proofs.Console.UnpoweredLoading
import NesMachine.Proofs.Console.Switching
import NesMachine.Proofs.Text.Columns
import NesMachine.Proofs.Console.TraceLine
import NesMachine.Proofs.Cpu.Flags
import NesMachine.Proofs.Exchange.Writes
import NesMachine.Proofs.Cpu.BreakFlag
import NesMachine.Proofs.Exchange.Locality
import NesMachine.Proofs.Cpu.Locality
import NesMachine.Proofs.Cartridge.Layout
import NesMachine.Proofs.Cartridge.Request
import NesMachine.Proofs.Memory.Map
import NesMachine.Proofs.Cpu.Arithmetic
import NesMachine.Proofs.Cpu.Frame
import NesMachine.Proofs.Exchange.Blame
import NesMachine.Proofs.Lifecycle
import NesMachine.Proofs.CommandLine.Report
import NesMachine.Proofs.Cpu.Listing
import NesMachine.Proofs.Cpu.WideSum
import NesMachine.Proofs.Cpu.WideShift
import NesMachine.Proofs.Cpu.Comparison
import NesMachine.Proofs.Cpu.Cost
import NesMachine.Proofs.Cpu.Subroutine
import NesMachine.Proofs.Isa.Assembly
import NesMachine.Proofs.Text.Lines
import NesMachine.Proofs.Memory.Rows
import NesMachine.Proofs.Memory.Collapse
import NesMachine.Proofs.Cartridge.Banks
import NesMachine.Proofs.Cpu.Countdown
import NesMachine.Proofs.Cartridge.Encoding
