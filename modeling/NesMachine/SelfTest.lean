import NesMachine.Cartridge.Contents
import NesMachine.Console.Run

/-!
# `NesMachine/SelfTest.lean` — checks that a machine makes of itself

Each check builds the parts it needs, works on them through the same operations that everybody else
uses, and answers whether they did what they should. A check that cannot even be set up has verified
nothing, and says so instead of failing.

`Tally` counts verdicts. A run of the checks is good if none has failed.
-/

set_option autoImplicit false

namespace NesMachine

namespace SelfTest

variable {α σ : Type}

/-! ## Verdicts -/

/-- What came of a check. -/
inductive Verdict where
  | pass
  | fail
  /-- The check's own preparations were refused. -/
  | inconclusive
  deriving DecidableEq

/-- A check by its name, and what came of it. -/
structure CheckResult where
  name : String
  verdict : Verdict
  /-- Why the preparations were refused. -/
  detail : Option String
  deriving DecidableEq

/-- The verdicts by kind. -/
structure Tally where
  passed : Nat
  failed : Nat
  inconclusive : Nat
  deriving DecidableEq

namespace Tally

/-- Counts verdicts. -/
def ofVerdicts (verdicts : List Verdict) : Tally where
  passed := verdicts.count .pass
  failed := verdicts.count .fail
  inconclusive := verdicts.count .inconclusive

/-- All verdicts. -/
def total (tally : Tally) : Nat := tally.passed + tally.failed + tally.inconclusive

/-- Holds if no check has failed. -/
def isGood (tally : Tally) : Bool := tally.failed == 0

/-- The counts in words. -/
def render (tally : Tally) : String :=
  toString tally.passed ++ " passed, " ++ toString tally.failed ++ " failed, "
    ++ toString tally.inconclusive ++ " inconclusive (" ++ toString tally.total ++ " total)"

end Tally

/-! ## A processor and a memory on the bench -/

/-- A processor and the memory that is its bus, without a console around them. -/
abbrev Bench : Type := Cpu × Memory

namespace Bench

/-- Does something to the memory. -/
def onMemory (action : Action Memory α) : Action Bench α := fun (cpu, memory) =>
  (action memory).within fun memory => (cpu, memory)

/-- Does something to the processor alone. -/
def onCpu (action : Action Cpu α) : Action Bench α := fun (cpu, memory) =>
  (action cpu).within fun cpu => (cpu, memory)

/-- Switches both on. -/
def powerOn : Action Bench Unit := do
  onMemory Memory.powerOn
  onCpu Cpu.powerOn

/-- The registers. -/
def registers : Action Bench Registers := .ask fun bench => .ok bench.1.registers

/-- The cycles spent. -/
def cycles : Action Bench UInt32 := .ask fun bench => .ok bench.1.cycles

/-- The cell at an address. -/
def peek (address : Nat) : Action Bench UInt8 := .ask (·.2.peek address)

/-- Sets registers. -/
def setRegisters (change : Registers → Registers) : Action Bench Unit :=
  onCpu (Cpu.setRegisters change)

/-- Lets the processor work. -/
def work (routine : Routine α) : Action Bench α := routine.run

/-- Does instructions until the program counter is at an address, at most as many as allowed. -/
def stepUntil (address : UInt16) : Nat → Action Bench Unit
  | 0 => return ()
  | allowed + 1 => do
    if (← registers).pc != address then
      let _ ← work .step
      stepUntil address allowed

end Bench

/-- The answer of a check that starts with the given parts. -/
def starting (parts : σ) (check : Action σ Bool) : Except Fault Bool := (check parts).result

/-- The answer of a check on a bench where both parts are on. -/
def onBench (check : Action Bench Bool) : Except Fault Bool :=
  starting (.off, .off) (do Bench.powerOn; check)

/-- Whether an operation refuses for a reason of the given kind. -/
def refuses (action : Action σ α) (kind : Fault → Bool) : Action σ Bool := fun state =>
  match action state with
  | ⟨.ok _, state, log⟩ => ⟨.ok false, state, log⟩
  | ⟨.error fault, state, log⟩ => ⟨.ok (kind fault), state, log⟩

/-! ## The checks -/

/-- Memory that was just switched on holds zeros. -/
def memoryZeroed : Except Fault Bool :=
  starting .off do
    Memory.powerOn
    .ask fun memory => (List.range Ram.size).allM fun address =>
      return (← memory.peek address) == 0

/-- There is no cell after the last, and a block must not reach there. -/
def memoryOutOfRange : Except Fault Bool :=
  starting .off do
    Memory.powerOn
    let read ← refuses (.ask fun memory => memory.peek Ram.size) (· == .invalidAddress Ram.size)
    let write ← refuses (Memory.write (Ram.size - 1) [0, 0]) fun
      | .invalidAddress _ => true
      | _ => false
    return read && write

/-- Memory refuses to be read while off, and to be switched on twice. -/
def memoryLifecycle : Except Fault Bool :=
  starting .off do
    let before ← refuses (.ask fun memory => memory.peek 0) fun
      | .uninitialized _ => true
      | _ => false
    Memory.powerOn
    let twice ← refuses Memory.powerOn fun
      | .alreadyInitialized _ => true
      | _ => false
    return before && twice

/-- The registers of a processor that was just switched on. -/
def cpuPowerOn : Except Fault Bool :=
  onBench do
    let r ← Bench.registers
    return r == ⟨0, 0, 0, Status.ofByte 0x06, 0xFF, 0⟩ && (← Bench.cycles) == 0

/-- What is pushed is popped, and the stack pointer is back where it was. -/
def cpuStackRoundTrip : Except Fault Bool :=
  onBench do
    let sp := (← Bench.registers).sp
    Bench.work (.push 0x5A)
    let byte ← Bench.work .pop
    let byteGood := byte == 0x5A && (← Bench.registers).sp == sp
    Bench.work (.pushWord 0xBEEF)
    let w ← Bench.work .popWord
    let wordGood := w == 0xBEEF && (← Bench.registers).sp == sp
    return byteGood && wordGood

/-- A reset goes where its vector points. -/
def cpuResetVector : Except Fault Bool :=
  onBench do
    Bench.onMemory (Memory.write InterruptVector.reset.address.toNat [0x34, 0x12])
    Bench.work .reset
    return (← Bench.registers).pc == 0x1234

/-- The maskable signal does nothing while the interrupt flag is clear. -/
def cpuIrqMasked : Except Fault Bool :=
  onBench do
    Bench.setRegisters fun r => { r with p := { r.p with interrupt := false } }
    let before ← Bench.registers
    Bench.work .irq
    return (← Bench.registers) == before && (← Bench.cycles) == 0 && (← Bench.peek 0x01FF) == 0

/-- The maskable signal pushes the program counter and the flags without the break flag. -/
def cpuIrqSequence : Except Fault Bool :=
  onBench do
    Bench.onMemory (Memory.write InterruptVector.irq.address.toNat [0x00, 0x90])
    Bench.setRegisters fun r => { r with pc := 0x1234, p := { r.p with brk := true } }
    let p := (← Bench.registers).p
    Bench.work .irq
    let r ← Bench.registers
    return r.pc == 0x9000 && (← Bench.cycles) == 7 && r.sp == 0xFC
      && (← Bench.peek 0x01FF) == 0x12 && (← Bench.peek 0x01FE) == 0x34
      && (← Bench.peek 0x01FD) == { p with brk := false }.toByte

/-- The other signal is served whatever the interrupt flag is. -/
def cpuNmi : Except Fault Bool :=
  onBench do
    Bench.onMemory (Memory.write InterruptVector.nmi.address.toNat [0x00, 0xA0])
    Bench.setRegisters fun r => { r with p := { r.p with interrupt := false } }
    Bench.work .nmi
    return (← Bench.registers).pc == 0xA000 && (← Bench.cycles) == 7

/-- A loop that counts five down takes the cycles of its instructions. -/
def cpuCountedLoop : Except Fault Bool :=
  onBench do
    -- `LDX #$05; DEX; BNE -3; BRK`
    Bench.onMemory (Memory.write 0x0200 [0xA2, 0x05, 0xCA, 0xD0, 0xFD, 0x00])
    Bench.setRegisters fun r => { r with pc := 0x0200 }
    Bench.stepUntil 0x0205 100
    let r ← Bench.registers
    return r.x == 0 && r.p.zero && (← Bench.cycles) == 2 + 10 + 12 + 2

/-- The banks of an image come out as they went in. -/
def romBanks : Except Fault Bool :=
  starting .off do
    let image := Contents.countedImage 2 1
    Cartridge.powerOn
    Cartridge.load image
    let first ← .ask fun cartridge => cartridge.programBank 0
    let second ← .ask fun cartridge => cartridge.programBank 1
    let character ← .ask fun cartridge => cartridge.characterBank 0
    let size ← .ask Cartridge.size
    let beyond ← refuses (.ask fun cartridge => cartridge.programBank 2) (· == .invalidIndex 2)
    return size == image.size
      && first == image.extract Header.size (Header.size + bankSizes.program)
      && second == image.extract (Header.size + bankSizes.program)
        (Header.size + 2 * bankSizes.program)
      && character == image.extract (Header.size + 2 * bankSizes.program) image.size
      && beyond

/-- Whether an empty slot refuses an image for a reason of the given kind, and stays empty. -/
def rejects (image : Array UInt8) (kind : Fault → Bool) : Except Fault Bool :=
  starting .off do
    Cartridge.powerOn
    let refused ← refuses (Cartridge.load image) kind
    let loaded ← .ask fun cartridge => .ok cartridge.isLoaded
    return refused && !loaded

/-- An image without the signature is malformed. -/
def romBadMagic : Except Fault Bool :=
  rejects (Image.patch (Contents.countedImage 1 0) 3 [0x00]) fun
    | .malformed _ => true
    | _ => false

/-- An image with the second header layout is not supported. -/
def romIncompatible : Except Fault Bool :=
  rejects (Image.patch (Contents.countedImage 1 0) 7 [0x08]) fun
    | .unsupported _ => true
    | _ => false

/-- A console loads a program and runs it to its end. -/
def consoleLoadAndRun : Except Fault Bool :=
  starting .off do
    -- At `$8000`: `LDA #$42; STA $10; JMP $8004`
    let program := Image.patch (Contents.countedImage 1 0) Header.size
      [0xA9, 0x42, 0x85, 0x10, 0x4C, 0x04, 0x80]
    let image := Image.patch program (Header.size + bankSizes.program - 4) [0x00, 0x80]
    Console.powerOn
    Console.load image
    let summary ← Console.run .normal false 100
    return summary.halted && (← .ask fun console => console.memory.peek 0x10) == 0x42

/-- The checks by name, in the order in which they are made. -/
def checks : List (String × Except Fault Bool) := [
  ("memory: zeroed after initialize", memoryZeroed),
  ("memory: out-of-range access rejected", memoryOutOfRange),
  ("memory: lifecycle errors", memoryLifecycle),
  ("cpu: power-on registers", cpuPowerOn),
  ("cpu: stack round trip", cpuStackRoundTrip),
  ("cpu: reset vector", cpuResetVector),
  ("cpu: irq ignored while masked", cpuIrqMasked),
  ("cpu: irq sequence", cpuIrqSequence),
  ("cpu: nmi ignores mask", cpuNmi),
  ("cpu: counted loop", cpuCountedLoop),
  ("rom: bank extraction", romBanks),
  ("rom: bad magic rejected", romBadMagic),
  ("rom: iNES 2.0 unsupported", romIncompatible),
  ("system: load and run", consoleLoadAndRun)]

/-- What comes of a check that answers, or is refused in its preparations. -/
def CheckResult.ofAnswer (name : String) : Except Fault Bool → CheckResult
  | .ok true => ⟨name, .pass, none⟩
  | .ok false => ⟨name, .fail, none⟩
  | .error fault => ⟨name, .inconclusive, some fault.message⟩

/-- Makes every check. -/
def results : List CheckResult :=
  checks.map fun (name, answer) => .ofAnswer name answer

/-- The verdicts of all checks. -/
def tally : Tally := .ofVerdicts (results.map CheckResult.verdict)

end SelfTest

end NesMachine
