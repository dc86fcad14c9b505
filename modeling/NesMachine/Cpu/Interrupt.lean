import NesMachine.Cpu.Access

/-!
# `NesMachine/Cpu/Interrupt.lean` — leaving a program and coming back

An interrupt pushes the program counter and the flags and goes on at the address that its vector
holds. Whether a program or a signal asked for it can be told by the break flag of the pushed byte,
and only there: the flag is never set in the processor itself on the way back.
-/

set_option autoImplicit false

namespace NesMachine

/-- Where the address of a handler stands. -/
inductive InterruptVector where
  | nmi
  | reset
  | irq
  deriving DecidableEq

/-- The address of the vector's low byte. -/
def InterruptVector.address : InterruptVector → UInt16
  | nmi => 0xFFFA
  | reset => 0xFFFC
  | irq => 0xFFFE

/-- The cycles that serving a signal takes. -/
def interruptCycles : Nat := 7

namespace Routine

/-- Goes on at the address that a vector holds. -/
def follow (vector : InterruptVector) : Routine Unit := do
  jump (← loadWord vector.address)

/-- Pushes the program counter and the flags, with the break flag as given, and follows the
vector. -/
def enterInterrupt (vector : InterruptVector) (brk : Bool) : Routine Unit := do
  pushWord (← registers).pc
  push { (← registers).p with brk := brk }.toByte
  follow vector

/-- Pops the flags and the program counter. -/
def returnFromInterrupt : Routine Unit := do
  let flags ← pop
  change fun r => { r with p := { Status.ofByte flags with brk := false } }
  jump (← popWord)

/-- Starts over with the registers and cycle count of a processor just switched on, at the address
that the reset vector holds. -/
def reset : Routine Unit := do
  alone Cpu.clear
  follow .reset

/-- Serves the signal that does not ask. -/
def nmi : Routine Unit := do
  alone Cpu.requireOn
  log .trace ("NMI at PC=" ++ Text.hexWord (← registers).pc)
  enterInterrupt .nmi false
  spend interruptCycles

/-- Serves the maskable signal. It is served only while the interrupt flag is set. -/
def irq : Routine Unit := do
  alone Cpu.requireOn
  if (← registers).p.interrupt then
    log .trace ("IRQ at PC=" ++ Text.hexWord (← registers).pc)
    enterInterrupt .irq false
    spend interruptCycles

end Routine

end NesMachine
