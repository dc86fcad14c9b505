import NesMachine.Action
import NesMachine.Cpu.Status

/-!
# `NesMachine/Cpu.lean` — the processor's state

The processor is its registers, a count of the cycles it has spent, and whether it is on. The count
is thirty-two bits wide and goes round. The registers keep their values while the processor is off,
and may be set from outside even then; what it cannot do while off is work.
-/

set_option autoImplicit false

namespace NesMachine

open Text

/-- The processor's registers. -/
structure Registers where
  /-- The accumulator. -/
  a : UInt8
  /-- The first index register. -/
  x : UInt8
  /-- The second index register. -/
  y : UInt8
  /-- The flags. -/
  p : Status
  /-- The stack pointer, an offset into the stack page. -/
  sp : UInt8
  /-- The program counter. -/
  pc : UInt16
  deriving DecidableEq

/-- The registers when the processor is switched on. -/
def Registers.powerOn : Registers where
  a := 0
  x := 0
  y := 0
  p := .powerOn
  sp := 0xFF
  pc := 0

instance : Inhabited Registers := ⟨.powerOn⟩

/-- The processor. -/
structure Cpu where
  registers : Registers
  /-- The cycles spent, modulo 2³². -/
  cycles : UInt32
  isOn : Bool
  deriving DecidableEq

namespace Cpu

/-- A processor that has never been switched on. -/
def off : Cpu := ⟨.powerOn, 0, false⟩

instance : Inhabited Cpu := ⟨off⟩

/-- The processor with the registers and cycle count of one just switched on. -/
def cleared (cpu : Cpu) : Cpu := ⟨.powerOn, 0, cpu.isOn⟩

/-- Refuses while the processor is off. -/
def requireOn : Action Cpu Unit := .require isOn (.uninitialized .cpu)

/-- Restores the registers and the cycle count of a processor just switched on. -/
def clear : Action Cpu Unit := do
  requireOn
  .update cleared

/-- Switches the processor on. -/
def powerOn : Action Cpu Unit := do
  .require (!·.isOn) (.alreadyInitialized .cpu)
  .update fun _ => ⟨.powerOn, 0, true⟩

/-- Switches the processor off. -/
def powerOff : Action Cpu Unit := do
  clear
  .update fun cpu => { cpu with isOn := false }

/-- Sets registers from outside, which needs no power. -/
def setRegisters (change : Registers → Registers) : Action Cpu Unit :=
  .update fun cpu => { cpu with registers := change cpu.registers }

/-- The registers and the cycle count in one line. -/
def render (cpu : Cpu) : String :=
  "A:" ++ hexByte cpu.registers.a ++ " X:" ++ hexByte cpu.registers.x
    ++ " Y:" ++ hexByte cpu.registers.y ++ " P:" ++ hexByte cpu.registers.p.toByte
    ++ " SP:" ++ hexByte cpu.registers.sp ++ " PC:" ++ hexWord cpu.registers.pc
    ++ " CYC:" ++ toString cpu.cycles.toNat

end Cpu

end NesMachine
