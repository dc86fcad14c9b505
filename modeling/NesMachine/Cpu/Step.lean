import NesMachine.Cpu.Effect
import NesMachine.Cpu.Interrupt
import NesMachine.Cpu.Operand
import NesMachine.Isa.Instruction

/-!
# `NesMachine/Cpu/Step.lean` — one instruction

A step reads the opcode at the program counter, fetches the operand, does the operation, and counts
the cycles. An undocumented opcode is refused before anything has changed.

Cycles come from three places: the table, an index that led out of its page where the table says it
matters, and a branch that is taken, which costs one more and another one if it leaves the page of
the instruction after it.
-/

set_option autoImplicit false

namespace NesMachine

namespace Routine

/-- Does an operation. Answers the cycles that it takes on top of its row in the table. -/
def execute : Operation → Operand → Routine Nat
  | .read op, operand => do
    let value ← operandValue operand
    change (op.apply value)
    return 0
  | .store op, .place address _ => do
    store address (op.value (← registers))
    return 0
  | .modify op, operand => do
    let value ← operandValue operand
    let p := (← registers).p
    change fun r => { r with p := op.flags p value }
    putBack operand (op.result p.carry value)
    return 0
  | .register op, _ => do
    change op.apply
    return 0
  | .branch op, .target target => do
    let before ← registers
    if op.taken before.p then
      jump target
      return if highByte before.pc == highByte target then 1 else 2
    else return 0
  | .jump .jmp, .place target _ => do
    jump target
    return 0
  | .jump .jsr, .place target _ => do
    -- What is pushed is the address of the last byte of the call.
    pushWord ((← registers).pc - 1)
    jump target
    return 0
  | .jump .rts, _ => do
    jump ((← popWord) + 1)
    return 0
  | .jump .rti, _ => do
    returnFromInterrupt
    return 0
  | .jump .brk, _ => do
    -- The byte after the opcode is passed over.
    change fun r => { r with pc := r.pc + 1 }
    enterInterrupt .irq true
    return 0
  | .stack .pha, _ => do
    push (← registers).a
    return 0
  | .stack .php, _ => do
    push { (← registers).p with brk := true }.toByte
    return 0
  | .stack .pla, _ => do
    let value ← pop
    change (·.setA value)
    return 0
  | .stack .plp, _ => do
    let flags ← pop
    change fun r => { r with p := { Status.ofByte flags with brk := false } }
    return 0
  -- No documented instruction has any other operand.
  | .store _, _ => return 0
  | .branch _, _ => return 0
  | .jump .jmp, _ => return 0
  | .jump .jsr, _ => return 0

/-- Moves past an opcode at `pc` to the instruction that it stands for. -/
def passOpcode (pc : UInt16) (opcode : UInt8) : Routine Instruction :=
  match Instruction.decode opcode with
  | none => refuse (.invalidOpcode opcode pc)
  | some instruction => do
    jump (pc + 1)
    return instruction

/-- The instruction whose opcode stands at the program counter. -/
def fetchInstruction : Routine Instruction := do
  let pc := (← registers).pc
  passOpcode pc (← load pc)

/-- Does the instruction at the program counter. Answers the cycles that it takes. -/
def step : Routine Nat := do
  let instruction ← fetchInstruction
  let operand ← fetchOperand instruction.mode
  let extra ← execute instruction.operation operand
  let pageCycle := (instruction.pageCycle && operand.crossed).toNat
  let cycles := instruction.cycles + pageCycle + extra
  spend cycles
  return cycles

end Routine

end NesMachine
