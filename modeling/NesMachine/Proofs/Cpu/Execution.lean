import NesMachine.Proofs.Cpu.Accesses
import NesMachine.Proofs.Cpu.Tentative

/-!
# `NesMachine/Proofs/Cpu/Execution.lean` — an instruction as a function

With bare memory an instruction is a function: from the registers and the memory before it to those
after it, and a cost. `Operation.effect` is this function for an operation whose operand has been
found, and `Instruction.effect` for the whole instruction; the processor's own way through reads and
writes comes to the same (`run_execute`, `run_step`).

What an instruction does to one register or to one cell is then a question about `effect`, and
nobody who asks it has to look at the bus again.
-/

set_option autoImplicit false

namespace NesMachine

/-! ## The stack, as cells of memory -/

namespace Ram

/-- Memory after bytes were pushed with the stack pointer at `sp`. -/
def pushed (ram : Ram) (sp : UInt8) : List UInt8 → Ram
  | [] => ram
  | byte :: bytes => (ram.write (stackCell sp) byte).pushed (sp - 1) bytes

/-- The byte that is popped with the stack pointer at `sp`. -/
def popped (ram : Ram) (sp : UInt8) : UInt8 := ram.read (stackCell (sp + 1))

/-- The word that is popped with the stack pointer at `sp`. -/
def poppedWord (ram : Ram) (sp : UInt8) : UInt16 := word (ram.popped sp) (ram.popped (sp + 1))

end Ram

/-! ## Operations -/

def Operand.valueIn (ram : Ram) (r : Registers) : Operand → UInt8
  | value v => v
  | accumulator => r.a
  | place address _ => ram.read address
  | nothing => 0
  | target _ => 0

/-- The flags that a popped byte stands for. -/
def Status.restored (byte : UInt8) : Status := { Status.ofByte byte with brk := false }

/-- What an operation leaves of the registers and the memory. The operand has been found, so the
program counter of `r` is past the instruction already. -/
def Operation.effect (ram : Ram) (r : Registers) : Operation → Operand → Registers × Ram
  | read op, operand => (op.apply (operand.valueIn ram r) r, ram)
  | store op, .place address _ => (r, ram.write address (op.value r))
  | modify op, operand =>
    let value := operand.valueIn ram r
    let result := op.result r.p.carry value
    let r := { r with p := op.flags r.p value }
    match operand with
    | .accumulator => ({ r with a := result }, ram)
    | .place address _ => (r, ram.write address result)
    | _ => (r, ram)
  | register op, _ => (op.apply r, ram)
  | branch op, .target target => (if op.taken r.p then { r with pc := target } else r, ram)
  | jump .jmp, .place target _ => ({ r with pc := target }, ram)
  | jump .jsr, .place target _ =>
    ({ r with sp := r.sp - 1 - 1, pc := target },
      ram.pushed r.sp [highByte (r.pc - 1), lowByte (r.pc - 1)])
  | jump .rts, _ => ({ r with sp := r.sp + 1 + 1, pc := ram.poppedWord r.sp + 1 }, ram)
  | jump .rti, _ =>
    ({ r with
      p := .restored (ram.popped r.sp)
      sp := r.sp + 1 + 1 + 1
      pc := ram.poppedWord (r.sp + 1) }, ram)
  | jump .brk, _ =>
    let ram := ram.pushed r.sp
      [highByte (r.pc + 1), lowByte (r.pc + 1), { r.p with brk := true }.toByte]
    ({ r with sp := r.sp - 1 - 1 - 1, pc := word (ram.read 0xFFFE) (ram.read 0xFFFF) }, ram)
  | stack .pha, _ => ({ r with sp := r.sp - 1 }, ram.pushed r.sp [r.a])
  | stack .php, _ => ({ r with sp := r.sp - 1 }, ram.pushed r.sp [{ r.p with brk := true }.toByte])
  | stack .pla, _ => ({ r with sp := r.sp + 1 }.setA (ram.popped r.sp), ram)
  | stack .plp, _ => ({ r with sp := r.sp + 1, p := .restored (ram.popped r.sp) }, ram)
  | _, _ => (r, ram)

/-- The cycles that an operation takes on top of its row: those of a branch that is taken. -/
def Operation.extra (r : Registers) : Operation → Operand → Nat
  | branch op, .target target =>
    if op.taken r.p then (if highByte r.pc == highByte target then 1 else 2) else 0
  | _, _ => 0

namespace Routine

variable (ram : Ram) (r : Registers) (c : UInt32)

theorem run_branch (op : BranchOp) (target : UInt16) :
    (execute (.branch op) (.target target)).run (⟨r, c, true⟩, ram)
      = ⟨.ok ((Operation.branch op).extra r (.target target)),
          (⟨((Operation.branch op).effect ram r (.target target)).1, c, true⟩, ram), []⟩ := by
  show Exchange.run ((if op.taken r.p = true then _ else _ : Routine Nat) _) _ = _
  rw [Operation.extra, Operation.effect]
  cases op.taken r.p <;> rfl

/-- **An operation does its effect**, and takes no cycles but those of a branch. -/
theorem run_execute (op : Operation) (operand : Operand) :
    (execute op operand).run (⟨r, c, true⟩, ram)
      = ⟨.ok (op.extra r operand),
          (⟨(op.effect ram r operand).1, c, true⟩, (op.effect ram r operand).2), []⟩ := by
  cases op with
  | read op => cases operand <;> rfl
  | store op => cases operand <;> rfl
  | modify op => cases operand <;> rfl
  | register op => rfl
  | branch op =>
    cases operand with
    | target target => exact run_branch ram r c op target
    | _ => rfl
  | jump op => cases op <;> cases operand <;> rfl
  | stack op => cases op <;> rfl

end Routine

/-! ## Instructions -/

namespace Instruction

variable (i : Instruction) (ram : Ram) (r : Registers)

/-- What an instruction leaves of the registers and the memory before it. -/
def effect : Registers × Ram :=
  i.operation.effect ram (Routine.fetched r i.mode) (i.mode.operand ram r)

/-- The cycles that an instruction takes. -/
def cost : Nat :=
  i.cycles + (i.pageCycle && (i.mode.operand ram r).crossed).toNat
    + i.operation.extra (Routine.fetched r i.mode) (i.mode.operand ram r)

end Instruction

namespace Routine

variable {ram : Ram} {r : Registers} (c : UInt32)

theorem run_fetchOperand (mode : AddressingMode) :
    (fetchOperand mode).run (⟨{ r with pc := r.pc + 1 }, c, true⟩, ram)
      = ⟨.ok (mode.operand ram r), (⟨fetched r mode, c, true⟩, ram), []⟩ := by
  have hstays : r.pc + 1 + UInt16.ofNat 0 = r.pc + 1 := UInt16.add_zero _
  cases mode with
  | implied | accumulator =>
    rw [fetched, AddressingMode.operandLength, hstays]
    rfl
  | _ => rfl

theorem run_fetchInstruction {i : Instruction}
    (hi : Instruction.decode (ram.read r.pc) = some i) :
    fetchInstruction.run (⟨r, c, true⟩, ram)
      = ⟨.ok i, (⟨{ r with pc := r.pc + 1 }, c, true⟩, ram), []⟩ := by
  show (passOpcode r.pc (ram.read r.pc)).run (⟨r, c, true⟩, ram) = _
  rw [passOpcode, hi]
  rfl

/-- **An instruction does its effect and spends its cost.** -/
theorem run_step {i : Instruction} (hi : Instruction.decode (ram.read r.pc) = some i) :
    step.run (⟨r, c, true⟩, ram)
      = ⟨.ok (i.cost ram r),
          (⟨(i.effect ram r).1, c + .ofNat (i.cost ram r), true⟩, (i.effect ram r).2), []⟩ := by
  have hfinish : (finishStep i).run (⟨{ r with pc := r.pc + 1 }, c, true⟩, ram)
      = ⟨.ok (i.cost ram r),
          (⟨(i.effect ram r).1, c + .ofNat (i.cost ram r), true⟩, (i.effect ram r).2), []⟩ := by
    rw [finishStep, run_bind, Action.bind_apply, run_fetchOperand]
    show (Routine.run _ _).after [] = _
    rw [run_bind, Action.bind_apply, run_execute]
    rfl
  rw [step_eq, run_bind, Action.bind_apply, run_fetchInstruction c hi]
  exact congrArg (Outcome.after []) hfinish

end Routine

end NesMachine
