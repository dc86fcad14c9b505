import NesMachine.Cpu.Step
import NesMachine.Proofs.Exchange.Contract

/-!
# `NesMachine/Proofs/Cpu/Flags.lean` — what is true of the flags all the way

An invariant of the flags has to hold wherever the bus may refuse an access, not only where an
instruction ends. `KeepsFlags P` says this of a routine: if the flags satisfy `P` when it starts, they
do at each of its accesses and at its end, whatever the bus answers.

Registers are changed by `change` and by nothing else, so a routine that only moves the program
counter and the stack pointer keeps every `P`. Those are the accesses and everything that finds an
operand, and they are dealt with here for all `P` at once. What an operation does to the flags depends
on the flags in question.
-/

set_option autoImplicit false

namespace NesMachine

/-- The contract of work at whose ends, however it ends, the flags satisfy `P`. -/
def Contract.flags {α : Type} (P : Status → Prop) : Contract α where
  returns _ later := P later.registers.p
  refuses _ later := P later.registers.p
  cut later := P later.registers.p

namespace Routine

/-- The flags satisfy `P` all the way if they do at the start. -/
def KeepsFlags {α : Type} (P : Status → Prop) (r : Routine α) : Prop :=
  ∀ cpu : Cpu, P cpu.registers.p → (r cpu).Fulfils (.flags P)

variable {α β : Type} {P : Status → Prop}

/-! ## How routines are put together -/

namespace KeepsFlags

theorem pure (value : α) : KeepsFlags P (pure value : Routine α) := by
  intro cpu h
  exact h

theorem refuse (fault : Fault) : KeepsFlags P (refuse fault : Routine α) := by
  intro cpu h
  exact h

theorem bind {first : Routine α} {next : α → Routine β} (h : KeepsFlags P first)
    (hnext : ∀ value, KeepsFlags P (next value)) : KeepsFlags P (first >>= next) := by
  intro cpu hcpu
  apply (fulfils_bind first next cpu).mpr
  apply Exchange.Fulfils.mono _ _ _ (h cpu hcpu)
  · intro value later hlater
    exact hnext value later hlater
  · intro fault later hlater
    exact hlater
  · intro later hlater
    exact hlater

/-- What goes on with the registers may rely on the flags in them. -/
theorem registers_bind {next : Registers → Routine α}
    (hnext : ∀ r, P r.p → KeepsFlags P (next r)) : KeepsFlags P (registers >>= next) := by
  intro cpu h
  exact hnext cpu.registers h cpu h

theorem change {f : Registers → Registers} (hf : ∀ r, P r.p → P (f r).p) :
    KeepsFlags P (change f) := by
  intro cpu h
  exact hf cpu.registers h

theorem spend (cycles : Nat) : KeepsFlags P (spend cycles) := by
  intro cpu h
  exact h

theorem log (level : Log.Level) (text : String) : KeepsFlags P (log level text) := by
  intro cpu h
  exact h

theorem load (address : UInt16) : KeepsFlags P (load address) := by
  intro cpu h
  rw [Routine.load]
  split
  · exact ⟨h, fun _ => h⟩
  · exact h

theorem store (address : UInt16) (value : UInt8) : KeepsFlags P (store address value) := by
  intro cpu h
  rw [Routine.store]
  split
  · exact ⟨h, h⟩
  · exact h

/-- What is done to the processor alone is seen by its log and by what it leaves. -/
theorem alone {action : Action Cpu α}
    (hstate : ∀ cpu, P cpu.registers.p → P (action cpu).state.registers.p) :
    KeepsFlags P (alone action) := by
  intro cpu h
  have hleft := hstate cpu h
  rw [Routine.alone]
  generalize action cpu = outcome at hleft
  obtain ⟨result, later, entries⟩ := outcome
  show Exchange.Fulfils _ (entries.foldr .report (.done later result))
  induction entries with
  | nil => cases result <;> exact hleft
  | cons entry entries ih => exact ih hleft

theorem requireOn : KeepsFlags P (Routine.alone Cpu.requireOn) := by
  apply alone
  intro cpu h
  rw [Cpu.requireOn, Action.require]
  split <;> exact h

end KeepsFlags

/-! ## Accesses -/

theorem keepsFlags_jump (address : UInt16) : KeepsFlags P (jump address) :=
  .change fun _ h => h

theorem keepsFlags_loadSplit (low high : UInt16) : KeepsFlags P (loadSplit low high) :=
  .bind (.load low) fun _ => .bind (.load high) fun _ => .pure _

theorem keepsFlags_loadWord (address : UInt16) : KeepsFlags P (loadWord address) :=
  keepsFlags_loadSplit address (address + 1)

theorem keepsFlags_storeWord (address value : UInt16) : KeepsFlags P (storeWord address value) :=
  .bind (.store _ _) fun _ => .store _ _

theorem keepsFlags_push (value : UInt8) : KeepsFlags P (push value) :=
  .registers_bind fun _ _ => .bind (.store _ _) fun _ => .change fun _ h => h

theorem keepsFlags_pop : KeepsFlags P pop :=
  .bind .requireOn fun _ => .bind (.change fun _ h => h) fun _ =>
    .registers_bind fun _ _ => .load _

theorem keepsFlags_pushWord (value : UInt16) : KeepsFlags P (pushWord value) :=
  .bind (keepsFlags_push _) fun _ => keepsFlags_push _

theorem keepsFlags_popWord : KeepsFlags P popWord :=
  .bind keepsFlags_pop fun _ => .bind keepsFlags_pop fun _ => .pure _

theorem keepsFlags_follow (vector : InterruptVector) : KeepsFlags P (follow vector) :=
  .bind (keepsFlags_loadWord _) fun _ => keepsFlags_jump _

/-- The flags that are pushed may differ from those in the register, which stay. -/
theorem keepsFlags_enterInterrupt (vector : InterruptVector) (brk : Bool) :
    KeepsFlags P (enterInterrupt vector brk) :=
  .registers_bind fun _ _ => .bind (keepsFlags_pushWord _) fun _ =>
    .registers_bind fun _ _ => .bind (keepsFlags_push _) fun _ => keepsFlags_follow vector

/-! ## Operands -/

theorem keepsFlags_fetch : KeepsFlags P fetch :=
  .registers_bind fun _ _ => .bind (.load _) fun _ => .bind (.change fun _ h => h) fun _ => .pure _

theorem keepsFlags_fetchWord : KeepsFlags P fetchWord :=
  .registers_bind fun _ _ => .bind (keepsFlags_loadWord _) fun _ =>
    .bind (.change fun _ h => h) fun _ => .pure _

theorem keepsFlags_registers {f : Registers → α} :
    KeepsFlags P (registers >>= fun r => pure (f r)) :=
  .registers_bind fun _ _ => .pure _

theorem keepsFlags_fetchOperand (mode : AddressingMode) : KeepsFlags P (fetchOperand mode) := by
  cases mode with
  | implied | accumulator => exact .pure _
  | immediate | zeroPage => exact .bind keepsFlags_fetch fun _ => .pure _
  | zeroPageX | zeroPageY | relative =>
    exact .bind keepsFlags_fetch fun _ => keepsFlags_registers
  | absolute => exact .bind keepsFlags_fetchWord fun _ => .pure _
  | absoluteX | absoluteY => exact .bind keepsFlags_fetchWord fun _ => keepsFlags_registers
  | indirect =>
    exact .bind keepsFlags_fetchWord fun _ => .bind (keepsFlags_loadSplit _ _) fun _ => .pure _
  | indirectX =>
    exact .bind keepsFlags_fetch fun _ => .registers_bind fun _ _ =>
      .bind (keepsFlags_loadSplit _ _) fun _ => .pure _
  | indirectY =>
    exact .bind keepsFlags_fetch fun _ => .bind (keepsFlags_loadSplit _ _) fun _ =>
      keepsFlags_registers

theorem keepsFlags_operandValue (operand : Operand) : KeepsFlags P (operandValue operand) := by
  cases operand with
  | accumulator => exact keepsFlags_registers
  | place address crossed => exact .load address
  | nothing | value | target => exact .pure _

theorem keepsFlags_putBack (operand : Operand) (result : UInt8) :
    KeepsFlags P (putBack operand result) := by
  cases operand with
  | accumulator => exact .change fun _ h => h
  | place address crossed => exact .store address result
  | nothing | value | target => exact .pure _

theorem keepsFlags_fetchInstruction : KeepsFlags P fetchInstruction := by
  refine .registers_bind fun before _ => .bind (.load _) fun opcode => ?_
  rw [passOpcode]
  cases Instruction.decode opcode with
  | none => exact .refuse _
  | some i => exact .bind (keepsFlags_jump _) fun _ => .pure _

end Routine

end NesMachine
