import NesMachine.Memory
import NesMachine.Proofs.Cpu.Accesses
import NesMachine.Proofs.Cpu.Flags
import NesMachine.Proofs.Cpu.History
import NesMachine.Proofs.Exchange.Writes

/-!
# `NesMachine/Proofs/Cpu/BreakFlag.lean` — the flag that is only pushed

The break flag tells a handler who called it, and it does so on the stack: the byte that a program
pushes has the flag set, the byte that a signal pushes has it clear. In the register it has no
business. The register is loaded from the stack in two ways, by `PLP` and on the return from an
interrupt, and both clear the flag on the way; nothing else touches it.

So the flag in the register is clear for good once it is clear, unless somebody sets the registers
from outside, and that also when a bus refuses an access half way (`brk_event`). What is pushed
follows from the instruction and not from the register (`pushes_php` and its neighbours).
-/

set_option autoImplicit false

namespace NesMachine

namespace Status

def BreakClear (p : Status) : Prop := p.brk = false

/-- The flag can be read off the byte. -/
theorem breakBit_toByte (p : Status) : (p.toByte &&& 0x10 != 0) = p.brk :=
  congrArg Status.brk (ofByte_toByte p)

end Status

open Status (BreakClear)

/-! ## Operations -/

theorem ReadOp.brk_apply (op : ReadOp) (value : UInt8) (r : Registers) :
    (op.apply value r).p.brk = r.p.brk := by
  cases op <;> rfl

theorem RegisterOp.brk_apply (op : RegisterOp) (r : Registers) : (op.apply r).p.brk = r.p.brk := by
  cases op <;> rfl

namespace Routine

theorem keepsBreak_returnFromInterrupt : KeepsFlags BreakClear returnFromInterrupt :=
  .bind keepsFlags_pop fun _ => .bind (.change fun _ _ => rfl) fun _ =>
    .bind keepsFlags_popWord fun _ => keepsFlags_jump _

theorem keepsBreak_branch (op : BranchOp) (target : UInt16) :
    KeepsFlags BreakClear (execute (.branch op) (.target target)) := by
  refine .registers_bind fun before _ => ?_
  by_cases htaken : op.taken before.p = true
  · simp only [htaken, if_true]
    exact .bind (keepsFlags_jump _) fun _ => .pure _
  · simp only [htaken]
    exact .pure _

theorem keepsBreak_jumpOp (op : JumpOp) (operand : Operand) :
    KeepsFlags BreakClear (execute (.jump op) operand) := by
  cases op with
  | jmp =>
    cases operand with
    | place address crossed => exact .bind (keepsFlags_jump _) fun _ => .pure _
    | _ => exact .pure _
  | jsr =>
    cases operand with
    | place address crossed =>
      exact .registers_bind fun _ _ => .bind (keepsFlags_pushWord _) fun _ =>
        .bind (keepsFlags_jump _) fun _ => .pure _
    | _ => exact .pure _
  | rts => exact .bind keepsFlags_popWord fun _ => .bind (keepsFlags_jump _) fun _ => .pure _
  | rti => exact .bind keepsBreak_returnFromInterrupt fun _ => .pure _
  | brk =>
    exact .bind (.change fun _ h => h) fun _ => .bind (keepsFlags_enterInterrupt _ _) fun _ =>
      .pure _

/-- **No operation sets the break flag.** -/
theorem keepsBreak_execute (op : Operation) (operand : Operand) :
    KeepsFlags BreakClear (execute op operand) := by
  cases op with
  | read op =>
    refine .bind (keepsFlags_operandValue operand) fun value => .bind (.change ?_) fun _ => .pure _
    intro r h
    exact (op.brk_apply value r).trans h
  | store op =>
    cases operand with
    | place address crossed =>
      exact .registers_bind fun _ _ => .bind (.store _ _) fun _ => .pure _
    | _ => exact .pure _
  | modify op =>
    -- The flags afterwards are computed from those that were read before.
    refine .bind (keepsFlags_operandValue operand) fun value => .registers_bind fun before h => ?_
    refine .bind (.change fun _ _ => ?_) fun _ => .bind (keepsFlags_putBack _ _) fun _ => .pure _
    exact h
  | register op =>
    refine .bind (.change ?_) fun _ => .pure _
    intro r h
    exact (op.brk_apply r).trans h
  | branch op =>
    cases operand with
    | target address => exact keepsBreak_branch op address
    | _ => exact .pure _
  | jump op => exact keepsBreak_jumpOp op operand
  | stack op =>
    cases op with
    | pha => exact .registers_bind fun _ _ => .bind (keepsFlags_push _) fun _ => .pure _
    | php => exact .registers_bind fun _ _ => .bind (keepsFlags_push _) fun _ => .pure _
    | pla => exact .bind keepsFlags_pop fun _ => .bind (.change fun _ h => h) fun _ => .pure _
    | plp => exact .bind keepsFlags_pop fun _ => .bind (.change fun _ _ => rfl) fun _ => .pure _

theorem keepsBreak_step : KeepsFlags BreakClear step :=
  .bind keepsFlags_fetchInstruction fun i => .bind (keepsFlags_fetchOperand i.mode) fun operand =>
    .bind (keepsBreak_execute i.operation operand) fun _ => .bind (.spend _) fun _ => .pure _

/-! ## Requests -/

theorem keepsBreak_nmi : KeepsFlags BreakClear nmi :=
  .bind .requireOn fun _ => .registers_bind fun _ _ => .bind (.log _ _) fun _ =>
    .bind (keepsFlags_enterInterrupt _ _) fun _ => .spend _

theorem keepsBreak_irq : KeepsFlags BreakClear irq := by
  refine .bind .requireOn fun _ => .registers_bind fun r _ => ?_
  split
  · exact .registers_bind fun _ _ => .bind (.log _ _) fun _ =>
      .bind (keepsFlags_enterInterrupt _ _) fun _ => .spend _
  · exact .pure _

theorem keepsBreak_clear : KeepsFlags BreakClear (alone Cpu.clear) := by
  apply KeepsFlags.alone
  intro cpu h
  obtain ⟨r, cycles, isOn⟩ := cpu
  cases isOn with
  | false => exact h
  | true => rfl

end Routine

namespace Cpu

open Routine

/-- **Only who sets the registers can set the break flag.** -/
theorem Request.keepsBreak {request : Request} (h : ∀ f, request ≠ .setRegisters f) :
    KeepsFlags BreakClear request.routine := by
  cases request with
  | setRegisters f => exact absurd rfl (h f)
  | powerOn =>
    refine .bind (.alone ?_) fun _ => .pure _
    intro cpu hcpu
    obtain ⟨r, cycles, isOn⟩ := cpu
    cases isOn with
    | false => rfl
    | true => exact hcpu
  | powerOff =>
    refine .bind (.alone ?_) fun _ => .pure _
    intro cpu hcpu
    obtain ⟨r, cycles, isOn⟩ := cpu
    cases isOn with
    | false => exact hcpu
    | true => rfl
  | clear => exact .bind keepsBreak_clear fun _ => .pure _
  | reset =>
    refine .bind ?_ fun _ => .pure _
    exact .bind keepsBreak_clear fun _ => keepsFlags_follow _
  | irq => exact .bind keepsBreak_irq fun _ => .pure _
  | nmi => exact .bind keepsBreak_nmi fun _ => .pure _
  | returnFromInterrupt => exact .bind keepsBreak_returnFromInterrupt fun _ => .pure _
  | load address => exact .bind (.load address) fun _ => .pure _
  | loadWord address => exact .bind (keepsFlags_loadWord address) fun _ => .pure _
  | store address value => exact .bind (.store address value) fun _ => .pure _
  | storeWord address value => exact .bind (keepsFlags_storeWord address value) fun _ => .pure _
  | push value => exact .bind (keepsFlags_push value) fun _ => .pure _
  | pop => exact .bind keepsFlags_pop fun _ => .pure _
  | pushWord value => exact .bind (keepsFlags_pushWord value) fun _ => .pure _
  | popWord => exact .bind keepsFlags_popWord fun _ => .pure _
  | step => exact .bind keepsBreak_step fun _ => .pure _

variable {bus : Type} [Bus bus]

theorem brk_event {call : Call bus} (hcall : ∀ f, call.request ≠ .setRegisters f) {cpu : Cpu}
    (h : cpu.registers.p.brk = false) : (call.event cpu).after.registers.p.brk = false := by
  have hends := (Request.keepsBreak hcall cpu h).run call.on
  refine Outcome.Ends.state (P := fun state : Cpu × bus => state.1.registers.p.brk = false)
    (hends.mono ?_ ?_)
  · intro answer state hstate
    exact hstate
  · intro fault state hstate
    exact hstate.elim id id

/-! ## What is pushed -/

/-- The call asks its bus to write these bytes on the stack and nothing else: all of them if it
succeeds, and the first few if it fails. -/
def Call.Pushes (call : Call bus) (cpu : Cpu) (bytes : List UInt8) : Prop :=
  let written := (call.request.routine cpu).writes call.on
  let all := pushes cpu.registers.sp.toNat bytes
  written <+: all ∧ ∀ answer, (call.event cpu).result = .ok answer → written = all

variable {cpu : Cpu}

theorem pushes_of_writes {call : Call bus} {bytes : List UInt8}
    (h : (call.request.routine cpu).Writes (pushes cpu.registers.sp.toNat bytes)) :
    call.Pushes cpu bytes := h.on_bus call.on

theorem pushes_of_off {call : Call bus} (hoff : cpu.isOn = false) (hp : call.request ≠ .powerOn)
    (hs : ∀ f, call.request ≠ .setRegisters f) (bytes : List UInt8) : call.Pushes cpu bytes := by
  apply pushes_of_writes
  rw [request_off hoff hp hs]
  trivial

/-- An interrupt writes the return address and the flags, and what comes after it may not write. -/
theorem writes_enterInterrupt {α : Type} (vector : InterruptVector) (brk : Bool) (r : Registers)
    (c : UInt32) (next : Unit → Routine α) (hnext : ∀ later, (next () later).Writes []) :
    ((enterInterrupt vector brk >>= next) ⟨r, c, true⟩).Writes
      (pushes r.sp.toNat [highByte r.pc, lowByte r.pc, { r.p with brk := brk }.toByte]) := by
  rw [pushes_cons, pushes_cons, pushes_cons]
  exact ⟨_, rfl, _, rfl, _, rfl, fun _ _ => hnext _⟩

theorem pushes_nmi (on : bus) (cpu : Cpu) :
    let r := cpu.registers
    (⟨.nmi, on⟩ : Call bus).Pushes cpu
      [highByte r.pc, lowByte r.pc, { r.p with brk := false }.toByte] := by
  intro r
  obtain ⟨_, c, isOn⟩ := cpu
  cases isOn with
  | false => exact pushes_of_off rfl (by simp) (by simp) _
  | true =>
    apply pushes_of_writes
    exact writes_enterInterrupt .nmi false r c
      (fun _ => spend interruptCycles >>= fun _ => pure Answer.nothing) fun _ => rfl

theorem pushes_irq (on : bus) (cpu : Cpu) :
    let r := cpu.registers
    (⟨.irq, on⟩ : Call bus).Pushes cpu (if r.p.interrupt then
      [highByte r.pc, lowByte r.pc, { r.p with brk := false }.toByte] else []) := by
  intro r
  obtain ⟨_, c, isOn⟩ := cpu
  cases isOn with
  | false => exact pushes_of_off rfl (by simp) (by simp) _
  | true =>
    apply pushes_of_writes
    show (((if r.p.interrupt = true then _ else _ : Routine Unit) >>= fun _ => pure Answer.nothing)
      _).Writes _
    by_cases hi : r.p.interrupt = true
    · rw [if_pos hi, if_pos hi]
      exact writes_enterInterrupt .irq false r c
        (fun _ => spend interruptCycles >>= fun _ => pure Answer.nothing) fun _ => rfl
    · rw [if_neg hi, if_neg hi]
      rfl

/-- A step writes what the rest of it writes once its opcode has been read. -/
theorem pushes_step {on : bus} {cpu : Cpu} {opcode : UInt8} {i : Instruction} {bytes : List UInt8}
    (hread : (Bus.read on cpu.registers.pc).1 = .ok opcode)
    (hd : Instruction.decode opcode = some i)
    (hrest : ∀ c, ((finishStep i >>= fun count => pure (Answer.cycles count))
      ⟨{ cpu.registers with pc := cpu.registers.pc + 1 }, c, true⟩).Writes
        (pushes cpu.registers.sp.toNat bytes)) :
    (⟨.step, on⟩ : Call bus).Pushes cpu bytes := by
  obtain ⟨r, c, isOn⟩ := cpu
  cases isOn with
  | false => exact pushes_of_off rfl (by simp) (by simp) _
  | true =>
    refine Exchange.Writes.after_read hread ?_
    show (((passOpcode r.pc opcode >>= finishStep) >>= fun count => pure (Answer.cycles count))
      ⟨r, c, true⟩).Writes _
    rw [passOpcode, hd]
    exact hrest c

theorem pushes_php (on : bus) (cpu : Cpu)
    (hread : (Bus.read on cpu.registers.pc).1 = .ok 0x08) :
    (⟨.step, on⟩ : Call bus).Pushes cpu [{ cpu.registers.p with brk := true }.toByte] := by
  have hd : Instruction.decode 0x08 = some ⟨0x08, .stack .php, .implied, 3, false⟩ := by
    decide +kernel
  apply pushes_step hread hd
  intro c
  rw [pushes_cons]
  exact ⟨_, rfl, rfl⟩

theorem pushes_brk (on : bus) (cpu : Cpu)
    (hread : (Bus.read on cpu.registers.pc).1 = .ok 0x00) :
    let r := cpu.registers
    (⟨.step, on⟩ : Call bus).Pushes cpu
      [highByte (r.pc + 2), lowByte (r.pc + 2), { r.p with brk := true }.toByte] := by
  intro r
  have hd : Instruction.decode 0x00 = some ⟨0x00, .jump .brk, .implied, 7, false⟩ := by
    decide +kernel
  have hpc : r.pc + 2 = r.pc + 1 + 1 := (UInt16.add_assoc r.pc 1 1).symm
  rw [hpc]
  apply pushes_step hread hd
  intro c
  exact writes_enterInterrupt .irq true { r with pc := r.pc + 1 + 1 } c
    (fun _ => spend 7 >>= fun _ => pure (Answer.cycles 7)) fun _ => rfl

/-! ## A handler can tell -/

/-- **The break flag is nowhere but on the stack, and there it tells who pushed.**

Whatever is asked of a processor that was just switched on, and on whatever buses, the flag is clear
before and after each call, unless somebody sets the registers.

A step of `PHP` or `BRK` pushes the flags with the break flag set, and a signal that is served pushes
them with the flag clear. These are the bytes that the bus is asked to write, with the return address
before them; a bus that refuses can only stop the push short. -/
theorem break_flag_tells (calls : List (Call bus))
    (hcalls : ∀ call ∈ calls, ∀ f, call.request ≠ .setRegisters f) :
    let start : Cpu := ⟨.powerOn, 0, true⟩
    ((afterCalls calls start).registers.p.brk = false ∧
      ∀ event ∈ history calls start,
        event.before.registers.p.brk = false ∧ event.after.registers.p.brk = false) ∧
    ∀ (on : bus) (cpu : Cpu),
      let r := cpu.registers
      let byProgram := { r.p with brk := true }.toByte
      let bySignal := { r.p with brk := false }.toByte
      (byProgram &&& 0x10 ≠ 0 ∧ bySignal &&& 0x10 = 0) ∧
      ((Bus.read on r.pc).1 = .ok 0x08 → (⟨.step, on⟩ : Call bus).Pushes cpu [byProgram]) ∧
      ((Bus.read on r.pc).1 = .ok 0x00 →
        (⟨.step, on⟩ : Call bus).Pushes cpu
          [highByte (r.pc + 2), lowByte (r.pc + 2), byProgram]) ∧
      (⟨.nmi, on⟩ : Call bus).Pushes cpu [highByte r.pc, lowByte r.pc, bySignal] ∧
      (⟨.irq, on⟩ : Call bus).Pushes cpu
        (if r.p.interrupt then [highByte r.pc, lowByte r.pc, bySignal] else []) := by
  intro start
  refine ⟨?_, ?_⟩
  · refine history_kept (P := fun cpu => cpu.registers.p.brk = false) ?_ rfl
    intro call hcall cpu hcpu
    exact brk_event (hcalls call hcall) hcpu
  · intro on cpu r byProgram bySignal
    have hset : (byProgram &&& 0x10 != 0) = true := Status.breakBit_toByte _
    have hclear : (bySignal &&& 0x10 != 0) = false := Status.breakBit_toByte _
    refine ⟨⟨by simpa using hset, by simpa using hclear⟩, ?_, ?_, ?_, ?_⟩
    · exact pushes_php on cpu
    · exact pushes_brk on cpu
    · exact pushes_nmi on cpu
    · exact pushes_irq on cpu

/-- `PLP` and `PHP`, and a byte with all flags set where the stack begins. -/
def pullRam : Ram := ((Ram.zeros.write 0x0000 0x28).write 0x0001 0x08).write 0x0100 0xFF

/-- The flags are pulled, and then a signal comes that cannot be served. -/
def pullCalls : List (Call Memory) := [⟨.step, .on pullRam⟩, ⟨.irq, .off⟩]

def pulledCpu : Cpu := ⟨⟨0, 0, 0, .ofByte 0xEF, 0x00, 0x0001⟩, 4, true⟩

/-- All flags but the one are set afterwards. A signal pushes them like this, and `PHP` with all
eight of them. -/
theorem break_flag_after_pull :
    (∀ call ∈ pullCalls, ∀ f, call.request ≠ .setRegisters f) ∧
    let cpu := afterCalls pullCalls ⟨.powerOn, 0, true⟩
    cpu.registers.p.brk = false ∧ cpu.registers.p.toByte = 0xEF ∧
      (⟨.irq, .on pullRam⟩ : Call Memory).Pushes cpu [0x00, 0x01, 0xEF] ∧
      (⟨.step, .on pullRam⟩ : Call Memory).Pushes cpu [0xFF] := by
  have hcalls : ∀ call ∈ pullCalls, ∀ f, call.request ≠ .setRegisters f := by
    simp [pullCalls]
  have hafter : afterCalls pullCalls ⟨.powerOn, 0, true⟩ = pulledCpu := by decide +kernel
  have hread : (Bus.read (Memory.on pullRam) 0x0001).1 = .ok 0x08 :=
    congrArg Except.ok (by decide +kernel : pullRam.read 0x0001 = 0x08)
  obtain ⟨⟨hbrk, -⟩, hpushes⟩ := break_flag_tells pullCalls hcalls
  obtain ⟨-, hphp, -, -, hirq⟩ := hpushes (.on pullRam) pulledCpu
  refine ⟨hcalls, hbrk, ?_⟩
  rw [hafter]
  exact ⟨rfl, hirq, hphp hread⟩

end Cpu

end NesMachine
