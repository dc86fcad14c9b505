import NesMachine.Proofs.Cpu.Arithmetic
import NesMachine.Proofs.Cpu.Flow
import NesMachine.Proofs.Cpu.Interruption

/-!
# `NesMachine/Proofs/Cpu/Frame.lean` — what an instruction leaves alone

An instruction changes what it is documented to change, and the rest stays. The registers and the
flags are taken one by one here, as `Part`s, and `Part.changedBy` is the table of the operations
that may change each of them: what is not in the table is kept. The stack pointer is known exactly,
so it has a function of its own (`Operation.spAfter`), and of the memory it is known which cells are
written (`Instruction.written`).

Each sort of operation is looked at by itself, because the operations of a sort differ in a function
on registers and in nothing else.
-/

set_option autoImplicit false

namespace NesMachine

/-! ## The tables -/

/-- A register, or a flag. -/
inductive Part where
  | a | x | y
  | carry | zero | interrupt | decimal | brk | unused | overflow | negative
  deriving DecidableEq

/-- The part has the same value before and after. -/
def Part.Kept (before after : Registers) : Part → Prop
  | a => after.a = before.a
  | x => after.x = before.x
  | y => after.y = before.y
  | carry => after.p.carry = before.p.carry
  | zero => after.p.zero = before.p.zero
  | interrupt => after.p.interrupt = before.p.interrupt
  | decimal => after.p.decimal = before.p.decimal
  | brk => after.p.brk = before.p.brk
  | unused => after.p.unused = before.p.unused
  | overflow => after.p.overflow = before.p.overflow
  | negative => after.p.negative = before.p.negative

namespace Operation

/-- The operations that take all flags from the stack. -/
def restorers : List Operation := [.stack .plp, .jump .rti]

/-- The shifts and rotates. -/
def shifts : List Operation := [.modify .asl, .modify .lsr, .modify .rol, .modify .ror]

/-- The operations that have no result for zero and negative to tell of. -/
def hasNoResult : Operation → Bool
  | store _ => true
  | register op => op ∈ [.txs, .clc, .sec, .cld, .sed, .cli, .sei, .clv, .nop]
  | branch _ => true
  | jump op => op ∈ [.jmp, .jsr, .rts, .brk]
  | stack op => op ∈ [.pha, .php]
  | _ => false

end Operation

open Operation in
/-- Whether an instruction is one of those that may change the part. -/
def Part.changedBy (op : Operation) (mode : AddressingMode) : Part → Bool
  | a =>
    op ∈ [.read .lda, .register .txa, .register .tya, .read .adc, .read .sbc, .read .and,
      .read .eor, .read .ora, .stack .pla]
      || op ∈ shifts && mode == .accumulator
  | x => op ∈ [.read .ldx, .register .tax, .register .tsx, .register .inx, .register .dex]
  | y => op ∈ [.read .ldy, .register .tay, .register .iny, .register .dey]
  | carry =>
    op ∈ [.read .adc, .read .sbc, .read .cmp, .read .cpx, .read .cpy, .register .clc,
      .register .sec] ++ shifts ++ restorers
  | zero => !op.hasNoResult
  | interrupt => op ∈ [.register .sei, .register .cli] ++ restorers
  | decimal => op ∈ [.register .sed, .register .cld] ++ restorers
  | brk => op ∈ restorers
  | unused => op ∈ restorers
  | overflow => op ∈ [.read .adc, .read .sbc, .read .bit, .register .clv] ++ restorers
  | negative => !op.hasNoResult

/-- How far a push or a pull moves the stack pointer. -/
def StackOp.stackMove : StackOp → UInt8
  | pha => -1
  | php => -1
  | pla => 1
  | plp => 1

/-- The stack pointer after an operation. -/
def Operation.spAfter (r : Registers) : Operation → UInt8
  | register .txs => r.x
  | stack op => r.sp + op.stackMove
  | jump op => r.sp + op.stackMove
  | _ => r.sp

namespace Instruction

/-- The cells that an instruction writes: the one at the effective address, or those that it pushes
to. -/
def written (i : Instruction) (ram : Ram) (r : Registers) : List UInt16 :=
  match i.operation with
  | .store _ => (i.mode.effectiveAddress ram r).toList.map .ofNat
  | .modify _ => (i.mode.effectiveAddress ram r).toList.map .ofNat
  | .stack .pha => [stackBelow r.sp 0]
  | .stack .php => [stackBelow r.sp 0]
  | .jump .jsr => [stackBelow r.sp 0, stackBelow r.sp 1]
  | .jump .brk => [stackBelow r.sp 0, stackBelow r.sp 1, stackBelow r.sp 2]
  | _ => []

/-- The byte that zero and negative tell of: the difference in a comparison, and otherwise what is
left in the place that the result has been put to. -/
def described (i : Instruction) (ram : Ram) (before after : Registers) (now : Ram) :
    Option UInt8 :=
  let value := i.mode.valueByte ram before
  match i.operation with
  | .read .ldx => some after.x
  | .read .ldy => some after.y
  | .read .cmp => some (before.a - value)
  | .read .cpx => some (before.x - value)
  | .read .cpy => some (before.y - value)
  | .read .bit => none
  | .read _ => some after.a
  | .modify _ =>
    match i.mode.effectiveAddress ram before with
    | some place => some (now.read (.ofNat place))
    | none => some after.a
  | .register op =>
    if op ∈ [.tax, .tsx, .inx, .dex] then some after.x
    else if op ∈ [.tay, .iny, .dey] then some after.y
    else if op ∈ [.txa, .tya] then some after.a
    else none
  | .stack .pla => some after.a
  | _ => none

end Instruction

/-! ## The parts that are kept -/

namespace Part

variable {part : Part} {before after : Registers} {mode : AddressingMode}

theorem kept_refl (part : Part) (r : Registers) : part.Kept r r := by
  cases part <;> rfl

/-- Finding the operand moves the program counter, which is no part. -/
theorem kept_of_fetched (h : part.Kept (Routine.fetched before mode) after) :
    part.Kept before after := by
  cases part <;> exact h

theorem kept_read {op : ReadOp} (h : part.changedBy (.read op) mode = false) (r : Registers)
    (value : UInt8) : part.Kept r (op.apply value r) := by
  cases op <;> cases part <;> first | rfl | exact (Bool.false_ne_true h.symm).elim

theorem kept_register {op : RegisterOp} (h : part.changedBy (.register op) mode = false)
    (r : Registers) : part.Kept r (op.apply r) := by
  cases op <;> cases part <;> first | rfl | exact (Bool.false_ne_true h.symm).elim

theorem kept_branch (op : BranchOp) (ram : Ram) (r : Registers) (operand : Operand) :
    part.Kept r ((Operation.branch op).effect ram r operand).1 := by
  cases operand with
  | target target =>
    rw [Operation.effect]
    cases op.taken r.p <;> cases part <;> rfl
  | _ => exact kept_refl part r

theorem kept_jump {op : JumpOp} (h : part.changedBy (.jump op) mode = false) (ram : Ram)
    (r : Registers) (operand : Operand) :
    part.Kept r ((Operation.jump op).effect ram r operand).1 := by
  cases op with
  | jmp | jsr => cases operand <;> cases part <;> rfl
  | rts | brk => cases part <;> rfl
  | rti => cases part <;> first | rfl | exact (Bool.false_ne_true h.symm).elim

theorem kept_stack {op : StackOp} (h : part.changedBy (.stack op) mode = false) (ram : Ram)
    (r : Registers) (operand : Operand) :
    part.Kept r ((Operation.stack op).effect ram r operand).1 := by
  cases op <;> cases part <;> first | rfl | exact (Bool.false_ne_true h.symm).elim

/-- Only the accumulator depends on the form of a shift: it is the place of its result or not. -/
theorem kept_modify {op : ModifyOp} (h : part.changedBy (.modify op) mode = false)
    (hform : mode = .accumulator → .modify op ∈ Operation.shifts) (ram : Ram) (r : Registers) :
    part.Kept (Routine.fetched r mode)
      ((Operation.modify op).effect ram (Routine.fetched r mode) (mode.operand ram r)).1 := by
  by_cases hmode : mode = .accumulator
  · obtain rfl := hmode
    have hshift := hform rfl
    cases op <;> cases part <;>
      first | rfl | exact (Bool.false_ne_true h.symm).elim | exact absurd hshift (by decide)
  · have hleft (value : UInt8) : part.Kept (Routine.fetched r mode)
        { Routine.fetched r mode with p := op.flags r.p value } := by
      cases op <;> cases part <;> first | rfl | exact (Bool.false_ne_true h.symm).elim
    cases mode <;> first | exact hleft _ | exact absurd rfl hmode

end Part

/-- Only shifts and rotates have an accumulator form. -/
theorem Instruction.shifts_of_accumulator :
    ∀ i ∈ documented, i.mode = .accumulator → i.operation ∈ Operation.shifts := by
  decide +kernel

theorem Instruction.kept_effect {i : Instruction} (hi : i ∈ documented) {part : Part}
    (h : part.changedBy i.operation i.mode = false) (ram : Ram) (r : Registers) :
    part.Kept r (i.effect ram r).1 := by
  have hform := shifts_of_accumulator i hi
  obtain ⟨opcode, op, mode, cycles, pageCycle⟩ := i
  refine Part.kept_of_fetched (?_ : part.Kept (Routine.fetched r mode) _)
  cases op with
  | read op => exact Part.kept_read h _ _
  | store op =>
    rw [effect]
    cases mode.operand ram r <;> exact Part.kept_refl part _
  | modify op => exact Part.kept_modify h hform ram r
  | register op => exact Part.kept_register h _
  | branch op => exact Part.kept_branch op ram _ _
  | jump op => exact Part.kept_jump h ram _ _
  | stack op => exact Part.kept_stack h ram _ _

/-! ## The stack pointer -/

theorem Instruction.sp_effect {i : Instruction} (hi : i ∈ documented) (ram : Ram) (r : Registers) :
    (i.effect ram r).1.sp = i.operation.spAfter r := by
  have hfit := fits_documented i hi
  have hdown : r.sp - 1 = r.sp + -1 := UInt8.sub_eq_add_neg r.sp 1
  obtain ⟨opcode, op, mode, cycles, pageCycle⟩ := i
  rw [effect]
  cases op with
  | read op => cases op <;> rfl
  | store op => cases mode.operand ram r <;> rfl
  | modify op => cases mode.operand ram r <;> rfl
  | register op => cases op <;> rfl
  | branch op =>
    cases mode.operand ram r with
    | target target =>
      rw [Operation.effect]
      cases op.taken (Routine.fetched r mode).p <;> rfl
    | _ => rfl
  | jump op => exact sp_effect_jump hfit ram r
  | stack op =>
    cases op with
    | pha | php => exact hdown
    | pla | plp => rfl

/-! ## Memory -/

theorem Ram.read_pushed_of_not_mem (ram : Ram) (sp : UInt8) (bytes : List UInt8)
    (hfits : bytes.length ≤ 256) {address : UInt16}
    (h : address ∉ (List.range bytes.length).map (stackBelow sp)) :
    (ram.pushed sp bytes).read address = ram.read address := by
  apply read_pushed_of_ne
  rintro n hn rfl
  refine h (List.mem_map.mpr ⟨n, List.mem_range.mpr hn, ?_⟩)
  exact stackBelow_eq sp (by omega)

theorem Instruction.read_effect {i : Instruction} (hi : i ∈ documented) (ram : Ram) (r : Registers)
    {address : UInt16} (h : address ∉ i.written ram r) :
    (i.effect ram r).2.read address = ram.read address := by
  have hfit := fits_documented i hi
  obtain ⟨opcode, op, mode, cycles, pageCycle⟩ := i
  rw [effect]
  rw [written] at h
  -- A result that is put back, or a register that is stored, is in the cell of its operand.
  have hcell (hmode : mode.inMemory = true)
      (h : address ∉ (mode.effectiveAddress ram r).toList.map .ofNat) :
      ∃ place crossed, mode.operand ram r = .place place crossed ∧
        ∀ value, (ram.write place value).read address = ram.read address := by
    obtain ⟨place, crossed, hplace, hoperand⟩ := Routine.exists_place ram r hmode
    rw [hplace] at h
    refine ⟨.ofNat place, crossed, hoperand, fun value => Ram.read_write_other ram value ?_⟩
    simpa [eq_comm] using h
  cases op with
  | read op => rfl
  | register op => rfl
  | branch op => cases mode.operand ram r <;> rfl
  | store op =>
    obtain ⟨place, crossed, hoperand, hread⟩ := hcell hfit h
    rw [hoperand]
    exact hread _
  | modify op =>
    have hmode : mode.inMemory = true ∨ mode = .accumulator := by
      simpa [Operation.fits] using hfit
    rcases hmode with hmode | rfl
    · obtain ⟨place, crossed, hoperand, hread⟩ := hcell hmode h
      rw [hoperand]
      exact hread _
    · rfl
  | jump op =>
    cases op with
    | jmp => cases mode.operand ram r <;> rfl
    | jsr =>
      obtain rfl : mode = .absolute := by simpa [Operation.fits] using hfit
      exact Ram.read_pushed_of_not_mem _ _ [_, _] (by simp) h
    | rts | rti => rfl
    | brk => exact Ram.read_pushed_of_not_mem _ _ [_, _, _] (by simp) h
  | stack op =>
    cases op with
    | pha | php => exact Ram.read_pushed_of_not_mem _ _ [_] (by simp) h
    | pla | plp => rfl

/-! ## Zero and negative -/

namespace Instruction

/-- **Where zero and negative are set from a result, they describe it.** -/
theorem describes_effect {i : Instruction} (hi : i ∈ documented) {ram : Ram} {r : Registers}
    {result : UInt8}
    (h : i.described ram r (i.effect ram r).1 (i.effect ram r).2 = some result) :
    (i.effect ram r).1.p.Describes result := by
  have hfit := fits_documented i hi
  obtain ⟨opcode, op, mode, cycles, pageCycle⟩ := i
  cases op with
  | read op =>
    rw [effect_read hi rfl] at h ⊢
    cases op with
    | bit => cases h
    | _ =>
      obtain rfl := Option.some.inj h
      exact Status.describes_withResult _ _
  | modify op =>
    have hmode : mode.inMemory = true ∨ mode = .accumulator := by
      simpa [Operation.fits] using hfit
    rcases hmode with hmode | rfl
    · obtain ⟨place, crossed, hplace, hoperand⟩ := Routine.exists_place ram r hmode
      rw [described, hplace, effect, hoperand] at h
      rw [effect, hoperand]
      obtain rfl := Option.some.inj h
      rw [Operation.effect, Ram.read_write_same]
      exact Status.describes_withResult _ _
    · obtain rfl := Option.some.inj h
      exact Status.describes_withResult _ _
  | register op =>
    cases op with
    | txs | clc | sec | cld | sed | cli | sei | clv | nop => cases h
    | _ =>
      obtain rfl := Option.some.inj h
      exact Status.describes_withResult _ _
  | stack op =>
    cases op with
    | pla =>
      obtain rfl := Option.some.inj h
      exact Status.describes_withResult _ _
    | _ => cases h
  | store op | branch op | jump op => cases h

/-- What may change zero and negative has a result, or is one of three: `BIT`, which takes them from
two places, and the two that take them from the stack. -/
theorem exists_described {i : Instruction}
    (h : Part.zero.changedBy i.operation i.mode = true) (ram : Ram) (before after : Registers)
    (now : Ram) :
    i.operation = .read .bit ∨ i.operation ∈ Operation.restorers ∨
      ∃ result, i.described ram before after now = some result := by
  obtain ⟨opcode, op, mode, cycles, pageCycle⟩ := i
  cases op with
  | read op =>
    cases op with
    | bit => exact .inl rfl
    | _ => exact .inr (.inr ⟨_, rfl⟩)
  | modify op =>
    refine .inr (.inr ?_)
    rw [described]
    cases mode.effectiveAddress ram before <;> exact ⟨_, rfl⟩
  | register op =>
    cases op with
    | txs | clc | sec | cld | sed | cli | sei | clv | nop => exact (Bool.false_ne_true h).elim
    | _ => exact .inr (.inr ⟨_, rfl⟩)
  | jump op =>
    cases op with
    | rti => exact .inr (.inl (.tail _ (.head _)))
    | _ => exact (Bool.false_ne_true h).elim
  | stack op =>
    cases op with
    | pla => exact .inr (.inr ⟨_, rfl⟩)
    | plp => exact .inr (.inl (.head _))
    | _ => exact (Bool.false_ne_true h).elim
  | store op | branch op => exact (Bool.false_ne_true h).elim

end Instruction

/-- The two upper bits of a byte. -/
theorem upperBits_eq (byte : UInt8) :
    (byte &&& 0x80 != 0) = byte.toNat.testBit 7 ∧ (byte &&& 0x40 != 0) = byte.toNat.testBit 6 := by
  have hall : ∀ n < 256, (UInt8.ofNat n &&& 0x80 != 0) = (UInt8.ofNat n).toNat.testBit 7 ∧
      (UInt8.ofNat n &&& 0x40 != 0) = (UInt8.ofNat n).toNat.testBit 6 := by
    decide +kernel
  simpa only [UInt8.ofNat_toNat] using hall byte.toNat byte.toNat_lt

/-! ## The instructions -/

namespace Cpu

/-- **An instruction changes what it is documented to change.**

A step with a documented opcode succeeds. Then a register or flag is kept unless the instruction is
one of those that may change it, the stack pointer is moved as far as the operation says and no
further, and every cell is kept but those that the instruction writes. An instruction that may
change zero and negative makes them describe its result, but for `PLP` and `RTI`, which restore
them, and `BIT`: there zero says whether the accumulator and the operand have no bit in common, and
negative and overflow are the upper bits of the operand. -/
theorem frame_of_step (cpu : Cpu) (ram : Ram) (i : Instruction) (hon : cpu.isOn = true)
    (hi : Instruction.decode (ram.read cpu.registers.pc) = some i) :
    let outcome := Routine.step.run (cpu, ram)
    let before := cpu.registers
    let after := outcome.state.1.registers
    let now := outcome.state.2
    let v := i.mode.valueByte ram before
    (∃ cycles, outcome.result = .ok cycles) ∧
    (∀ part : Part, part.changedBy i.operation i.mode = false → part.Kept before after) ∧
    after.sp = i.operation.spAfter before ∧
    (∀ address, address ∉ i.written ram before → now.read address = ram.read address) ∧
    (Part.zero.changedBy i.operation i.mode = true →
      i.operation = .read .bit ∨ i.operation ∈ Operation.restorers ∨
      ∃ result, i.described ram before after now = some result ∧ after.p.Describes result) ∧
    (i.operation = .read .bit →
      (after.p.zero = true ↔ before.a &&& v = 0) ∧
      after.p.negative = v.toNat.testBit 7 ∧ after.p.overflow = v.toNat.testBit 6) := by
  intro outcome before after now v
  obtain ⟨r, cycles, on⟩ := cpu
  obtain rfl : on = true := hon
  have hlisted := (Instruction.decode_eq_some_iff.mp hi).1
  have hstep : outcome = _ := Routine.run_step cycles hi
  have hresult : ∃ cycles, outcome.result = .ok cycles := ⟨_, congrArg Outcome.result hstep⟩
  have hafter : after = (i.effect ram r).1 := congrArg (·.state.1.registers) hstep
  have hnow : now = (i.effect ram r).2 := congrArg (·.state.2) hstep
  rw [hafter, hnow]
  refine ⟨hresult, fun part h => Instruction.kept_effect hlisted h ram r,
    Instruction.sp_effect hlisted ram r, fun address h => Instruction.read_effect hlisted ram r h,
    ?_, ?_⟩
  · intro hchanged
    rcases Instruction.exists_described hchanged ram r (i.effect ram r).1 (i.effect ram r).2
      with hbit | hrestores | ⟨result, hresult⟩
    · exact .inl hbit
    · exact .inr (.inl hrestores)
    · exact .inr (.inr ⟨result, hresult, Instruction.describes_effect hlisted hresult⟩)
  · intro hbit
    rw [Instruction.effect_read hlisted hbit]
    exact ⟨beq_iff_eq, upperBits_eq v⟩

/-- A processor that is about to move a negative number to its stack pointer. -/
def transferCpu : Cpu := ⟨{ Registers.powerOn with x := 0x80 }, 0, true⟩

/-- `TXS` moves the stack pointer, and of the flags and of memory it changes nothing. -/
theorem frame_of_transfer :
    transferCpu.isOn = true ∧
    Instruction.decode ((Ram.zeros.write 0 0x9A).read 0)
      = some ⟨0x9A, .register .txs, .implied, 2, false⟩ ∧
    (let after := (Routine.step.run (transferCpu, Ram.zeros.write 0 0x9A)).state
     after.1.registers.sp = 0x80 ∧ after.1.registers.p.zero = true ∧
       after.1.registers.p.negative = false ∧
       ∀ address, after.2.read address = (Ram.zeros.write 0 0x9A).read address) := by
  have hi : Instruction.decode ((Ram.zeros.write 0 0x9A).read 0)
      = some ⟨0x9A, .register .txs, .implied, 2, false⟩ := by decide +kernel
  obtain ⟨-, hkept, hsp, hcells, -⟩ := frame_of_step transferCpu _ _ rfl hi
  exact ⟨rfl, hi, hsp, hkept .zero rfl, hkept .negative rfl, fun _ => hcells _ List.not_mem_nil⟩

end Cpu

end NesMachine
