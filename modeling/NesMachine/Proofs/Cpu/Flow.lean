import NesMachine.Proofs.Cpu.Execution

/-!
# `NesMachine/Proofs/Cpu/Flow.lean` — where an instruction goes on

Most instructions go on behind themselves, and so they move the program counter by one to three.
What can leave it where it was is a jump of some kind: one whose target is its own address.

There are two ways to be such a jump. A `JMP` or a branch that is taken has nothing but its target,
so if the target is its own address it changes nothing at all (`effect_of_loops`). A call, a return
or a break moves the stack pointer whatever its target is (`sp_effect_of_jump`), and so it is not
the same processor that comes back to it. `loops_or_stacks` says that these are all.
-/

set_option autoImplicit false

namespace NesMachine

/-! ## The target of a branch -/

theorem toNat_signedOffset (byte : UInt8) :
    (signedOffset byte).toNat = if byte.toNat < 128 then byte.toNat else byte.toNat + 65280 := by
  by_cases h : byte.toNat < 128
  · have hsmall : byte < 0x80 := h
    rw [signedOffset, if_pos hsmall, if_pos h, UInt8.toNat_toUInt16]
  · have hlarge : ¬ byte < 0x80 := h
    have hword : (0xFF00 : UInt16) ||| byte.toUInt16 = word byte 0xFF := rfl
    rw [signedOffset, if_neg hlarge, if_neg h, hword, toNat_word]
    rfl

namespace AddressingMode

variable (ram : Ram) (r : Registers)

/-- Where a branch goes that is taken: as far from the end of its two bytes as its operand says,
backwards if the operand is 128 or more. -/
def branchTarget : Nat :=
  let offset := operandByte ram r 1
  (r.pc.toNat + 2 + (if offset < 128 then offset else offset + 65280)) % 65536

theorem operand_relative : relative.operand ram r = .target (.ofNat (branchTarget ram r)) := by
  rw [branchTarget, operandByte_one, ← toNat_signedOffset, operand]
  refine congrArg Operand.target (UInt16.toNat_inj.mp ?_)
  rw [UInt16.toNat_add, ← toNat_succ_succ_mod, UInt16.toNat_ofNat']
  omega

end AddressingMode

theorem Instruction.mode_of_branch {i : Instruction} (hi : i ∈ documented) {op : BranchOp}
    (hop : i.operation = .branch op) : i.mode = .relative := by
  have hfit := fits_documented i hi
  rw [hop] at hfit
  simpa [Operation.fits] using hfit

theorem fetched_relative (r : Registers) :
    Routine.fetched r .relative = { r with pc := r.pc + 2 } :=
  congrArg (fun pc => { r with pc := pc }) (UInt16.add_assoc r.pc 1 1)

/-- A branch goes to its target or on behind itself, and that is all it does. -/
theorem Instruction.effect_branch {i : Instruction} (hi : i ∈ documented) {op : BranchOp}
    (hop : i.operation = .branch op) (ram : Ram) (r : Registers) :
    i.effect ram r
      = ({ r with
          pc := if op.taken r.p then .ofNat (AddressingMode.branchTarget ram r)
            else r.pc + 2 }, ram) := by
  rw [effect, hop, mode_of_branch hi hop, AddressingMode.operand_relative, fetched_relative,
    Operation.effect]
  dsimp only
  split <;> rfl

/-! ## Instructions that go on behind themselves -/

/-- The operations that leave the program counter behind the instruction. -/
def Operation.goesOn : Operation → Bool
  | branch _ => false
  | jump _ => false
  | _ => true

theorem Operation.pc_effect_of_goesOn {op : Operation} (h : op.goesOn = true) (ram : Ram)
    (r : Registers) (operand : Operand) : (op.effect ram r operand).1.pc = r.pc := by
  cases op with
  | read op => cases op <;> rfl
  | store op => cases operand <;> rfl
  | modify op => cases operand <;> rfl
  | register op => cases op <;> rfl
  | stack op => cases op <;> rfl
  | branch op => cases h
  | jump op => cases h

theorem pc_fetched (r : Registers) (i : Instruction) :
    (Routine.fetched r i.mode).pc = r.pc + .ofNat i.length := by
  rw [Routine.fetched, Instruction.length, UInt16.ofNat_add, ← UInt16.add_assoc]
  rfl

/-- There is no instruction without an opcode, and none is as long as memory. -/
theorem pc_fetched_ne (r : Registers) (mode : AddressingMode) :
    (Routine.fetched r mode).pc ≠ r.pc := by
  intro h
  have hlength := mode.operandLength_le_two
  have hlt := r.pc.toNat_lt
  have hnumber := congrArg UInt16.toNat h
  rw [Routine.fetched, UInt16.toNat_add, ← toNat_succ_mod, UInt16.toNat_ofNat'] at hnumber
  omega

/-! ## Jumps -/

/-- How far a jump moves the stack pointer. -/
def JumpOp.stackMove : JumpOp → UInt8
  | jmp => 0
  | jsr => -2
  | rts => 2
  | rti => 3
  | brk => -3

theorem JumpOp.stackMove_ne_zero {op : JumpOp} (h : op ≠ jmp) : op.stackMove ≠ 0 := by
  cases op with
  | jmp => exact absurd rfl h
  | _ => decide

theorem operand_of_jmp {mode : AddressingMode} (hfit : (Operation.jump .jmp).fits mode = true)
    (ram : Ram) (r : Registers) :
    ∃ target : UInt16, mode.effectiveAddress ram r = some target.toNat ∧
      mode.operand ram r = .direct target := by
  have hmode : mode = .absolute ∨ mode = .indirect := by simpa [Operation.fits] using hfit
  rcases hmode with rfl | rfl
  · exact ⟨AddressingMode.wordAfter ram r,
      congrArg some (AddressingMode.operandWord_eq ram r), rfl⟩
  · exact ⟨AddressingMode.target ram r .indirect,
      congrArg some (AddressingMode.pointed_eq ram r rfl), rfl⟩

theorem sp_effect_jump {op : JumpOp} {mode : AddressingMode}
    (hfit : (Operation.jump op).fits mode = true) (ram : Ram) (r : Registers) :
    ((Operation.jump op).effect ram (Routine.fetched r mode) (mode.operand ram r)).1.sp
      = r.sp + op.stackMove := by
  cases op with
  | jmp =>
    obtain ⟨target, -, hoperand⟩ := operand_of_jmp hfit ram r
    rw [hoperand]
    exact (UInt8.add_zero r.sp).symm
  | jsr =>
    obtain rfl : mode = .absolute := by simpa [Operation.fits] using hfit
    show r.sp - 1 - 1 = r.sp + -2
    grind
  | rts =>
    show r.sp + 1 + 1 = r.sp + 2
    grind
  | rti =>
    show r.sp + 1 + 1 + 1 = r.sp + 3
    grind
  | brk =>
    show r.sp - 1 - 1 - 1 = r.sp + -3
    grind

namespace Instruction

variable {i : Instruction} {ram : Ram} {r : Registers}

/-- The instruction is a `JMP`, or a branch that is taken, and its target is its own address. -/
def Loops (i : Instruction) (ram : Ram) (r : Registers) : Prop :=
  match i.operation with
  | .jump .jmp => i.mode.effectiveAddress ram r = some r.pc.toNat
  | .branch op => op.taken r.p = true ∧ AddressingMode.branchTarget ram r = r.pc.toNat
  | _ => False

theorem sp_effect_of_jump (hi : i ∈ documented) {op : JumpOp} (hop : i.operation = .jump op) :
    (i.effect ram r).1.sp = r.sp + op.stackMove := by
  have hfit := fits_documented i hi
  rw [hop] at hfit
  rw [effect, hop]
  exact sp_effect_jump hfit ram r

/-- **A jump to its own address changes nothing.** -/
theorem effect_of_loops (hi : i ∈ documented) (h : i.Loops ram r) : i.effect ram r = (r, ram) := by
  have hfit := fits_documented i hi
  rw [Loops] at h
  cases hop : i.operation with
  | jump op =>
    rw [hop] at h hfit
    cases op with
    | jmp =>
      obtain ⟨target, haddress, hoperand⟩ := operand_of_jmp hfit ram r
      have htarget : target = r.pc := UInt16.toNat_inj.mp (Option.some.inj (haddress.symm.trans h))
      rw [effect, hop, hoperand, htarget]
      rfl
    | _ => exact h.elim
  | branch op =>
    rw [hop] at h
    obtain ⟨htaken, htarget⟩ := h
    rw [effect_branch hi hop, if_pos htaken, htarget, UInt16.ofNat_toNat]
  | _ =>
    rw [hop] at h
    exact h.elim

/-- **What comes back to itself loops or moves the stack pointer.** -/
theorem loops_or_stacks (hi : i ∈ documented) (h : (i.effect ram r).1.pc = r.pc) :
    i.Loops ram r ∨ ∃ op, op ≠ JumpOp.jmp ∧ i.operation = .jump op := by
  have hfit := fits_documented i hi
  rw [Loops]
  cases hop : i.operation with
  | jump op =>
    rw [hop] at hfit
    cases op with
    | jmp =>
      obtain ⟨target, haddress, hoperand⟩ := operand_of_jmp hfit ram r
      rw [effect, hop, hoperand] at h
      have htarget : target = r.pc := h
      exact Or.inl (haddress.trans (congrArg (fun w => some w.toNat) htarget))
    | _ => exact Or.inr ⟨_, by decide, rfl⟩
  | branch op =>
    rw [effect_branch hi hop] at h
    by_cases htaken : op.taken r.p = true
    · have htarget : UInt16.ofNat (AddressingMode.branchTarget ram r) = r.pc :=
        (if_pos htaken).symm.trans h
      refine Or.inl ⟨htaken, ?_⟩
      rw [← htarget, UInt16.toNat_ofNat']
      exact (Nat.mod_eq_of_lt (Nat.mod_lt _ (by decide))).symm
    · have hbehind : (Routine.fetched r .relative).pc = r.pc := by
        rw [fetched_relative]
        exact (if_neg htaken).symm.trans h
      exact absurd hbehind (pc_fetched_ne r .relative)
  | _ =>
    rw [effect, hop] at h
    exact absurd (h.symm.trans (Operation.pc_effect_of_goesOn rfl ..)).symm (pc_fetched_ne r i.mode)

end Instruction

end NesMachine
