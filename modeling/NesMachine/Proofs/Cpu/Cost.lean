import NesMachine.Proofs.Cpu.Flow

/-!
# `NesMachine/Proofs/Cpu/Cost.lean` — what an instruction costs

Every instruction costs what its row in the table says, and some cost more. The processor finds out in
three places that do not know of each other: the row has a mark, the operand remembers whether an index
has led out of the page, and a branch looks at the page of its target when the program counter is at
its end already.

Here the surcharge is one function of the registers and the memory before the instruction, in numbers
(`Instruction.surcharge`). A page is a number divided by 256, and so an index leaves the page of its
base exactly if it carries out of the low byte, also where it goes round the end of memory.
-/

set_option autoImplicit false

namespace NesMachine

/-! ## The surcharge -/

/-- The operations that read their value before they know its page. -/
def Operation.readers : List Operation :=
  [.read .lda, .read .ldx, .read .ldy, .read .adc, .read .sbc, .read .and, .read .ora, .read .eor,
    .read .cmp]

namespace AddressingMode

/-- The base address and the index, in the modes that index an address of two bytes. -/
def indexing (ram : Ram) (r : Registers) : AddressingMode → Option (Nat × Nat)
  | absoluteX => some (operandWord ram r, r.x.toNat)
  | absoluteY => some (operandWord ram r, r.y.toNat)
  | indirectY => some (pointed ram r indirectY, r.y.toNat)
  | _ => none

/-- The modes that index an address of two bytes. -/
def isIndexing (mode : AddressingMode) : Bool := mode ∈ [absoluteX, absoluteY, indirectY]

end AddressingMode

/-- The cycles that an instruction takes on top of its row. A read takes one more if the index carries
out of the low byte of the base, and a branch that is taken one or two, as its target is in the page of
the instruction behind it or in another one. -/
def Instruction.surcharge (i : Instruction) (ram : Ram) (r : Registers) : Nat :=
  match i.operation with
  | .branch op =>
    if op.taken r.p then
      if (r.pc.toNat + 2) % 65536 / 256 = AddressingMode.branchTarget ram r / 256 then 1 else 2
    else 0
  | op =>
    match i.mode.indexing ram r with
    | some (base, index) => if op ∈ Operation.readers ∧ 255 < base % 256 + index then 1 else 0
    | none => 0

/-! ## Pages -/

theorem highByte_beq (v w : UInt16) :
    (highByte v == highByte w) = decide (v.toNat / 256 = w.toNat / 256) := by
  rw [Bool.eq_iff_iff, beq_iff_eq, decide_eq_true_iff, ← toNat_highByte, ← toNat_highByte]
  exact UInt8.toNat_inj.symm

/-- **An index leaves the page of its base exactly if it carries out of the low byte.** -/
theorem Operand.crossed_indexed (base : UInt16) (index : UInt8) :
    (indexed base index).crossed = decide (255 < base.toNat % 256 + index.toNat) := by
  have hbase := base.toNat_lt
  have hindex := index.toNat_lt
  have haddress := toNat_add_byte base index
  show (!(highByte base == highByte (base + index.toUInt16))) = _
  rw [highByte_beq, ← haddress, ← decide_not, decide_eq_decide]
  omega

namespace AddressingMode

variable (ram : Ram) (r : Registers) (mode : AddressingMode)

theorem isSome_indexing : (mode.indexing ram r).isSome = mode.isIndexing := by
  cases mode <;> rfl

/-- The operand remembers what the numbers tell. -/
theorem crossed_operand : (mode.operand ram r).crossed
    = match mode.indexing ram r with
      | some (base, index) => decide (255 < base % 256 + index)
      | none => false := by
  cases mode with
  | absoluteX | absoluteY =>
    rw [indexing, operandWord_eq]
    exact Operand.crossed_indexed _ _
  | indirectY =>
    rw [indexing, pointed_eq ram r rfl]
    exact Operand.crossed_indexed _ _
  | _ => rfl

end AddressingMode

/-! ## The cost -/

namespace Instruction

variable {i : Instruction}

/-- The rows that have the mark are those of reads with an index. -/
theorem pageCycle_documented : ∀ i ∈ documented,
    i.pageCycle = (decide (i.operation ∈ Operation.readers) && i.mode.isIndexing) := by
  decide +kernel

/-- The cycle for the page, of an instruction that the table knows. -/
theorem pageCycle_and_crossed (hi : i ∈ documented) (ram : Ram) (r : Registers) :
    (i.pageCycle && (i.mode.operand ram r).crossed).toNat
      = match i.mode.indexing ram r with
        | some (base, index) =>
          if i.operation ∈ Operation.readers ∧ 255 < base % 256 + index then 1 else 0
        | none => 0 := by
  have hindexing := AddressingMode.isSome_indexing ram r i.mode
  rw [pageCycle_documented i hi, AddressingMode.crossed_operand, ← hindexing]
  cases i.mode.indexing ram r with
  | none => rw [Bool.and_false, Bool.toNat_false]
  | some place =>
    dsimp only [Option.isSome_some]
    rw [Bool.and_true, ← Bool.decide_and]
    exact Bool.cond_decide _ _ _

/-- The cycles for going elsewhere, which are those of a branch. -/
theorem extra_branch (op : BranchOp) (ram : Ram) (r : Registers) :
    (Operation.branch op).extra (Routine.fetched r .relative)
        (AddressingMode.relative.operand ram r)
      = if op.taken r.p then
          if (r.pc.toNat + 2) % 65536 / 256 = AddressingMode.branchTarget ram r / 256 then 1 else 2
        else 0 := by
  have hlt : AddressingMode.branchTarget ram r < 65536 := Nat.mod_lt _ (by decide)
  have hbehind : (r.pc + 2).toNat = (r.pc.toNat + 2) % 65536 := UInt16.toNat_add r.pc 2
  rw [AddressingMode.operand_relative, fetched_relative, Operation.extra, highByte_beq, hbehind,
    UInt16.toNat_ofNat', Nat.mod_eq_of_lt hlt]
  simp only [decide_eq_true_eq]

/-- **The cost is the row's and the surcharge.** -/
theorem cost_eq (hi : i ∈ documented) (ram : Ram) (r : Registers) :
    i.cost ram r = i.cycles + i.surcharge ram r := by
  have hpage := pageCycle_and_crossed hi ram r
  rw [cost, surcharge, hpage, Nat.add_assoc]
  refine congrArg (i.cycles + ·) ?_
  cases hop : i.operation with
  | branch op =>
    rw [mode_of_branch hi hop, extra_branch]
    exact Nat.zero_add _
  | read op | store op | modify op | register op | jump op | stack op => rfl

end Instruction

namespace Cpu

/-- **A step takes the cycles of its row and the surcharge, and no others.**

Only reads and branches have one: a store, or an operation that puts its result back, costs the same
whether its index leads out of the page or not. Addresses are taken modulo 65536, so the page of a
target or of a base may also be left over the end of memory, in both directions. -/
theorem cycles_of_step (cpu : Cpu) (ram : Ram) (i : Instruction) (hon : cpu.isOn = true)
    (hi : Instruction.decode (ram.read cpu.registers.pc) = some i) :
    (Routine.step.run (cpu, ram)).result = .ok (i.cycles + i.surcharge ram cpu.registers) := by
  obtain ⟨r, c, on⟩ := cpu
  obtain rfl : on = true := hon
  have hlisted := (Instruction.decode_eq_some_iff.mp hi).1
  rw [Routine.run_step c hi, Instruction.cost_eq hlisted]

/-- A processor with the index 1, and the flags of a result that was zero. -/
def indexingCpu : Cpu := ⟨{ Registers.powerOn with x := 1, pc := 0x0010 }, 0, true⟩

def operandRam (opcode low high : UInt8) : Ram :=
  Ram.zeros.writeBlock 0x0010 [opcode, low, high]

/-- Over the end of memory: `LDA $FFFF,X` takes one cycle more than its row says, `STA $FFFF,X` takes
none, and `BEQ` takes two when it goes back by 128. -/
theorem cycles_over_the_end :
    let load := operandRam 0xBD 0xFF 0xFF
    let store := operandRam 0x9D 0xFF 0xFF
    let branch := operandRam 0xF0 0x80 0x00
    indexingCpu.isOn = true ∧
    Instruction.decode (load.read 0x0010) = some ⟨0xBD, .read .lda, .absoluteX, 4, true⟩ ∧
    (Routine.step.run (indexingCpu, load)).result = .ok 5 ∧
    Instruction.decode (store.read 0x0010) = some ⟨0x9D, .store .sta, .absoluteX, 5, false⟩ ∧
    (Routine.step.run (indexingCpu, store)).result = .ok 5 ∧
    Instruction.decode (branch.read 0x0010) = some ⟨0xF0, .branch .beq, .relative, 2, false⟩ ∧
    (Routine.step.run (indexingCpu, branch)).result = .ok 4 := by
  intro load store branch
  have hload : Instruction.decode (load.read 0x0010)
      = some ⟨0xBD, .read .lda, .absoluteX, 4, true⟩ := by decide +kernel
  have hstore : Instruction.decode (store.read 0x0010)
      = some ⟨0x9D, .store .sta, .absoluteX, 5, false⟩ := by decide +kernel
  have hbranch : Instruction.decode (branch.read 0x0010)
      = some ⟨0xF0, .branch .beq, .relative, 2, false⟩ := by decide +kernel
  refine ⟨rfl, hload, ?_, hstore, ?_, hbranch, ?_⟩
  · refine (cycles_of_step indexingCpu load _ rfl hload).trans (congrArg Except.ok ?_)
    decide +kernel
  · exact cycles_of_step indexingCpu store _ rfl hstore
  · refine (cycles_of_step indexingCpu branch _ rfl hbranch).trans (congrArg Except.ok ?_)
    decide +kernel

end Cpu

end NesMachine
