import NesMachine.Proofs.Cpu.Frame
import NesMachine.Proofs.Cpu.Series

/-!
# `NesMachine/Proofs/Cpu/Comparison.lean` — a comparison and a branch

A program decides with two instructions. The first one compares a register with a value and leaves
three flags, the second one looks at a flag and jumps or does not. Neither knows of the other, and what
a flag means is in the head of whoever writes the program: carry, that the register is not below;
zero, that the two are the same; negative, that the difference, as a byte, has its upper bit set.

`BranchOp.Relates` has this meaning for every branch, and `taken_compare` says that it is right. What
remains is that nothing comes between the two instructions, and that they change nothing else.
-/

set_option autoImplicit false

namespace NesMachine

/-! ## What is compared -/

/-- The register that a comparison looks at; the other operations compare nothing. -/
def ReadOp.compared (r : Registers) : ReadOp → Option UInt8
  | cmp => some r.a
  | cpx => some r.x
  | cpy => some r.y
  | _ => none

namespace ReadOp

variable {op : ReadOp} {r : Registers} {register : UInt8}

theorem apply_of_compared (h : op.compared r = some register) (value : UInt8) :
    op.apply value r = r.compare register value := by
  cases op with
  | cmp | cpx | cpy =>
    obtain rfl := Option.some.inj h
    rfl
  | _ => cases h

/-- Comparisons change three flags. -/
theorem changedBy_of_compared (h : op.compared r = some register) (mode : AddressingMode)
    {part : Part} (hpart : part ∉ [.carry, .zero, .negative]) :
    part.changedBy (.read op) mode = false := by
  cases op with
  | cmp | cpx | cpy => cases part <;> first | rfl | exact absurd hpart (by decide)
  | _ => cases h

end ReadOp

/-! ## What the flags mean -/

/-- When a branch is taken that comes after the comparison of a register with a value. Overflow tells
nothing of them, it is as it was before. -/
def BranchOp.Relates (p : Status) (register value : UInt8) : BranchOp → Prop
  | bcc => register.toNat < value.toNat
  | bcs => value.toNat ≤ register.toNat
  | beq => register = value
  | bne => register ≠ value
  | bmi => ((register.toNat + 256 - value.toNat) % 256).testBit 7 = true
  | bpl => ((register.toNat + 256 - value.toNat) % 256).testBit 7 = false
  | bvs => p.overflow = true
  | bvc => p.overflow = false

namespace Registers

variable (r : Registers) (register value : UInt8)

theorem carry_compare :
    (r.compare register value).p.carry = true ↔ value.toNat ≤ register.toNat :=
  decide_eq_true_iff

theorem zero_compare : (r.compare register value).p.zero = true ↔ register = value := by
  refine beq_iff_eq.trans ?_
  grind

theorem negative_compare :
    (r.compare register value).p.negative
      = ((register.toNat + 256 - value.toNat) % 256).testBit 7 := by
  have hdifference : (register - value).toNat = (register.toNat + 256 - value.toNat) % 256 := by
    have hvalue := value.toNat_lt
    rw [UInt8.toNat_sub]
    omega
  rw [← hdifference]
  exact (upperBits_eq (register - value)).1

/-- **The flags after a comparison tell how the two bytes relate.** -/
theorem taken_compare (condition : BranchOp) :
    condition.taken (r.compare register value).p = true
      ↔ condition.Relates r.p register value := by
  have hcarry := r.carry_compare register value
  have hzero := r.zero_compare register value
  have hnegative := r.negative_compare register value
  cases condition with
  | bcc =>
    rw [BranchOp.taken, Bool.not_eq_true', ← Bool.not_eq_true, hcarry]
    exact Nat.not_le
  | bcs => exact hcarry
  | beq => exact hzero
  | bne =>
    rw [BranchOp.taken, Bool.not_eq_true', ← Bool.not_eq_true, hzero]
    exact Iff.rfl
  | bmi =>
    rw [BranchOp.taken, hnegative]
    exact Iff.rfl
  | bpl =>
    rw [BranchOp.taken, hnegative, Bool.not_eq_true']
    exact Iff.rfl
  | bvs => exact Iff.rfl
  | bvc =>
    rw [BranchOp.taken, Bool.not_eq_true']
    exact Iff.rfl

end Registers

/-! ## Where the branch goes -/

/-- The target of a branch is as far from its end as the operand says, which is a signed byte. -/
theorem AddressingMode.branchTarget_eq (ram : Ram) (r : Registers) :
    (branchTarget ram r : Int)
      = ((r.pc + 2).toNat + (ram.read (r.pc + 1)).toInt8.toInt) % 65536 := by
  have hbehind : (r.pc + 2).toNat = (r.pc.toNat + 2) % 65536 := UInt16.toNat_add r.pc 2
  have hoffset : operandByte ram r 1 = (ram.read (r.pc + 1)).toNat := operandByte_one ram r
  rw [branchTarget, hoffset, toInt_toInt8, hbehind]
  split <;> omega

namespace Cpu

/-- **A comparison and a branch behind it decide by what was compared.**

`register` is the register that is compared, `v` the byte that the operand means, and the branch may
be any. Both steps succeed. The branch is taken if and only if the two bytes relate as it says, and
then it goes as far from its end as its operand says, which is a signed byte; otherwise it goes on at
its end. Of the rest only carry, zero and negative may be changed. -/
theorem branch_of_comparison (cpu : Cpu) (ram : Ram) (i j : Instruction) (op : ReadOp)
    (condition : BranchOp) (register : UInt8) (hon : cpu.isOn = true)
    (hi : Instruction.decode (ram.read cpu.registers.pc) = some i)
    (hop : i.operation = .read op) (hregister : op.compared cpu.registers = some register)
    (hj : Instruction.decode (ram.read (cpu.registers.pc + .ofNat i.length)) = some j)
    (hcondition : j.operation = .branch condition) :
    let before := cpu.registers
    let v := i.mode.valueByte ram before
    let branch := before.pc + .ofNat i.length
    let offset := (ram.read (branch + 1)).toInt8.toInt
    ∃ later, Steps 2 (cpu, ram) later ∧
      let after := later.1.registers
      (condition.taken after.p = true ↔ condition.Relates before.p register v) ∧
      (condition.Relates before.p register v →
        (after.pc.toNat : Int) = ((branch + 2).toNat + offset) % 65536) ∧
      (¬ condition.Relates before.p register v → after.pc = branch + 2) ∧
      (∀ part ∉ [Part.carry, .zero, .negative], part.Kept before after) ∧
      after.sp = before.sp ∧ later.2 = ram := by
  intro before v branch offset
  obtain ⟨r, c, on⟩ := cpu
  obtain rfl : on = true := hon
  have hilisted := (Instruction.decode_eq_some_iff.mp hi).1
  have hjlisted := (Instruction.decode_eq_some_iff.mp hj).1
  -- The comparison leaves its flags and stands at the branch.
  let compared := (Routine.fetched r i.mode).compare register v
  have hpc : compared.pc = branch := pc_fetched r i
  have hcompared : i.effect ram r = (compared, ram) := by
    have hregister' : op.compared (Routine.fetched r i.mode) = some register := by
      cases op <;> exact hregister
    rw [Instruction.effect_read hilisted hop, ReadOp.apply_of_compared hregister']
  have hkept : ∀ part ∉ [Part.carry, .zero, .negative], part.Kept r compared := by
    intro part hpart
    have hunchanged := ReadOp.changedBy_of_compared hregister i.mode hpart
    rw [← hop] at hunchanged
    have hpartKept := Instruction.kept_effect hilisted hunchanged ram r
    rwa [hcompared] at hpartKept
  have hfirst := Routine.run_step c hi
  rw [hcompared] at hfirst
  -- The branch looks at them and changes nothing but the program counter.
  have hj' : Instruction.decode (ram.read compared.pc) = some j := by
    rw [hpc]
    exact hj
  have hsecond := Routine.run_step (c + .ofNat (i.cost ram r)) hj'
  rw [Instruction.effect_branch hjlisted hcondition] at hsecond
  have htaken : condition.taken compared.p = true ↔ condition.Relates r.p register v :=
    Registers.taken_compare (Routine.fetched r i.mode) register v condition
  refine ⟨_, ((Steps.refl _).cons hsecond).cons hfirst, htaken, fun hrelates => ?_,
    fun hnot => ?_, fun part hpart => ?_, rfl, rfl⟩
  · have hnumber := AddressingMode.branchTarget_eq ram compared
    have hlt : AddressingMode.branchTarget ram compared < 65536 := Nat.mod_lt _ (by decide)
    rw [hpc] at hnumber
    rw [if_pos (htaken.mpr hrelates), UInt16.toNat_ofNat', Nat.mod_eq_of_lt hlt]
    exact hnumber
  · rw [if_neg (mt htaken.mp hnot), hpc]
  · have hpartKept := hkept part hpart
    cases part <;> exact hpartKept

def comparingCpu : Cpu := ⟨{ Registers.powerOn with a := 0x10, pc := 0x0010 }, 0, true⟩

/-- `CMP #$80`, and then `BCC` with a distance of -128. -/
def comparingRam : Ram := Ram.zeros.writeBlock 0x0010 [0xC9, 0x80, 0x90, 0x80]

/-- 16 is below 128, although as signed bytes it would be the other way round, and the branch goes back
over the end of memory. -/
theorem branch_of_comparison_goes_round :
    comparingCpu.isOn = true ∧
    Instruction.decode (comparingRam.read 0x0010) = some ⟨0xC9, .read .cmp, .immediate, 2, false⟩ ∧
    Instruction.decode (comparingRam.read 0x0012)
      = some ⟨0x90, .branch .bcc, .relative, 2, false⟩ ∧
    ∃ later, Steps 2 (comparingCpu, comparingRam) later ∧
      later.1.registers.pc.toNat = 0xFF94 ∧ later.1.registers.a = 0x10 := by
  have hi : Instruction.decode (comparingRam.read 0x0010)
      = some ⟨0xC9, .read .cmp, .immediate, 2, false⟩ := by decide +kernel
  have hj : Instruction.decode (comparingRam.read 0x0012)
      = some ⟨0x90, .branch .bcc, .relative, 2, false⟩ := by decide +kernel
  refine ⟨rfl, hi, hj, ?_⟩
  obtain ⟨later, hsteps, -, hgoes, -, hkept, -⟩ := branch_of_comparison comparingCpu comparingRam
    _ _ .cmp .bcc 0x10 rfl hi rfl rfl hj rfl
  have hvalue : AddressingMode.immediate.valueByte comparingRam comparingCpu.registers = 0x80 := by
    decide +kernel
  have hbelow : BranchOp.bcc.Relates comparingCpu.registers.p 0x10
      (AddressingMode.immediate.valueByte comparingRam comparingCpu.registers) := by
    rw [hvalue]
    show 0x10 < 0x80
    decide
  have hoffset : (comparingRam.read 0x0013).toInt8.toInt = -128 := by decide +kernel
  have hpc : (later.1.registers.pc.toNat : Int)
      = (0x0014 + (comparingRam.read 0x0013).toInt8.toInt) % 65536 := hgoes hbelow
  rw [hoffset] at hpc
  exact ⟨later, hsteps, Int.ofNat.inj hpc, hkept .a (by decide)⟩

end Cpu

end NesMachine
