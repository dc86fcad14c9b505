import NesMachine.Proofs.Cpu.Execution

/-!
# `NesMachine/Proofs/Cpu/Arithmetic.lean` — the adder, in numbers

The processor adds bytes, and whether the sum fits a signed byte it reads off the signs of the three
bytes. Subtraction is addition of the complement. Here both are said of numbers: a byte is a number
below 256, or, as a signed byte, one from -128 to 127, and carry is one or zero.

The one fact about bits that this takes is `overflowBit_iff`, what the formula for overflow computes.
The rest is arithmetic.
-/

set_option autoImplicit false

namespace NesMachine

/-! ## Bytes as numbers -/

theorem topBit_eq_msb (byte : UInt8) : (byte &&& 0x80 != 0) = byte.toBitVec.msb := by
  have hall : ∀ n < 256, (UInt8.ofNat n &&& 0x80 != 0) = (UInt8.ofNat n).toBitVec.msb := by
    decide +kernel
  simpa only [UInt8.ofNat_toNat] using hall byte.toNat byte.toNat_lt

theorem topBit_iff (byte : UInt8) : (byte &&& 0x80 != 0) = true ↔ 128 ≤ byte.toNat := by
  rw [topBit_eq_msb, BitVec.msb_eq_decide]
  exact decide_eq_true_iff

/-- A signed byte is negative from 128 on. -/
theorem toInt_toInt8 (byte : UInt8) :
    byte.toInt8.toInt = if byte.toNat < 128 then (byte.toNat : Int) else byte.toNat - 256 := by
  show byte.toBitVec.toInt = _
  rw [BitVec.toInt_eq_toNat_cond, UInt8.toNat_toBitVec]
  split <;> split <;> omega

theorem toInt_complement (byte : UInt8) :
    (~~~byte).toInt8.toInt = -byte.toInt8.toInt - 1 := by
  rw [toInt_toInt8, toInt_toInt8, UInt8.toNat_not, UInt8.size]
  have hlt := byte.toNat_lt
  split <;> split <;> omega

/-- The formula for overflow: the addends are of one sign, and the result of the other. -/
theorem overflowBit_iff (a value result : UInt8) :
    (~~~(a ^^^ value) &&& (a ^^^ result) &&& 0x80 != 0) = true
      ↔ (128 ≤ a.toNat ↔ 128 ≤ value.toNat) ∧ ¬ (128 ≤ a.toNat ↔ 128 ≤ result.toNat) := by
  rw [← topBit_iff a, ← topBit_iff value, ← topBit_iff result, topBit_eq_msb, topBit_eq_msb,
    topBit_eq_msb, topBit_eq_msb, UInt8.toBitVec_and, UInt8.toBitVec_not, UInt8.toBitVec_xor,
    UInt8.toBitVec_xor, BitVec.msb_and, BitVec.msb_not, BitVec.msb_xor, BitVec.msb_xor]
  cases a.toBitVec.msb <;> cases value.toBitVec.msb <;> cases result.toBitVec.msb <;> decide

/-! ## The flags of a result -/

namespace Status

/-- Zero and negative are those of a byte: it is zero, it is negative as a signed byte. -/
def Describes (p : Status) (result : UInt8) : Prop :=
  (p.zero = true ↔ result = 0) ∧ (p.negative = true ↔ 128 ≤ result.toNat)

theorem describes_withResult (p : Status) (result : UInt8) :
    (p.withResult result).Describes result :=
  ⟨beq_iff_eq, topBit_iff result⟩

end Status

/-! ## Addition and subtraction -/

namespace Registers

variable (r : Registers) (value : UInt8)

theorem describes_addWithCarry :
    (r.addWithCarry value).p.Describes (r.addWithCarry value).a :=
  Status.describes_withResult _ _

theorem toNat_a_addWithCarry :
    (r.addWithCarry value).a.toNat = (r.a.toNat + value.toNat + r.p.carry.toNat) % 256 :=
  UInt8.toNat_ofNat'

theorem carry_addWithCarry :
    (r.addWithCarry value).p.carry = true
      ↔ 255 < r.a.toNat + value.toNat + r.p.carry.toNat :=
  decide_eq_true_iff

/-- **The sum**, with the carry as its ninth bit. -/
theorem sum_addWithCarry :
    (r.addWithCarry value).a.toNat + 256 * (r.addWithCarry value).p.carry.toNat
      = r.a.toNat + value.toNat + r.p.carry.toNat := by
  have ha := r.a.toNat_lt
  have hvalue := value.toNat_lt
  have hcarry := r.p.carry.toNat_le
  have hresult := r.toNat_a_addWithCarry value
  have hout := r.carry_addWithCarry value
  cases h : (r.addWithCarry value).p.carry with
  | true =>
    have hlarge := hout.mp h
    rw [hresult, Bool.toNat_true]
    omega
  | false =>
    have hsmall : ¬ 255 < r.a.toNat + value.toNat + r.p.carry.toNat := fun hlarge => by
      rw [hout.mpr hlarge] at h
      cases h
    rw [hresult, Bool.toNat_false]
    omega

/-- **Overflow** tells that the sum of signed bytes is not a signed byte. -/
theorem overflow_addWithCarry :
    (r.addWithCarry value).p.overflow = true
      ↔ ¬ (-128 ≤ r.a.toInt8.toInt + value.toInt8.toInt + r.p.carry.toNat ∧
          r.a.toInt8.toInt + value.toInt8.toInt + r.p.carry.toNat ≤ 127) := by
  have ha := r.a.toNat_lt
  have hvalue := value.toNat_lt
  have hcarry := r.p.carry.toNat_le
  have hresult := r.toNat_a_addWithCarry value
  have hbit := overflowBit_iff r.a value (r.addWithCarry value).a
  refine hbit.trans ?_
  rw [hresult, toInt_toInt8, toInt_toInt8]
  split <;> split <;> omega

/-- **The difference**, modulo 256; what was borrowed before is taken off as well. -/
theorem difference_addWithCarry_complement :
    ((r.addWithCarry (~~~value)).a.toNat : Int)
      = ((r.a.toNat : Int) - value.toNat - (1 - r.p.carry.toNat)) % 256 := by
  have hvalue := value.toNat_lt
  rw [toNat_a_addWithCarry, UInt8.toNat_not, UInt8.size]
  omega

/-- **Carry** tells that nothing was borrowed. -/
theorem carry_addWithCarry_complement :
    (r.addWithCarry (~~~value)).p.carry = true
      ↔ value.toNat + (1 - r.p.carry.toNat) ≤ r.a.toNat := by
  have hvalue := value.toNat_lt
  have hcarry := r.p.carry.toNat_le
  rw [carry_addWithCarry, UInt8.toNat_not, UInt8.size]
  omega

theorem overflow_addWithCarry_complement :
    (r.addWithCarry (~~~value)).p.overflow = true
      ↔ ¬ (-128 ≤ r.a.toInt8.toInt - value.toInt8.toInt - (1 - r.p.carry.toNat) ∧
          r.a.toInt8.toInt - value.toInt8.toInt - (1 - r.p.carry.toNat) ≤ 127) := by
  rw [overflow_addWithCarry, toInt_complement]
  omega

end Registers

/-! ## Operands -/

namespace AddressingMode

variable (mode : AddressingMode) (ram : Ram) (r : Registers)

/-- The byte that an instruction works on which takes a value: the cell at the effective address in
the modes that have one, and otherwise the byte after the opcode. -/
def valueByte : UInt8 :=
  match mode.effectiveAddress ram r with
  | some place => ram.read (.ofNat place)
  | none => byteAfter ram r

theorem valueByte_of_address {address : UInt16} (h : (mode.operand ram r).address = some address) :
    mode.valueByte ram r = ram.read address := by
  rw [address_operand] at h
  obtain ⟨place, hplace, rfl⟩ := Option.map_eq_some_iff.mp h
  rw [valueByte, hplace]

theorem valueIn_operand {op : ReadOp} (hfit : (Operation.read op).fits mode = true)
    (moved : Registers) : (mode.operand ram r).valueIn ram moved = mode.valueByte ram r := by
  cases mode with
  | immediate => rfl
  | implied | accumulator | relative => exact (Bool.false_ne_true hfit).elim
  | _ => exact (valueByte_of_address _ ram r rfl).symm

end AddressingMode

theorem Instruction.effect_read {i : Instruction} (hi : i ∈ documented) {op : ReadOp}
    (hop : i.operation = .read op) (ram : Ram) (r : Registers) :
    i.effect ram r = (op.apply (i.mode.valueByte ram r) (Routine.fetched r i.mode), ram) := by
  have hfit := fits_documented i hi
  rw [hop] at hfit
  rw [effect, hop, Operation.effect, AddressingMode.valueIn_operand i.mode ram r hfit]

/-! ## The instructions -/

namespace Cpu

/-- **`ADC` and `SBC` compute the sum and the difference, and their flags say whether these fit.**

`a` is the accumulator before the step, `v` the byte that the operand means, and `c` the carry
before. With `ADC` the accumulator and the carry are the sum of the three as a number of nine bits,
and overflow is set if and only if the sum of signed bytes is not a signed byte. With `SBC` the
accumulator is the difference modulo 256, where a carry that was clear takes one off, carry is set if
and only if nothing was borrowed, and overflow as before. Zero and negative are those of the result.
The decimal flag is nowhere in it. -/
theorem arithmetic_of_step (cpu : Cpu) (ram : Ram) (i : Instruction) (hon : cpu.isOn = true)
    (hi : Instruction.decode (ram.read cpu.registers.pc) = some i)
    (hop : i.operation = .read .adc ∨ i.operation = .read .sbc) :
    let outcome := Routine.step.run (cpu, ram)
    let after := outcome.state.1.registers
    let a := cpu.registers.a
    let v := i.mode.valueByte ram cpu.registers
    let c := cpu.registers.p.carry.toNat
    let signedSum := a.toInt8.toInt + v.toInt8.toInt + c
    let signedDifference := a.toInt8.toInt - v.toInt8.toInt - (1 - c)
    (∃ cycles, outcome.result = .ok cycles) ∧
    (i.mode.inMemory = true ∨ i.mode = .immediate) ∧
    (i.operation = .read .adc →
      after.a.toNat + 256 * after.p.carry.toNat = a.toNat + v.toNat + c ∧
      (after.p.overflow = true ↔ ¬ (-128 ≤ signedSum ∧ signedSum ≤ 127))) ∧
    (i.operation = .read .sbc →
      (after.a.toNat : Int) = ((a.toNat : Int) - v.toNat - (1 - c)) % 256 ∧
      (after.p.carry = true ↔ v.toNat + (1 - c) ≤ a.toNat) ∧
      (after.p.overflow = true ↔ ¬ (-128 ≤ signedDifference ∧ signedDifference ≤ 127))) ∧
    after.p.Describes after.a := by
  intro outcome after a v c signedSum signedDifference
  obtain ⟨r, cycles, on⟩ := cpu
  obtain rfl : on = true := hon
  have hlisted := (Instruction.decode_eq_some_iff.mp hi).1
  have hstep : outcome = _ := Routine.run_step cycles hi
  have hresult : ∃ cycles, outcome.result = .ok cycles := ⟨_, congrArg Outcome.result hstep⟩
  have hafter : after = (i.effect ram r).1 := by
    show outcome.state.1.registers = _
    rw [hstep]
  have hmode : i.mode.inMemory = true ∨ i.mode = .immediate := by
    have hfit := fits_documented i hlisted
    rcases hop with hop | hop <;> simpa [hop, Operation.fits] using hfit
  -- The operand has moved the program counter, and the adder does not look at it.
  let moved := Routine.fetched r i.mode
  refine ⟨hresult, hmode, ?_⟩
  rcases hop with hop | hop
  · have hsum : after = moved.addWithCarry v := by
      rw [hafter, Instruction.effect_read hlisted hop]
      rfl
    rw [hsum]
    refine ⟨fun _ => ⟨moved.sum_addWithCarry v, moved.overflow_addWithCarry v⟩, ?_,
      moved.describes_addWithCarry v⟩
    intro hother
    rw [hop] at hother
    cases hother
  · have hdifference : after = moved.addWithCarry (~~~v) := by
      rw [hafter, Instruction.effect_read hlisted hop]
      rfl
    rw [hdifference]
    refine ⟨?_, fun _ => ⟨moved.difference_addWithCarry_complement v,
      moved.carry_addWithCarry_complement v, moved.overflow_addWithCarry_complement v⟩,
      moved.describes_addWithCarry (~~~v)⟩
    intro hother
    rw [hop] at hother
    cases hother

/-- Memory with an operation on a value at address zero, and its operand behind it. -/
def immediateRam (opcode value : UInt8) : Ram := (Ram.zeros.write 0 opcode).write 1 value

/-- A processor at address zero. -/
def carryCpu (a : UInt8) (carry : Bool) : Cpu :=
  ⟨{ Registers.powerOn with a := a, p := { Status.powerOn with carry := carry } }, 0, true⟩

/-- `ADC #$00` after 127 with the carry set, and `SBC #$00` after -128 with the carry clear: the carry
alone takes the result out of the signed bytes. -/
theorem arithmetic_at_the_edges :
    (carryCpu 0x7F true).isOn = true ∧
    Instruction.decode ((immediateRam 0x69 0x00).read 0)
      = some ⟨0x69, .read .adc, .immediate, 2, false⟩ ∧
    (Routine.step.run (carryCpu 0x7F true, immediateRam 0x69 0x00)).state.1.registers.p.overflow
      = true ∧
    (carryCpu 0x80 false).isOn = true ∧
    Instruction.decode ((immediateRam 0xE9 0x00).read 0)
      = some ⟨0xE9, .read .sbc, .immediate, 2, false⟩ ∧
    (Routine.step.run (carryCpu 0x80 false, immediateRam 0xE9 0x00)).state.1.registers.p.overflow
      = true := by
  have hadd : Instruction.decode ((immediateRam 0x69 0x00).read 0)
      = some ⟨0x69, .read .adc, .immediate, 2, false⟩ := by decide +kernel
  have hsubtract : Instruction.decode ((immediateRam 0xE9 0x00).read 0)
      = some ⟨0xE9, .read .sbc, .immediate, 2, false⟩ := by decide +kernel
  obtain ⟨-, -, hsum, -⟩ := arithmetic_of_step (carryCpu 0x7F true) _ _ rfl hadd (.inl rfl)
  obtain ⟨-, -, -, hdifference, -⟩ :=
    arithmetic_of_step (carryCpu 0x80 false) _ _ rfl hsubtract (.inr rfl)
  refine ⟨rfl, hadd, (hsum rfl).2.mpr ?_, rfl, hsubtract, (hdifference rfl).2.2.mpr ?_⟩
  · decide +kernel
  · decide +kernel

end Cpu

end NesMachine
