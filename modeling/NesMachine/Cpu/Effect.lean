import NesMachine.Cpu
import NesMachine.Isa.Operation

/-!
# `NesMachine/Cpu/Effect.lean` — what the operations compute

The part of the operations that has nothing to do with memory: functions on registers, flags and
one value. Subtraction is addition of the complement, so both share `addWithCarry`, and with it the
rule that carry after a subtraction means that nothing was borrowed.
-/

set_option autoImplicit false

namespace NesMachine

namespace Registers

/-- Adds a value and the carry to the accumulator. Overflow tells that the sum of the two as signed
bytes does not fit a signed byte. -/
def addWithCarry (r : Registers) (value : UInt8) : Registers :=
  let sum := r.a.toNat + value.toNat + r.p.carry.toNat
  let result := UInt8.ofNat sum
  let overflow := ~~~(r.a ^^^ value) &&& (r.a ^^^ result) &&& 0x80 != 0
  { r with
    a := result
    p := { r.p with carry := 255 < sum, overflow := overflow }.withResult result }

/-- The flags after comparing a register with a value: those of their difference, and carry where
the register is not below. -/
def compare (r : Registers) (register value : UInt8) : Registers :=
  { r with p := { r.p with carry := value ≤ register }.withResult (register - value) }

/-- Sets the accumulator, and the flags for it. -/
def setA (r : Registers) (value : UInt8) : Registers :=
  { r with a := value, p := r.p.withResult value }

/-- Sets the first index register, and the flags for it. -/
def setX (r : Registers) (value : UInt8) : Registers :=
  { r with x := value, p := r.p.withResult value }

/-- Sets the second index register, and the flags for it. -/
def setY (r : Registers) (value : UInt8) : Registers :=
  { r with y := value, p := r.p.withResult value }

/-- The flags after testing a value against the accumulator. -/
def testBits (r : Registers) (value : UInt8) : Registers :=
  { r with
    p := { r.p with
      zero := r.a &&& value == 0
      overflow := value &&& 0x40 != 0
      negative := value &&& 0x80 != 0 } }

end Registers

/-- The registers after the operation on a value. -/
def ReadOp.apply (op : ReadOp) (value : UInt8) (r : Registers) : Registers :=
  match op with
  | lda => r.setA value
  | ldx => r.setX value
  | ldy => r.setY value
  | adc => r.addWithCarry value
  | sbc => r.addWithCarry (~~~value)
  | cmp => r.compare r.a value
  | cpx => r.compare r.x value
  | cpy => r.compare r.y value
  | and => r.setA (r.a &&& value)
  | eor => r.setA (r.a ^^^ value)
  | ora => r.setA (r.a ||| value)
  | bit => r.testBits value

/-- The register that is stored. -/
def StoreOp.value (op : StoreOp) (r : Registers) : UInt8 :=
  match op with
  | sta => r.a
  | stx => r.x
  | sty => r.y

/-- The result that is put back, given the carry before. -/
def ModifyOp.result (op : ModifyOp) (carry : Bool) (value : UInt8) : UInt8 :=
  match op with
  | asl => value <<< 1
  | lsr => value >>> 1
  | rol => value <<< 1 ||| (if carry then 1 else 0)
  | ror => value >>> 1 ||| (if carry then 0x80 else 0)
  | inc => value + 1
  | dec => value - 1

/-- The carry afterwards: the bit that was shifted out, if there was one. -/
def ModifyOp.carryOut (op : ModifyOp) (carry : Bool) (value : UInt8) : Bool :=
  match op with
  | asl => value &&& 0x80 != 0
  | lsr => value &&& 0x01 != 0
  | rol => value &&& 0x80 != 0
  | ror => value &&& 0x01 != 0
  | inc => carry
  | dec => carry

/-- The flags after the operation on a value. -/
def ModifyOp.flags (op : ModifyOp) (p : Status) (value : UInt8) : Status :=
  { p with carry := op.carryOut p.carry value }.withResult (op.result p.carry value)

/-- The registers after the operation. -/
def RegisterOp.apply (op : RegisterOp) (r : Registers) : Registers :=
  match op with
  | tax => r.setX r.a
  | tay => r.setY r.a
  | tsx => r.setX r.sp
  | txa => r.setA r.x
  | txs => { r with sp := r.x }
  | tya => r.setA r.y
  | inx => r.setX (r.x + 1)
  | iny => r.setY (r.y + 1)
  | dex => r.setX (r.x - 1)
  | dey => r.setY (r.y - 1)
  | clc => { r with p := { r.p with carry := false } }
  | sec => { r with p := { r.p with carry := true } }
  | cld => { r with p := { r.p with decimal := false } }
  | sed => { r with p := { r.p with decimal := true } }
  | cli => { r with p := { r.p with interrupt := false } }
  | sei => { r with p := { r.p with interrupt := true } }
  | clv => { r with p := { r.p with overflow := false } }
  | nop => r

/-- Whether the branch is taken. -/
def BranchOp.taken (op : BranchOp) (p : Status) : Bool :=
  match op with
  | bcc => !p.carry
  | bcs => p.carry
  | beq => p.zero
  | bne => !p.zero
  | bmi => p.negative
  | bpl => !p.negative
  | bvs => p.overflow
  | bvc => !p.overflow

end NesMachine
