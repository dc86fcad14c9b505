/-!
# `NesMachine/Isa/AddressingMode.lean` — where an instruction finds its operand

The addressing mode alone decides how many bytes follow the opcode. How the bytes become an address
is the processor's business, and how they are written is the disassembly's.
-/

set_option autoImplicit false

namespace NesMachine

/-- The thirteen ways in which an instruction names its operand. -/
inductive AddressingMode where
  | implied
  | accumulator
  | immediate
  | zeroPage
  | zeroPageX
  | zeroPageY
  | absolute
  | absoluteX
  | absoluteY
  | indirect
  | indirectX
  | indirectY
  | relative
  deriving DecidableEq

namespace AddressingMode

/-- The count of operand bytes after the opcode. -/
def operandLength : AddressingMode → Nat
  | implied => 0
  | accumulator => 0
  | absolute => 2
  | absoluteX => 2
  | absoluteY => 2
  | indirect => 2
  | _ => 1

theorem operandLength_le_two (mode : AddressingMode) : mode.operandLength ≤ 2 := by
  cases mode <;> decide

end AddressingMode

end NesMachine
