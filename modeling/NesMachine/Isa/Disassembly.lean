import NesMachine.Text.Numeral
import NesMachine.Isa.Instruction
import NesMachine.Word

/-!
# `NesMachine/Isa/Disassembly.lean` — an instruction as assembly text

The mode decides the punctuation around the operand and the count of its digits. A branch is shown
with the address it goes to, which is why the text of an instruction depends on where it stands.
-/

set_option autoImplicit false

namespace NesMachine

open Text

/-- The address that a branch at `address` goes to: the offset counts from the next instruction,
two bytes further, and is a signed byte. -/
def branchTarget (address : UInt16) (offset : UInt8) : UInt16 := address + 2 + signedOffset offset

namespace AddressingMode

/-- The operand as it is written after the mnemonic, of an instruction at `address`. One-byte
operands are shown with two digits, or more if the number given needs them. -/
def operandText (mode : AddressingMode) (operand address : UInt16) : String :=
  let short := "$" ++ hex 2 operand.toNat
  let long := "$" ++ hex 4 operand.toNat
  match mode with
  | implied => ""
  | accumulator => " A"
  | immediate => " #" ++ short
  | zeroPage => " " ++ short
  | zeroPageX => " " ++ short ++ ",X"
  | zeroPageY => " " ++ short ++ ",Y"
  | absolute => " " ++ long
  | absoluteX => " " ++ long ++ ",X"
  | absoluteY => " " ++ long ++ ",Y"
  | indirect => " (" ++ long ++ ")"
  | indirectX => " (" ++ short ++ ",X)"
  | indirectY => " (" ++ short ++ "),Y"
  | relative => " $" ++ hexWord (branchTarget address (lowByte operand))

end AddressingMode

/-- The instruction with its operand, as it is written for `address`. -/
def Instruction.disassemble (instruction : Instruction) (operand address : UInt16) : String :=
  instruction.mnemonic ++ instruction.mode.operandText operand address

end NesMachine
