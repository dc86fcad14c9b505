import NesMachine.Console
import NesMachine.Isa.Disassembly
import NesMachine.Text.Column

/-!
# `NesMachine/Console/Trace.lean` — the instruction about to be done

A trace line shows the instruction at the program counter, as bytes and as text, and the registers
before it is done. Making one only looks at memory, so it changes nothing.
-/

set_option autoImplicit false

namespace NesMachine

open Text

/-- The operand that the bytes of an instruction hold; its low byte comes first. -/
def operandOfBytes : List UInt8 → UInt16
  | [_, low] => low.toUInt16
  | [_, low, high] => word low high
  | _ => 0

namespace Console

/-- The bytes in memory from an address on, going round after the last cell. -/
def peekBytes (memory : Memory) (address : UInt16) (count : Nat) : Except Fault (List UInt8) :=
  (List.range count).mapM fun index => memory.peek (address + UInt16.ofNat index).toNat

/-- The bytes and the text of the instruction at an address. -/
def instructionText (memory : Memory) (address : UInt16) :
    Except Fault (List UInt8 × String) := do
  let opcode ← memory.peek address.toNat
  match Instruction.decode opcode with
  | none => return ([opcode], "???")
  | some instruction =>
    let bytes ← peekBytes memory address instruction.length
    return (bytes, instruction.disassemble (operandOfBytes bytes) address)

/-- The line for the instruction at the program counter. -/
def traceLine (console : Console) : Except Fault String :=
  if console.isOn then do
    let pc := console.cpu.registers.pc
    let (bytes, text) ← instructionText console.memory pc
    return hexWord pc ++ "  " ++ padRight 8 (" ".intercalate (bytes.map hexByte)) ++ "  "
      ++ padRight 12 text ++ "  " ++ console.cpu.render
  else .error (.uninitialized .system)

end Console

end NesMachine
