import NesMachine.Cpu.Access
import NesMachine.Isa.AddressingMode

/-!
# `NesMachine/Cpu/Operand.lean` — finding the operand

The bytes after the opcode are read, the program counter moves past them, and the addressing mode
turns them into a place. Indexing may lead out of the page of the base address; the place remembers
whether it did, because some instructions take a cycle more then.

Two modes stay within a page on purpose. Addresses in the zero page are bytes, so an index never
leads out of it, and a pointer there has its high byte in the zero page too. The pointer of an
indirect jump has its high byte in the page of its low byte.
-/

set_option autoImplicit false

namespace NesMachine

/-- What an instruction works on. -/
inductive Operand where
  | nothing
  | accumulator
  /-- A value that stands in the instruction. -/
  | value (value : UInt8)
  /-- A place in memory. -/
  | place (address : UInt16) (crossed : Bool)
  /-- Where a branch goes. -/
  | target (address : UInt16)
  deriving DecidableEq

namespace Operand

/-- A place that no index led to. -/
def direct (address : UInt16) : Operand := place address false

/-- The place that an index leads to from a base address. -/
def indexed (base : UInt16) (index : UInt8) : Operand :=
  let address := base + index.toUInt16
  place address (highByte base != highByte address)

/-- Whether an index led out of the page of its base address. -/
def crossed : Operand → Bool
  | place _ crossed => crossed
  | _ => false

end Operand

/-- A byte as an address in the zero page. -/
def zeroPageCell (byte : UInt8) : UInt16 := byte.toUInt16

namespace Routine

/-- Reads the byte at the program counter and moves past it. -/
def fetch : Routine UInt8 := do
  let byte ← load (← registers).pc
  change fun r => { r with pc := r.pc + 1 }
  return byte

/-- Reads the word at the program counter and moves past it. -/
def fetchWord : Routine UInt16 := do
  let w ← loadWord (← registers).pc
  change fun r => { r with pc := r.pc + 2 }
  return w

/-- Reads a word of the zero page. -/
def loadZeroPageWord (pointer : UInt8) : Routine UInt16 :=
  loadSplit (zeroPageCell pointer) (zeroPageCell (pointer + 1))

/-- Reads the word that a pointer means, both bytes from the page of the first. -/
def loadWordInPage (pointer : UInt16) : Routine UInt16 :=
  loadSplit pointer (word (lowByte pointer + 1) (highByte pointer))

/-- Fetches the operand bytes and finds the operand. -/
def fetchOperand : AddressingMode → Routine Operand
  | .implied => return .nothing
  | .accumulator => return .accumulator
  | .immediate => return .value (← fetch)
  | .zeroPage => return .direct (zeroPageCell (← fetch))
  | .zeroPageX => do
    let base ← fetch
    return .direct (zeroPageCell (base + (← registers).x))
  | .zeroPageY => do
    let base ← fetch
    return .direct (zeroPageCell (base + (← registers).y))
  | .absolute => return .direct (← fetchWord)
  | .absoluteX => do
    let base ← fetchWord
    return .indexed base (← registers).x
  | .absoluteY => do
    let base ← fetchWord
    return .indexed base (← registers).y
  | .indirect => do
    let pointer ← fetchWord
    return .direct (← loadWordInPage pointer)
  | .indirectX => do
    let pointer ← fetch
    return .direct (← loadZeroPageWord (pointer + (← registers).x))
  | .indirectY => do
    let pointer ← fetch
    let base ← loadZeroPageWord pointer
    return .indexed base (← registers).y
  | .relative => do
    let offset ← fetch
    return .target ((← registers).pc + signedOffset offset)

/-- The value of an operand. Where there is none it is zero. -/
def operandValue : Operand → Routine UInt8
  | .value value => return value
  | .accumulator => return (← registers).a
  | .place address _ => load address
  | .nothing => return 0
  | .target _ => return 0

/-- Puts a result where the operand's value came from. -/
def putBack (operand : Operand) (result : UInt8) : Routine Unit :=
  match operand with
  | .accumulator => change fun r => { r with a := result }
  | .place address _ => store address result
  | _ => return ()

end Routine

end NesMachine
