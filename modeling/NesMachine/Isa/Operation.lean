/-!
# `NesMachine/Isa/Operation.lean` — what an instruction does with its operand

The fifty-six operations are sorted by the way they use their operand, because the processor treats
all operations of a sort alike: one that reads a value takes it from any mode that has one, one that
modifies a value puts the result back where it came from, and so on. What tells the operations of a
sort apart is a function on registers and flags, given beside the processor.
-/

set_option autoImplicit false

namespace NesMachine

/-- Operations that take a value and change registers only. -/
inductive ReadOp where
  | lda | ldx | ldy
  | adc | sbc
  | cmp | cpx | cpy
  | and | eor | ora
  | bit
  deriving DecidableEq

/-- Operations that put a register into memory. -/
inductive StoreOp where
  | sta | stx | sty
  deriving DecidableEq

/-- Operations that put the result back where the value came from. -/
inductive ModifyOp where
  | asl | lsr | rol | ror | inc | dec
  deriving DecidableEq

/-- Operations between registers and flags, without an operand. -/
inductive RegisterOp where
  | tax | tay | tsx | txa | txs | tya
  | inx | iny | dex | dey
  | clc | sec | cld | sed | cli | sei | clv
  | nop
  deriving DecidableEq

/-- Operations that go elsewhere if a flag says so. -/
inductive BranchOp where
  | bcc | bcs | beq | bne | bmi | bpl | bvs | bvc
  deriving DecidableEq

/-- Operations that go elsewhere in any case. -/
inductive JumpOp where
  | jmp | jsr | rts | rti | brk
  deriving DecidableEq

/-- Operations that move one register to or from the stack. -/
inductive StackOp where
  | pha | php | pla | plp
  deriving DecidableEq

/-- What an instruction does, sorted by the use it makes of its operand. -/
inductive Operation where
  | read (op : ReadOp)
  | store (op : StoreOp)
  | modify (op : ModifyOp)
  | register (op : RegisterOp)
  | branch (op : BranchOp)
  | jump (op : JumpOp)
  | stack (op : StackOp)
  deriving DecidableEq

/-! ## Mnemonics -/

/-- The operation's three letters. -/
def ReadOp.mnemonic : ReadOp → String
  | lda => "LDA" | ldx => "LDX" | ldy => "LDY"
  | adc => "ADC" | sbc => "SBC"
  | cmp => "CMP" | cpx => "CPX" | cpy => "CPY"
  | and => "AND" | eor => "EOR" | ora => "ORA"
  | bit => "BIT"

/-- The operation's three letters. -/
def StoreOp.mnemonic : StoreOp → String
  | sta => "STA" | stx => "STX" | sty => "STY"

/-- The operation's three letters. -/
def ModifyOp.mnemonic : ModifyOp → String
  | asl => "ASL" | lsr => "LSR" | rol => "ROL" | ror => "ROR" | inc => "INC" | dec => "DEC"

/-- The operation's three letters. -/
def RegisterOp.mnemonic : RegisterOp → String
  | tax => "TAX" | tay => "TAY" | tsx => "TSX" | txa => "TXA" | txs => "TXS" | tya => "TYA"
  | inx => "INX" | iny => "INY" | dex => "DEX" | dey => "DEY"
  | clc => "CLC" | sec => "SEC" | cld => "CLD" | sed => "SED" | cli => "CLI" | sei => "SEI"
  | clv => "CLV"
  | nop => "NOP"

/-- The operation's three letters. -/
def BranchOp.mnemonic : BranchOp → String
  | bcc => "BCC" | bcs => "BCS" | beq => "BEQ" | bne => "BNE" | bmi => "BMI" | bpl => "BPL"
  | bvs => "BVS" | bvc => "BVC"

/-- The operation's three letters. -/
def JumpOp.mnemonic : JumpOp → String
  | jmp => "JMP" | jsr => "JSR" | rts => "RTS" | rti => "RTI" | brk => "BRK"

/-- The operation's three letters. -/
def StackOp.mnemonic : StackOp → String
  | pha => "PHA" | php => "PHP" | pla => "PLA" | plp => "PLP"

/-- The operation's three letters. -/
def Operation.mnemonic : Operation → String
  | read op => op.mnemonic
  | store op => op.mnemonic
  | modify op => op.mnemonic
  | register op => op.mnemonic
  | branch op => op.mnemonic
  | jump op => op.mnemonic
  | stack op => op.mnemonic

theorem Operation.length_mnemonic (op : Operation) : op.mnemonic.length = 3 := by
  cases op with
  | read op | store op | modify op | register op | branch op | jump op | stack op =>
    cases op <;> rfl

end NesMachine
