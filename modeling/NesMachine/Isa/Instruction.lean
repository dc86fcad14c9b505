import NesMachine.Isa.AddressingMode
import NesMachine.Isa.Operation

/-!
# `NesMachine/Isa/Instruction.lean` — the documented instructions

Of the 256 opcodes 151 are documented. The table `documented` has one row for each, and `decode` is
a search in it; what an undocumented opcode does is left to the machine. Opcodes occur once in the
table, so `decode_eq_some_iff` can read it as a relation: an opcode decodes to exactly the row that
carries it.
-/

set_option autoImplicit false

namespace NesMachine

/-- A row of the instruction table. -/
structure Instruction where
  opcode : UInt8
  operation : Operation
  mode : AddressingMode
  /-- The cycles that the instruction takes at least. -/
  cycles : Nat
  /-- Whether one cycle more is taken where indexing leaves the page of the base address. -/
  pageCycle : Bool
  deriving DecidableEq

namespace Instruction

/-- The bytes that the instruction takes in memory, opcode included. -/
def length (instruction : Instruction) : Nat := 1 + instruction.mode.operandLength

/-- The three letters of the instruction. -/
def mnemonic (instruction : Instruction) : String := instruction.operation.mnemonic

/-- The documented instructions. -/
def documented : List Instruction := [
  -- Operations on a value: an indexed address that leaves its page costs one cycle more.
  ⟨0xA9, .read .lda, .immediate, 2, false⟩,
  ⟨0xA5, .read .lda, .zeroPage, 3, false⟩,
  ⟨0xB5, .read .lda, .zeroPageX, 4, false⟩,
  ⟨0xAD, .read .lda, .absolute, 4, false⟩,
  ⟨0xBD, .read .lda, .absoluteX, 4, true⟩,
  ⟨0xB9, .read .lda, .absoluteY, 4, true⟩,
  ⟨0xA1, .read .lda, .indirectX, 6, false⟩,
  ⟨0xB1, .read .lda, .indirectY, 5, true⟩,
  ⟨0xA2, .read .ldx, .immediate, 2, false⟩,
  ⟨0xA6, .read .ldx, .zeroPage, 3, false⟩,
  ⟨0xB6, .read .ldx, .zeroPageY, 4, false⟩,
  ⟨0xAE, .read .ldx, .absolute, 4, false⟩,
  ⟨0xBE, .read .ldx, .absoluteY, 4, true⟩,
  ⟨0xA0, .read .ldy, .immediate, 2, false⟩,
  ⟨0xA4, .read .ldy, .zeroPage, 3, false⟩,
  ⟨0xB4, .read .ldy, .zeroPageX, 4, false⟩,
  ⟨0xAC, .read .ldy, .absolute, 4, false⟩,
  ⟨0xBC, .read .ldy, .absoluteX, 4, true⟩,
  ⟨0x69, .read .adc, .immediate, 2, false⟩,
  ⟨0x65, .read .adc, .zeroPage, 3, false⟩,
  ⟨0x75, .read .adc, .zeroPageX, 4, false⟩,
  ⟨0x6D, .read .adc, .absolute, 4, false⟩,
  ⟨0x7D, .read .adc, .absoluteX, 4, true⟩,
  ⟨0x79, .read .adc, .absoluteY, 4, true⟩,
  ⟨0x61, .read .adc, .indirectX, 6, false⟩,
  ⟨0x71, .read .adc, .indirectY, 5, true⟩,
  ⟨0xE9, .read .sbc, .immediate, 2, false⟩,
  ⟨0xE5, .read .sbc, .zeroPage, 3, false⟩,
  ⟨0xF5, .read .sbc, .zeroPageX, 4, false⟩,
  ⟨0xED, .read .sbc, .absolute, 4, false⟩,
  ⟨0xFD, .read .sbc, .absoluteX, 4, true⟩,
  ⟨0xF9, .read .sbc, .absoluteY, 4, true⟩,
  ⟨0xE1, .read .sbc, .indirectX, 6, false⟩,
  ⟨0xF1, .read .sbc, .indirectY, 5, true⟩,
  ⟨0xC9, .read .cmp, .immediate, 2, false⟩,
  ⟨0xC5, .read .cmp, .zeroPage, 3, false⟩,
  ⟨0xD5, .read .cmp, .zeroPageX, 4, false⟩,
  ⟨0xCD, .read .cmp, .absolute, 4, false⟩,
  ⟨0xDD, .read .cmp, .absoluteX, 4, true⟩,
  ⟨0xD9, .read .cmp, .absoluteY, 4, true⟩,
  ⟨0xC1, .read .cmp, .indirectX, 6, false⟩,
  ⟨0xD1, .read .cmp, .indirectY, 5, true⟩,
  ⟨0xE0, .read .cpx, .immediate, 2, false⟩,
  ⟨0xE4, .read .cpx, .zeroPage, 3, false⟩,
  ⟨0xEC, .read .cpx, .absolute, 4, false⟩,
  ⟨0xC0, .read .cpy, .immediate, 2, false⟩,
  ⟨0xC4, .read .cpy, .zeroPage, 3, false⟩,
  ⟨0xCC, .read .cpy, .absolute, 4, false⟩,
  ⟨0x29, .read .and, .immediate, 2, false⟩,
  ⟨0x25, .read .and, .zeroPage, 3, false⟩,
  ⟨0x35, .read .and, .zeroPageX, 4, false⟩,
  ⟨0x2D, .read .and, .absolute, 4, false⟩,
  ⟨0x3D, .read .and, .absoluteX, 4, true⟩,
  ⟨0x39, .read .and, .absoluteY, 4, true⟩,
  ⟨0x21, .read .and, .indirectX, 6, false⟩,
  ⟨0x31, .read .and, .indirectY, 5, true⟩,
  ⟨0x49, .read .eor, .immediate, 2, false⟩,
  ⟨0x45, .read .eor, .zeroPage, 3, false⟩,
  ⟨0x55, .read .eor, .zeroPageX, 4, false⟩,
  ⟨0x4D, .read .eor, .absolute, 4, false⟩,
  ⟨0x5D, .read .eor, .absoluteX, 4, true⟩,
  ⟨0x59, .read .eor, .absoluteY, 4, true⟩,
  ⟨0x41, .read .eor, .indirectX, 6, false⟩,
  ⟨0x51, .read .eor, .indirectY, 5, true⟩,
  ⟨0x09, .read .ora, .immediate, 2, false⟩,
  ⟨0x05, .read .ora, .zeroPage, 3, false⟩,
  ⟨0x15, .read .ora, .zeroPageX, 4, false⟩,
  ⟨0x0D, .read .ora, .absolute, 4, false⟩,
  ⟨0x1D, .read .ora, .absoluteX, 4, true⟩,
  ⟨0x19, .read .ora, .absoluteY, 4, true⟩,
  ⟨0x01, .read .ora, .indirectX, 6, false⟩,
  ⟨0x11, .read .ora, .indirectY, 5, true⟩,
  ⟨0x24, .read .bit, .zeroPage, 3, false⟩,
  ⟨0x2C, .read .bit, .absolute, 4, false⟩,
  -- Stores: the cost of an indexed address is in the base cost.
  ⟨0x85, .store .sta, .zeroPage, 3, false⟩,
  ⟨0x95, .store .sta, .zeroPageX, 4, false⟩,
  ⟨0x8D, .store .sta, .absolute, 4, false⟩,
  ⟨0x9D, .store .sta, .absoluteX, 5, false⟩,
  ⟨0x99, .store .sta, .absoluteY, 5, false⟩,
  ⟨0x81, .store .sta, .indirectX, 6, false⟩,
  ⟨0x91, .store .sta, .indirectY, 6, false⟩,
  ⟨0x86, .store .stx, .zeroPage, 3, false⟩,
  ⟨0x96, .store .stx, .zeroPageY, 4, false⟩,
  ⟨0x8E, .store .stx, .absolute, 4, false⟩,
  ⟨0x84, .store .sty, .zeroPage, 3, false⟩,
  ⟨0x94, .store .sty, .zeroPageX, 4, false⟩,
  ⟨0x8C, .store .sty, .absolute, 4, false⟩,
  -- Operations that put their result back: the same holds of their indexed addresses.
  ⟨0x0A, .modify .asl, .accumulator, 2, false⟩,
  ⟨0x06, .modify .asl, .zeroPage, 5, false⟩,
  ⟨0x16, .modify .asl, .zeroPageX, 6, false⟩,
  ⟨0x0E, .modify .asl, .absolute, 6, false⟩,
  ⟨0x1E, .modify .asl, .absoluteX, 7, false⟩,
  ⟨0x4A, .modify .lsr, .accumulator, 2, false⟩,
  ⟨0x46, .modify .lsr, .zeroPage, 5, false⟩,
  ⟨0x56, .modify .lsr, .zeroPageX, 6, false⟩,
  ⟨0x4E, .modify .lsr, .absolute, 6, false⟩,
  ⟨0x5E, .modify .lsr, .absoluteX, 7, false⟩,
  ⟨0x2A, .modify .rol, .accumulator, 2, false⟩,
  ⟨0x26, .modify .rol, .zeroPage, 5, false⟩,
  ⟨0x36, .modify .rol, .zeroPageX, 6, false⟩,
  ⟨0x2E, .modify .rol, .absolute, 6, false⟩,
  ⟨0x3E, .modify .rol, .absoluteX, 7, false⟩,
  ⟨0x6A, .modify .ror, .accumulator, 2, false⟩,
  ⟨0x66, .modify .ror, .zeroPage, 5, false⟩,
  ⟨0x76, .modify .ror, .zeroPageX, 6, false⟩,
  ⟨0x6E, .modify .ror, .absolute, 6, false⟩,
  ⟨0x7E, .modify .ror, .absoluteX, 7, false⟩,
  ⟨0xE6, .modify .inc, .zeroPage, 5, false⟩,
  ⟨0xF6, .modify .inc, .zeroPageX, 6, false⟩,
  ⟨0xEE, .modify .inc, .absolute, 6, false⟩,
  ⟨0xFE, .modify .inc, .absoluteX, 7, false⟩,
  ⟨0xC6, .modify .dec, .zeroPage, 5, false⟩,
  ⟨0xD6, .modify .dec, .zeroPageX, 6, false⟩,
  ⟨0xCE, .modify .dec, .absolute, 6, false⟩,
  ⟨0xDE, .modify .dec, .absoluteX, 7, false⟩,
  -- Registers and flags.
  ⟨0xAA, .register .tax, .implied, 2, false⟩,
  ⟨0xA8, .register .tay, .implied, 2, false⟩,
  ⟨0xBA, .register .tsx, .implied, 2, false⟩,
  ⟨0x8A, .register .txa, .implied, 2, false⟩,
  ⟨0x9A, .register .txs, .implied, 2, false⟩,
  ⟨0x98, .register .tya, .implied, 2, false⟩,
  ⟨0xE8, .register .inx, .implied, 2, false⟩,
  ⟨0xC8, .register .iny, .implied, 2, false⟩,
  ⟨0xCA, .register .dex, .implied, 2, false⟩,
  ⟨0x88, .register .dey, .implied, 2, false⟩,
  ⟨0x18, .register .clc, .implied, 2, false⟩,
  ⟨0x38, .register .sec, .implied, 2, false⟩,
  ⟨0xD8, .register .cld, .implied, 2, false⟩,
  ⟨0xF8, .register .sed, .implied, 2, false⟩,
  ⟨0x58, .register .cli, .implied, 2, false⟩,
  ⟨0x78, .register .sei, .implied, 2, false⟩,
  ⟨0xB8, .register .clv, .implied, 2, false⟩,
  ⟨0xEA, .register .nop, .implied, 2, false⟩,
  -- Branches: what a taken branch costs is decided when it is taken.
  ⟨0x90, .branch .bcc, .relative, 2, false⟩,
  ⟨0xB0, .branch .bcs, .relative, 2, false⟩,
  ⟨0xF0, .branch .beq, .relative, 2, false⟩,
  ⟨0xD0, .branch .bne, .relative, 2, false⟩,
  ⟨0x30, .branch .bmi, .relative, 2, false⟩,
  ⟨0x10, .branch .bpl, .relative, 2, false⟩,
  ⟨0x70, .branch .bvs, .relative, 2, false⟩,
  ⟨0x50, .branch .bvc, .relative, 2, false⟩,
  -- Jumps, calls, returns.
  ⟨0x4C, .jump .jmp, .absolute, 3, false⟩,
  ⟨0x6C, .jump .jmp, .indirect, 5, false⟩,
  ⟨0x20, .jump .jsr, .absolute, 6, false⟩,
  ⟨0x60, .jump .rts, .implied, 6, false⟩,
  ⟨0x40, .jump .rti, .implied, 6, false⟩,
  ⟨0x00, .jump .brk, .implied, 7, false⟩,
  -- The stack.
  ⟨0x48, .stack .pha, .implied, 3, false⟩,
  ⟨0x08, .stack .php, .implied, 3, false⟩,
  ⟨0x68, .stack .pla, .implied, 4, false⟩,
  ⟨0x28, .stack .plp, .implied, 4, false⟩]

/-- The documented instruction of an opcode. -/
def decode (opcode : UInt8) : Option Instruction :=
  documented.find? fun instruction => instruction.opcode == opcode

/-! ## The table as a relation -/

theorem length_documented : documented.length = 151 := by decide +kernel

theorem opcodes_nodup : (documented.map Instruction.opcode).Nodup := by
  have numbers : (documented.map fun instruction => instruction.opcode.toNat).Nodup := by
    decide +kernel
  rw [List.Nodup, List.pairwise_map] at numbers ⊢
  exact numbers.imp fun differ same => differ (congrArg UInt8.toNat same)

/-- An opcode decodes to the row that carries it, and only to that one. -/
theorem decode_eq_some_iff {opcode : UInt8} {instruction : Instruction} :
    decode opcode = some instruction
      ↔ instruction ∈ documented ∧ instruction.opcode = opcode := by
  constructor
  · intro found
    exact ⟨List.mem_of_find?_eq_some found, by simpa using List.find?_some found⟩
  · rintro ⟨listed, rfl⟩
    have once := opcodes_nodup
    unfold decode
    generalize documented = table at listed once
    induction table with
    | nil => simp at listed
    | cons first rest ih =>
      simp only [List.map_cons, List.nodup_cons] at once
      rcases List.mem_cons.1 listed with rfl | later
      · simp
      · have differs : first.opcode ≠ instruction.opcode := fun same =>
          once.1 (same ▸ List.mem_map_of_mem later)
        simp [differs, ih later once.2]

end Instruction

end NesMachine
