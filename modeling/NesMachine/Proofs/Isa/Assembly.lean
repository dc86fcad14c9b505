import Mathlib.Data.List.Nodup
import NesMachine.Console.Trace
import NesMachine.Isa.Disassembly
import NesMachine.Proofs.Text.Columns

/-!
# `NesMachine/Proofs/Isa/Assembly.lean` — assembly text read back

The text of an instruction is three letters and, around some digits, the punctuation of its mode. Both
are read off it without looking at the digits: if every digit is made a zero, then what is left says
which row of the table the text was written by (`keys_nodup`). The digits are then where the
punctuation leaves them.

So there is an assembler (`assemble`), and that it gives back the bytes of every instruction is the
reason why no two instructions have the same text. It has to be told the address, because a branch is
written with the address that it goes to. An absolute operand looks just like that, and what tells the
two apart is that no mnemonic has both.
-/

set_option autoImplicit false

namespace NesMachine

open Text

/-! ## The bytes of an instruction -/

/-- The operands that fit the operand bytes of the mode. -/
def AddressingMode.Admits (mode : AddressingMode) (operand : UInt16) : Prop :=
  operand.toNat < Nat.pow 256 mode.operandLength

/-- The instruction in machine code: its opcode, and as many bytes of the operand as its mode has, the
low one first. -/
def Instruction.bytes (i : Instruction) (operand : UInt16) : List UInt8 :=
  i.opcode :: [lowByte operand, highByte operand].take i.mode.operandLength

theorem toUInt16_lowByte {w : UInt16} (h : w.toNat < 256) : (lowByte w).toUInt16 = w := by
  apply UInt16.toNat_inj.mp
  rw [UInt8.toNat_toUInt16, toNat_lowByte, Nat.mod_eq_of_lt h]

theorem Instruction.operandOfBytes_bytes {i : Instruction} {operand : UInt16}
    (h : i.mode.Admits operand) : operandOfBytes (i.bytes operand) = operand := by
  obtain ⟨opcode, op, mode, cycles, pageCycle⟩ := i
  have hnone (h : operand.toNat < Nat.pow 256 0) : 0 = operand :=
    UInt16.toNat_inj.mp (Nat.lt_one_iff.mp h).symm
  cases mode with
  | implied | accumulator => exact hnone h
  | absolute | absoluteX | absoluteY | indirect => exact word_lowByte_highByte operand
  | _ => exact toUInt16_lowByte h

/-! ## The form of an operand -/

/-- What is written around the digits of an operand, and how many there are. -/
structure OperandForm where
  before : String
  digits : Nat
  after : String

namespace OperandForm

/-- The form with the digits of a number in it. -/
def fill (form : OperandForm) (n : Nat) : List Char :=
  form.before.toList ++ (numeral 16 form.digits n ++ form.after.toList)

/-- The number whose digits are in the form. -/
def read (form : OperandForm) (text : List Char) : Option Nat :=
  readNumeral 16 ((text.drop form.before.toList.length).take form.digits)

theorem read_fill {form : OperandForm} {n : Nat} (h : n < Nat.pow 16 form.digits) :
    form.read (form.fill n) = some n := by
  rw [read, fill, List.drop_left, List.take_left' (length_numeral 16 form.digits n),
    readNumeral_numeral 16 form.digits n (by decide) (by decide), Nat.mod_eq_of_lt h]

end OperandForm

namespace AddressingMode

def form : AddressingMode → OperandForm
  | implied => ⟨"", 0, ""⟩
  | accumulator => ⟨" A", 0, ""⟩
  | immediate => ⟨" #$", 2, ""⟩
  | zeroPage => ⟨" $", 2, ""⟩
  | zeroPageX => ⟨" $", 2, ",X"⟩
  | zeroPageY => ⟨" $", 2, ",Y"⟩
  | absolute => ⟨" $", 4, ""⟩
  | absoluteX => ⟨" $", 4, ",X"⟩
  | absoluteY => ⟨" $", 4, ",Y"⟩
  | indirect => ⟨" ($", 4, ")"⟩
  | indirectX => ⟨" ($", 2, ",X)"⟩
  | indirectY => ⟨" ($", 2, "),Y"⟩
  | relative => ⟨" $", 4, ""⟩

/-- The number that is written for an operand: the target of a branch, and otherwise the operand. -/
def written (mode : AddressingMode) (operand address : UInt16) : Nat :=
  match mode with
  | relative => (NesMachine.branchTarget address (lowByte operand)).toNat
  | _ => operand.toNat

/-- The operand that a number is written for. -/
def operandWritten (mode : AddressingMode) (n : Nat) (address : UInt16) : UInt16 :=
  match mode with
  | relative => (lowByte (.ofNat n - (address + 2))).toUInt16
  | _ => .ofNat n

section

variable {mode : AddressingMode} {operand : UInt16} (address : UInt16)

theorem toList_operandText (h : mode.Admits operand) :
    (mode.operandText operand address).toList = mode.form.fill (mode.written operand address) := by
  have hshort (h : operand.toNat < Nat.pow 256 1) :
      hex 2 operand.toNat = String.ofList (numeral 16 2 operand.toNat) :=
    hex_of_lt (by decide) h
  have hlong (w : UInt16) : hex 4 w.toNat = String.ofList (numeral 16 4 w.toNat) :=
    hex_of_lt (by decide) w.toNat_lt
  cases mode with
  | implied | accumulator => simp [operandText, OperandForm.fill, form, numeral]
  | absolute | absoluteX | absoluteY | indirect | relative =>
    simp [operandText, OperandForm.fill, form, written, hlong, hexWord]
  | _ => simp [operandText, OperandForm.fill, form, written, hshort h]

/-- There are always digits enough for the number. -/
theorem written_lt (h : mode.Admits operand) :
    mode.written operand address < Nat.pow 16 mode.form.digits := by
  cases mode with
  | relative => exact UInt16.toNat_lt _
  | absolute | absoluteX | absoluteY | indirect => exact operand.toNat_lt
  | _ => exact h

/-- A branch goes half a page at most in either direction, so the low byte of the way is enough. -/
theorem lowByte_branchTarget_sub (offset : UInt8) :
    lowByte (NesMachine.branchTarget address offset - (address + 2)) = offset := by
  rw [NesMachine.branchTarget, UInt16.add_comm (address + 2), UInt16.add_sub_cancel]
  by_cases hforwards : offset < 0x80
  · rw [signedOffset, if_pos hforwards]
    exact UInt8.toUInt8_toUInt16 offset
  · rw [signedOffset, if_neg hforwards]
    exact lowByte_word offset 0xFF

theorem operandWritten_written (h : mode.Admits operand) :
    mode.operandWritten (mode.written operand address) address = operand := by
  have hback : UInt16.ofNat operand.toNat = operand := UInt16.ofNat_toNat
  cases mode with
  | relative =>
    rw [written, operandWritten, UInt16.ofNat_toNat, lowByte_branchTarget_sub, toUInt16_lowByte h]
  | _ => exact hback

end

end AddressingMode

/-! ## The key of a text -/

/-- The text with every digit made a zero. -/
def undigited (text : List Char) : List Char :=
  text.map fun c => if (digitValue? c).isSome then '0' else c

theorem undigited_append (before after : List Char) :
    undigited (before ++ after) = undigited before ++ undigited after := List.map_append

/-- All that is left of a numeral is its width. -/
theorem undigited_numeral (width n : Nat) :
    undigited (numeral 16 width n) = List.replicate width '0' := by
  have hzero : ∀ c ∈ numeral 16 width n, (if (digitValue? c).isSome then '0' else c) = '0' :=
    fun c hc => if_pos (isSome_digitValue?_of_mem (by decide) (by decide) hc)
  rw [undigited, List.map_congr_left hzero, List.map_const', length_numeral]

theorem OperandForm.undigited_fill (form : OperandForm) (n : Nat) :
    undigited (form.fill n) = undigited (form.fill 0) := by
  simp only [fill, undigited_append, undigited_numeral]

/-- What a text shows of an instruction apart from the digits. -/
def textKey (text : List Char) : List Char := text.take 3 ++ undigited (text.drop 3)

namespace Instruction

/-- What the texts of an instruction have in common. -/
def key (i : Instruction) : List Char :=
  i.mnemonic.toList ++ undigited (i.mode.form.fill 0)

/-- The bytes of the instruction that is written so at an address. -/
def assemble (address : UInt16) (text : String) : Option (List UInt8) := do
  let i ← documented.find? fun i => i.key == textKey text.toList
  let n ← i.mode.form.read (text.toList.drop 3)
  return i.bytes (i.mode.operandWritten n address)

/-- **No two rows of the table are written alike.** The letters and the punctuation tell them apart,
and the count of digits where the punctuation is the same. -/
theorem keys_nodup : (documented.map key).Nodup := by
  -- Numbers are compared faster than texts.
  let code (text : List Char) : Nat := text.foldl (fun n c => 128 * n + c.toNat) 0
  have hcodes : ((documented.map key).map code).Nodup := by decide +kernel
  exact hcodes.of_map code

variable {i : Instruction} {operand address : UInt16}

theorem toList_disassemble (h : i.mode.Admits operand) :
    (i.disassemble operand address).toList
      = i.mnemonic.toList ++ i.mode.form.fill (i.mode.written operand address) := by
  rw [disassemble, String.toList_append, i.mode.toList_operandText address h]

theorem length_toList_mnemonic (i : Instruction) : i.mnemonic.toList.length = 3 := by
  rw [String.length_toList]
  exact i.operation.length_mnemonic

theorem textKey_disassemble (h : i.mode.Admits operand) :
    textKey (i.disassemble operand address).toList = i.key := by
  rw [textKey, toList_disassemble h, List.take_left' i.length_toList_mnemonic,
    List.drop_left' i.length_toList_mnemonic, i.mode.form.undigited_fill, key]

/-- The row of the table is the only one with its key. -/
theorem find?_key (hi : i ∈ documented) : documented.find? (fun j => j.key == i.key) = some i := by
  have hfound : (documented.find? fun j => j.key == i.key).isSome :=
    List.find?_isSome.mpr ⟨i, hi, beq_self_eq_true i.key⟩
  obtain ⟨j, hj⟩ := Option.isSome_iff_exists.mp hfound
  have hkey : (j.key == i.key) = true := by simpa using List.find?_some hj
  have hmem : j ∈ documented := List.mem_of_find?_eq_some hj
  rw [hj, List.inj_on_of_nodup_map keys_nodup hmem hi (beq_iff_eq.mp hkey)]

theorem assemble_disassemble (address : UInt16) (hi : i ∈ documented) (h : i.mode.Admits operand) :
    assemble address (i.disassemble operand address) = some (i.bytes operand) := by
  have hread : i.mode.form.read ((i.disassemble operand address).toList.drop 3)
      = some (i.mode.written operand address) := by
    rw [toList_disassemble h, List.drop_left' i.length_toList_mnemonic]
    exact OperandForm.read_fill (i.mode.written_lt address h)
  simp only [assemble, textKey_disassemble h, find?_key hi, hread, Option.bind_eq_bind,
    Option.bind_some, Option.pure_def, i.mode.operandWritten_written address h]

/-! ## Nothing is lost -/

/-- **Disassembly loses nothing.** Two instructions with the same text at the same address have the
same opcode and the same operand. The assembler gives their bytes back, of every documented instruction
with an operand that fits it, at every address. -/
theorem disassembly_loses_nothing (address : UInt16) :
    (∀ {a b : UInt8} {i j : Instruction} {x y : UInt16},
      decode a = some i → decode b = some j → i.mode.Admits x → j.mode.Admits y →
      i.disassemble x address = j.disassemble y address → a = b ∧ x = y) ∧
    ∀ {opcode : UInt8} {i : Instruction} {operand : UInt16},
      decode opcode = some i → i.mode.Admits operand →
      assemble address (i.disassemble operand address) = some (i.bytes operand) := by
  refine ⟨fun {a b i j x y} hi hj hx hy htext => ?_, fun hi h => ?_⟩
  · obtain ⟨hmem, rfl⟩ := decode_eq_some_iff.mp hi
    obtain ⟨hmem', rfl⟩ := decode_eq_some_iff.mp hj
    have hassembled := assemble_disassemble address hmem hx
    rw [htext, assemble_disassemble address hmem' hy] at hassembled
    have hbytes : i.bytes x = j.bytes y := (Option.some.inj hassembled).symm
    refine ⟨(List.cons.inj hbytes).1, ?_⟩
    rw [← operandOfBytes_bytes hx, hbytes, operandOfBytes_bytes hy]
  · exact assemble_disassemble address (decode_eq_some_iff.mp hi).1 h

/-- A branch half a page back from the first cell goes round the end, and is still the only instruction
that is written so there. -/
theorem assemble_branch_roundTheEnd :
    assemble 0x0000 "BNE $FF82" = some [0xD0, 0x80] ∧
    ∀ {opcode : UInt8} {j : Instruction} {operand : UInt16}, decode opcode = some j →
      j.mode.Admits operand → j.disassemble operand 0x0000 = "BNE $FF82" →
      opcode = 0xD0 ∧ operand = 0x80 := by
  have hdecodes : decode 0xD0 = some ⟨0xD0, .branch .bne, .relative, 2, false⟩ := by decide +kernel
  have hfits : AddressingMode.relative.Admits 0x80 := by
    show 0x80 < Nat.pow 256 1
    decide
  have htext : Instruction.disassemble ⟨0xD0, .branch .bne, .relative, 2, false⟩ 0x80 0x0000
      = "BNE $FF82" := rfl
  obtain ⟨hunique, hassembles⟩ := disassembly_loses_nothing 0x0000
  refine ⟨?_, fun hj hadmits hwritten => ?_⟩
  · rw [← htext]
    exact hassembles hdecodes hfits
  · exact hunique hj hdecodes hadmits hfits (hwritten.trans htext.symm)

end Instruction

end NesMachine
