import NesMachine.Cpu.Operand
import NesMachine.Proofs.Exchange.Records

/-!
# `NesMachine/Proofs/Cpu/Addressing.lean` — where an instruction looks for its operand

Addresses are numbers here. A number can be taken modulo 256 in one place and modulo 65536 in
another, and that is all that tells the addressing modes apart: an index in the zero page goes round
within it, so does a pointer there, a pointer of an indirect jump goes round within its page, and
everything else goes round after the last cell.

The processor has no such numbers. It computes on bytes and words, which go round by themselves, and
the section on numbers and words says that this comes to the same. `records_fetchOperand` is then
the whole of a mode: which operand bytes are read, which pointer bytes after them, and what address
comes out.
-/

set_option autoImplicit false

namespace NesMachine

/-! ## Addresses as numbers -/

namespace AddressingMode

section

variable (ram : Ram) (r : Registers)

/-- The byte `n` places after the opcode. -/
def operandByte (n : Nat) : Nat := (ram.read (.ofNat ((r.pc.toNat + n) % 65536))).toNat

def operandWord : Nat := operandByte ram r 1 + 256 * operandByte ram r 2

/-- The cells that hold the pointer to the operand, low byte first: in the zero page, or both in
the page of the first. -/
def pointerCells : AddressingMode → List Nat
  | indirect =>
    let pointer := operandWord ram r
    [pointer, pointer / 256 * 256 + (pointer % 256 + 1) % 256]
  | indirectX =>
    let pointer := (operandByte ram r 1 + r.x.toNat) % 256
    [pointer, (pointer + 1) % 256]
  | indirectY =>
    let pointer := operandByte ram r 1
    [pointer, (pointer + 1) % 256]
  | _ => []

def pointed (mode : AddressingMode) : Nat :=
  match pointerCells ram r mode with
  | [low, high] => (ram.read (.ofNat low)).toNat + 256 * (ram.read (.ofNat high)).toNat
  | _ => 0

/-- The effective address, in the modes that have one. -/
def effectiveAddress : AddressingMode → Option Nat
  | zeroPage => some (operandByte ram r 1)
  | zeroPageX => some ((operandByte ram r 1 + r.x.toNat) % 256)
  | zeroPageY => some ((operandByte ram r 1 + r.y.toNat) % 256)
  | absolute => some (operandWord ram r)
  | absoluteX => some ((operandWord ram r + r.x.toNat) % 65536)
  | absoluteY => some ((operandWord ram r + r.y.toNat) % 65536)
  | indirect => some (pointed ram r indirect)
  | indirectX => some (pointed ram r indirectX)
  | indirectY => some ((pointed ram r indirectY + r.y.toNat) % 65536)
  | _ => none

end

def inMemory : AddressingMode → Bool
  | implied => false
  | accumulator => false
  | immediate => false
  | relative => false
  | _ => true

theorem isSome_effectiveAddress (ram : Ram) (r : Registers) (mode : AddressingMode) :
    (mode.effectiveAddress ram r).isSome = mode.inMemory := by
  cases mode <;> rfl

/-- The cells that the operand bytes are in: the next one or two after the opcode, if any. -/
def operandCells (r : Registers) (mode : AddressingMode) : List Nat :=
  [(r.pc.toNat + 1) % 65536, (r.pc.toNat + 2) % 65536].take mode.operandLength

end AddressingMode

def Operand.address : Operand → Option UInt16
  | place address _ => some address
  | _ => none

/-! ## Numbers and words -/

theorem toNat_succ_mod (a : UInt16) : (a.toNat + 1) % 65536 = (a + 1).toNat := by
  rw [UInt16.toNat_add]
  rfl

theorem toNat_succ_succ_mod (a : UInt16) : (a.toNat + 2) % 65536 = (a + 1 + 1).toNat := by
  rw [UInt16.add_assoc, UInt16.toNat_add]
  rfl

theorem toNat_add_byte (w : UInt16) (b : UInt8) :
    (w.toNat + b.toNat) % 65536 = (w + b.toUInt16).toNat := by
  rw [UInt16.toNat_add, UInt8.toNat_toUInt16]

theorem toNat_byte_add (a b : UInt8) : (a.toNat + b.toNat) % 256 = (a + b).toNat := by
  rw [UInt8.toNat_add]

theorem toNat_byte_succ (a : UInt8) : (a.toNat + 1) % 256 = (a + 1).toNat := by
  rw [UInt8.toNat_add]
  rfl

theorem toNat_inPage (w : UInt16) :
    w.toNat / 256 * 256 + (w.toNat % 256 + 1) % 256
      = (word (lowByte w + 1) (highByte w)).toNat := by
  rw [toNat_word, ← toNat_byte_succ, toNat_lowByte, toNat_highByte]
  omega

/-! ## The processor's own way

The same in bytes and words. `r` are the registers before the instruction, so the operand bytes are
behind the cell that `pc` means. -/

namespace AddressingMode

section

variable (ram : Ram) (r : Registers)

def byteAfter : UInt8 := ram.read (r.pc + 1)

def wordAfter : UInt16 := word (ram.read (r.pc + 1)) (ram.read (r.pc + 1 + 1))

/-- The two cells of a pointer, by the mode that uses it. -/
def pointer : AddressingMode → UInt16 × UInt16
  | indirect =>
    let w := wordAfter ram r
    (w, word (lowByte w + 1) (highByte w))
  | indirectX => (zeroPageCell (byteAfter ram r + r.x), zeroPageCell (byteAfter ram r + r.x + 1))
  | indirectY => (zeroPageCell (byteAfter ram r), zeroPageCell (byteAfter ram r + 1))
  | _ => (0, 0)

def target (mode : AddressingMode) : UInt16 :=
  word (ram.read (pointer ram r mode).1) (ram.read (pointer ram r mode).2)

def operand : AddressingMode → Operand
  | implied => .nothing
  | accumulator => .accumulator
  | immediate => .value (byteAfter ram r)
  | zeroPage => .direct (zeroPageCell (byteAfter ram r))
  | zeroPageX => .direct (zeroPageCell (byteAfter ram r + r.x))
  | zeroPageY => .direct (zeroPageCell (byteAfter ram r + r.y))
  | absolute => .direct (wordAfter ram r)
  | absoluteX => .indexed (wordAfter ram r) r.x
  | absoluteY => .indexed (wordAfter ram r) r.y
  | indirect => .direct (target ram r indirect)
  | indirectX => .direct (target ram r indirectX)
  | indirectY => .indexed (target ram r indirectY) r.y
  | relative => .target (r.pc + 1 + 1 + signedOffset (byteAfter ram r))

/-! ### Both ways come to the same -/

theorem operandByte_one : operandByte ram r 1 = (byteAfter ram r).toNat := by
  rw [operandByte, toNat_succ_mod, UInt16.ofNat_toNat, byteAfter]

theorem operandWord_eq : operandWord ram r = (wordAfter ram r).toNat := by
  rw [operandWord, operandByte_one, operandByte, toNat_succ_succ_mod, UInt16.ofNat_toNat,
    wordAfter, toNat_word, byteAfter]

theorem operandCells_of_one {mode : AddressingMode} (h : mode.operandLength = 1) :
    (mode.operandCells r).map UInt16.ofNat = [r.pc + 1] := by
  rw [operandCells, h, toNat_succ_mod]
  exact congrArg (fun cell => [cell]) UInt16.ofNat_toNat

theorem operandCells_of_two {mode : AddressingMode} (h : mode.operandLength = 2) :
    (mode.operandCells r).map UInt16.ofNat = [r.pc + 1, r.pc + 1 + 1] := by
  rw [operandCells, h, toNat_succ_mod, toNat_succ_succ_mod]
  show [UInt16.ofNat _, UInt16.ofNat _] = _
  rw [UInt16.ofNat_toNat, UInt16.ofNat_toNat]

def hasPointer : AddressingMode → Bool
  | indirect => true
  | indirectX => true
  | indirectY => true
  | _ => false

theorem pointerCells_eq {mode : AddressingMode} (h : mode.hasPointer = true) :
    mode.pointerCells ram r
      = [(mode.pointer ram r).1.toNat, (mode.pointer ram r).2.toNat] := by
  have hbyte (b : UInt8) : (zeroPageCell b).toNat = b.toNat := UInt8.toNat_toUInt16 b
  cases mode with
  | indirect =>
    rw [pointerCells, operandWord_eq, toNat_inPage]
    rfl
  | indirectX =>
    rw [pointerCells, operandByte_one, toNat_byte_add, toNat_byte_succ, pointer, hbyte, hbyte]
  | indirectY => rw [pointerCells, operandByte_one, toNat_byte_succ, pointer, hbyte, hbyte]
  | _ => exact absurd h (by decide)

theorem map_pointerCells {mode : AddressingMode} (h : mode.hasPointer = true) :
    (mode.pointerCells ram r).map UInt16.ofNat
      = [(mode.pointer ram r).1, (mode.pointer ram r).2] := by
  rw [pointerCells_eq ram r h, List.map_cons, List.map_cons, List.map_nil, UInt16.ofNat_toNat,
    UInt16.ofNat_toNat]

theorem pointed_eq {mode : AddressingMode} (h : mode.hasPointer = true) :
    mode.pointed ram r = (mode.target ram r).toNat := by
  rw [pointed, pointerCells_eq ram r h, target, toNat_word]
  dsimp only
  rw [UInt16.ofNat_toNat, UInt16.ofNat_toNat]

/-- **The address found is the effective address.** -/
theorem address_operand (mode : AddressingMode) :
    (mode.operand ram r).address = (mode.effectiveAddress ram r).map UInt16.ofNat := by
  have hword {n : Nat} {w : UInt16} (h : n = w.toNat) : some w = (some n).map UInt16.ofNat := by
    rw [h, Option.map_some, UInt16.ofNat_toNat]
  have hbyte {n : Nat} {b : UInt8} (h : n = b.toNat) :
      some (zeroPageCell b) = (some n).map UInt16.ofNat := by
    rw [h, Option.map_some, UInt16.ofNat_uInt8ToNat, zeroPageCell]
  cases mode with
  | zeroPage => exact hbyte (operandByte_one ram r)
  | zeroPageX => exact hbyte (by rw [operandByte_one, toNat_byte_add])
  | zeroPageY => exact hbyte (by rw [operandByte_one, toNat_byte_add])
  | absolute => exact hword (operandWord_eq ram r)
  | absoluteX => exact hword (by rw [operandWord_eq, toNat_add_byte])
  | absoluteY => exact hword (by rw [operandWord_eq, toNat_add_byte])
  | indirect => exact hword (pointed_eq ram r rfl)
  | indirectX => exact hword (pointed_eq ram r rfl)
  | indirectY => exact hword (by rw [pointed_eq ram r rfl, toNat_add_byte])
  | _ => rfl

end

end AddressingMode

open AddressingMode in
/-- **A mode at work**: it reads the operand bytes, then the pointer, and nothing else, and moves the
program counter past the operand bytes. -/
theorem Routine.records_fetchOperand (mode : AddressingMode) (ram : Ram) (r : Registers)
    (c : UInt32) :
    (fetchOperand mode).Records ⟨{ r with pc := r.pc + 1 }, c, true⟩ ram
      ((mode.operandCells r ++ mode.pointerCells ram r).map fun cell => ram.seen (.ofNat cell))
      (mode.operand ram r) ⟨{ r with pc := r.pc + 1 + .ofNat mode.operandLength }, c, true⟩
      ram := by
  have hcells : ((mode.operandCells r ++ mode.pointerCells ram r).map
        fun cell => ram.seen (.ofNat cell))
      = ((mode.operandCells r).map UInt16.ofNat).map ram.seen
        ++ ((mode.pointerCells ram r).map UInt16.ofNat).map ram.seen := by
    rw [List.map_append, List.map_map, List.map_map]
    rfl
  have hstays : r.pc + 1 + UInt16.ofNat 0 = r.pc + 1 := UInt16.add_zero _
  rw [hcells]
  cases mode with
  | implied =>
    rw [show operandLength implied = 0 from rfl, hstays]
    exact fun _ => ⟨_, rfl⟩
  | accumulator =>
    rw [show operandLength accumulator = 0 from rfl, hstays]
    exact fun _ => ⟨_, rfl⟩
  | immediate | zeroPage | zeroPageX | zeroPageY | relative =>
    rw [operandCells_of_one r rfl]
    exact fun _ => ⟨_, rfl⟩
  | absolute | absoluteX | absoluteY =>
    rw [operandCells_of_two r rfl]
    exact fun _ => ⟨_, rfl⟩
  | indirect =>
    rw [operandCells_of_two r rfl, map_pointerCells ram r rfl]
    exact fun _ => ⟨_, rfl⟩
  | indirectX | indirectY =>
    rw [operandCells_of_one r rfl, map_pointerCells ram r rfl]
    exact fun _ => ⟨_, rfl⟩

end NesMachine
