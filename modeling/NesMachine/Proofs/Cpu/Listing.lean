import Mathlib.Data.List.Lattice
import NesMachine.Proofs.Cpu.Flow
import NesMachine.Proofs.Cpu.Series
import NesMachine.Proofs.Memory.Block

/-!
# `NesMachine/Proofs/Cpu/Listing.lean` — programs without jumps

A program without jumps is a list of lines, and it should do what its lines do, one after the other:
that is `effects`, and there is neither a program counter in it nor code. The processor has no lines.
It fetches bytes from cells, and a line that stores something may have changed them.

`steps_listing` says when this makes no difference: if no line writes to a cell that the program is
in, the processor does the lines. So what is to be proved of such a program is proved of `effects`,
by induction on the list.
-/

set_option autoImplicit false

namespace NesMachine

/-- A line of a program without jumps: an operation between registers, or one on the cell that the
line names. -/
inductive Line where
  | register (op : RegisterOp)
  | read (op : ReadOp) (address : UInt16)
  | store (op : StoreOp) (address : UInt16)
  | modify (op : ModifyOp) (address : UInt16)

namespace Line

def operation : Line → Operation
  | register op => .register op
  | read op _ => .read op
  | store op _ => .store op
  | modify op _ => .modify op

def mode : Line → AddressingMode
  | register _ => .implied
  | _ => .absolute

def operand : Line → Operand
  | register _ => .nothing
  | read _ address => .direct address
  | store _ address => .direct address
  | modify _ address => .direct address

/-- The row of the table that the line is assembled by. -/
def row (line : Line) : Option Instruction :=
  Instruction.documented.find? fun i => i.operation == line.operation && i.mode == line.mode

/-- The address in the line, low byte first. -/
def operandBytes : Line → List UInt8
  | register _ => []
  | read _ address => [lowByte address, highByte address]
  | store _ address => [lowByte address, highByte address]
  | modify _ address => [lowByte address, highByte address]

/-- The line in machine code. -/
def bytes (line : Line) : List UInt8 :=
  line.row.toList.map Instruction.opcode ++ line.operandBytes

/-- The cell that the line writes to, if there is one. -/
def written : Line → List UInt16
  | store _ address => [address]
  | modify _ address => [address]
  | _ => []

/-- What the line does. -/
def effect (line : Line) (state : Registers × Ram) : Registers × Ram :=
  line.operation.effect state.2 (Routine.fetched state.1 line.mode) line.operand

/-! ## Lines in machine code -/

/-- Every line can be assembled. -/
theorem exists_row (line : Line) : ∃ i ∈ Instruction.documented,
    line.row = some i ∧ i.operation = line.operation ∧ i.mode = line.mode := by
  have hsome : line.row.isSome = true := by
    cases line with
    | register op => cases op <;> rfl
    | read op address => cases op <;> rfl
    | store op address => cases op <;> rfl
    | modify op address => cases op <;> rfl
  obtain ⟨i, hi⟩ := Option.isSome_iff_exists.mp hsome
  have hmatch := List.find?_some hi
  rw [Bool.and_eq_true, beq_iff_eq, beq_iff_eq] at hmatch
  exact ⟨i, List.mem_of_find?_eq_some hi, hi, hmatch⟩

theorem length_operandBytes (line : Line) :
    line.operandBytes.length = line.mode.operandLength := by
  cases line <;> rfl

theorem length_bytes (line : Line) : line.bytes.length = 1 + line.mode.operandLength := by
  obtain ⟨i, -, hrow, -⟩ := line.exists_row
  simp [bytes, hrow, length_operandBytes, Nat.add_comm]

variable {line : Line} {ram : Ram} {r : Registers}

/-- An assembled line is read as what it was. -/
theorem operand_of_bytes (h : ram.readBlock r.pc line.bytes.length = line.bytes) :
    line.mode.operand ram r = line.operand := by
  obtain ⟨i, -, hrow, -⟩ := line.exists_row
  rw [length_bytes, bytes, hrow, Ram.readBlock_eq] at h
  cases line with
  | register op => rfl
  | read op address | store op address | modify op address =>
    have hlow : ram.read (r.pc + 1) = lowByte address := congrArg (fun l => l.getD 1 0) h
    have hhigh : ram.read (r.pc + 1 + 1) = highByte address := by
      rw [UInt16.add_assoc]
      exact congrArg (fun l => l.getD 2 0) h
    show Operand.direct (word (ram.read (r.pc + 1)) (ram.read (r.pc + 1 + 1))) = .direct address
    rw [hlow, hhigh, word_lowByte_highByte]

theorem run_step_of_bytes (c : UInt32)
    (h : ram.readBlock r.pc line.bytes.length = line.bytes) : ∃ cycles,
    Routine.step.run (⟨r, c, true⟩, ram)
      = ⟨.ok cycles, (⟨(line.effect (r, ram)).1, c + .ofNat cycles, true⟩,
          (line.effect (r, ram)).2), []⟩ := by
  obtain ⟨i, hi, hrow, hop, hmode⟩ := line.exists_row
  have hopcode : ram.read r.pc = i.opcode := by
    have hfirst := congrArg (fun l => l.getD 0 0) h
    rw [length_bytes, Nat.add_comm, Ram.readBlock_eq, addressesFrom_succ, bytes, hrow] at hfirst
    exact hfirst
  have hdecode : Instruction.decode (ram.read r.pc) = some i :=
    Instruction.decode_eq_some_iff.mpr ⟨hi, hopcode.symm⟩
  have heffect : i.effect ram r = line.effect (r, ram) := by
    rw [Instruction.effect, effect, hop, hmode, operand_of_bytes h]
  refine ⟨i.cost ram r, ?_⟩
  rw [Routine.run_step c hdecode, heffect]

/-! ## What a line leaves alone -/

theorem pc_effect (line : Line) (r : Registers) (ram : Ram) :
    (line.effect (r, ram)).1.pc = r.pc + .ofNat line.bytes.length := by
  have hgoes : line.operation.goesOn = true := by cases line <;> rfl
  rw [effect, Operation.pc_effect_of_goesOn hgoes, length_bytes, UInt16.ofNat_add,
    ← UInt16.add_assoc]
  rfl

theorem read_effect {cell : UInt16} (h : cell ∉ line.written) :
    (line.effect (r, ram)).2.read cell = ram.read cell := by
  cases line with
  | register op => rfl
  | read op address => rfl
  | store op address | modify op address =>
    refine Ram.read_write_other ram _ fun hsame => h ?_
    exact List.mem_singleton.mpr hsame.symm

end Line

/-! ## Listings -/

namespace Listing

/-- What the lines do, one after the other. -/
def effects (lines : List Line) (state : Registers × Ram) : Registers × Ram :=
  lines.foldl (fun state line => line.effect state) state

/-- The lines in machine code. -/
def code (lines : List Line) : List UInt8 := lines.flatMap Line.bytes

@[simp] theorem effects_nil (state : Registers × Ram) : effects [] state = state := rfl

@[simp] theorem effects_cons (line : Line) (lines : List Line) (state : Registers × Ram) :
    effects (line :: lines) state = effects lines (line.effect state) := rfl

theorem effects_append (lines others : List Line) (state : Registers × Ram) :
    effects (lines ++ others) state = effects others (effects lines state) :=
  List.foldl_append

@[simp] theorem code_cons (line : Line) (lines : List Line) :
    code (line :: lines) = line.bytes ++ code lines := List.flatMap_cons

theorem length_le_code (lines : List Line) : lines.length ≤ (code lines).length := by
  induction lines with
  | nil => exact Nat.le_refl 0
  | cons line lines ih =>
    have hline := line.length_bytes
    rw [code_cons, List.length_cons, List.length_append]
    omega

/-- Lines leave alone the cells that none of them writes to. -/
theorem read_effects {lines : List Line} {cell : UInt16}
    (h : ∀ line ∈ lines, cell ∉ line.written) (r : Registers) (ram : Ram) :
    (effects lines (r, ram)).2.read cell = ram.read cell := by
  induction lines generalizing r ram with
  | nil => rfl
  | cons line lines ih =>
    obtain ⟨hline, hlines⟩ := List.forall_mem_cons.mp h
    exact (ih hlines _ _).trans (Line.read_effect hline)

/-- The cells that the lines take, from an address on. -/
def codeCells (address : UInt16) (lines : List Line) : List UInt16 :=
  addressesFrom address (code lines).length

/-- A field that is no part of a program with as many lines as it has bytes does not go round more
than once: the program would have no cell left. -/
theorem le_of_disjoint_codeCells {field address : UInt16} {n : Nat} {lines : List Line}
    (hlines : n ≤ lines.length)
    (hapart : (addressesFrom field n).Disjoint (codeCells address lines)) : n ≤ 65536 := by
  cases n with
  | zero => exact Nat.zero_le _
  | succ n =>
    have hmem : field ∈ addressesFrom field (n + 1) := by
      rw [addressesFrom_succ]
      exact List.mem_cons_self
    have hlt := lt_of_not_mem_addressesFrom (hapart hmem)
    have hlength := length_le_code lines
    omega

end Listing

open Listing

/-- The lines are in memory from an address on. -/
def Ram.Holds (ram : Ram) (address : UInt16) (lines : List Line) : Prop :=
  ram.readBlock address (code lines).length = code lines

instance (ram : Ram) (address : UInt16) (lines : List Line) : Decidable (ram.Holds address lines) :=
  inferInstanceAs (Decidable (_ = _))

namespace Ram.Holds

variable {ram later : Ram} {address : UInt16} {line : Line} {lines : List Line}

theorem cons_iff : ram.Holds address (line :: lines)
    ↔ ram.readBlock address line.bytes.length = line.bytes
      ∧ ram.Holds (address + .ofNat line.bytes.length) lines := by
  simp only [Ram.Holds, code_cons, List.length_append, readBlock_eq, addressesFrom_add,
    List.map_append]
  constructor
  · intro h
    exact List.append_inj h (by simp)
  · rintro ⟨hline, hlines⟩
    rw [hline, hlines]

theorem of_agree (h : ram.Holds address lines)
    (hsame : ∀ cell ∈ codeCells address lines, later.read cell = ram.read cell) :
    later.Holds address lines := by
  rw [Ram.Holds, readBlock_eq] at h ⊢
  exact (List.map_congr_left hsame).trans h

end Ram.Holds

namespace Listing

/-- **The processor does the lines** of a program that does not write to itself.

The induction is on the lines: after the first one the program counter is at the second, and the
rest of the program is in memory as it was. -/
theorem steps_listing {lines : List Line} {cpu : Cpu} {ram : Ram} (hon : cpu.isOn = true)
    (hcode : ram.Holds cpu.registers.pc lines)
    (hsafe : ∀ line ∈ lines, line.written.Disjoint (codeCells cpu.registers.pc lines)) :
    ∃ later, Cpu.Steps lines.length (cpu, ram) later ∧
      (later.1.registers, later.2) = effects lines (cpu.registers, ram) := by
  induction lines generalizing cpu ram with
  | nil => exact ⟨(cpu, ram), Cpu.Steps.refl _, rfl⟩
  | cons line lines ih =>
    obtain ⟨r, c, on⟩ := cpu
    obtain rfl : on = true := hon
    obtain ⟨hline, hlines⟩ := Ram.Holds.cons_iff.mp hcode
    obtain ⟨cycles, hstep⟩ := Line.run_step_of_bytes c hline
    have hpc := line.pc_effect r ram
    -- The cells of the program are those of its first line and those of the rest.
    simp only [codeCells, code_cons, List.length_append, addressesFrom_add,
      List.disjoint_append_right, ← hpc] at hsafe hlines
    have hrest : (line.effect (r, ram)).2.Holds (line.effect (r, ram)).1.pc lines := by
      refine hlines.of_agree fun cell hcell => Line.read_effect fun hwritten => ?_
      exact (hsafe line List.mem_cons_self).2 hwritten hcell
    have hsafe' : ∀ other ∈ lines,
        other.written.Disjoint (codeCells (line.effect (r, ram)).1.pc lines) :=
      fun other hother => (hsafe other (List.mem_cons_of_mem line hother)).2
    let next : Cpu := ⟨(line.effect (r, ram)).1, c + .ofNat cycles, true⟩
    have hon : next.isOn = true := rfl
    obtain ⟨later, hsteps, hlater⟩ := ih hon hrest hsafe'
    exact ⟨later, hsteps.cons hstep, hlater⟩

end Listing

end NesMachine
