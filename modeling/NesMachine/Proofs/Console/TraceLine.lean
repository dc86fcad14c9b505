import NesMachine.Proofs.Console.Halting
import NesMachine.Proofs.Text.Columns

/-!
# `NesMachine/Proofs/Console/TraceLine.lean` — the line and the step agree

A trace line is made by looking at memory, and a step fetches its instruction byte by byte and moves
the program counter as it goes. Both go by the length of the addressing mode, one as a number and the
other as a count of fetches, and the text of a branch computes its target once more. This file says
that the reader of a trace is told the truth: the bytes that the line shows are the bytes that the
step fetches, question marks mean that it will be refused, and where the text ends in an address to go
to, the step goes there.

The parts of the line always take their columns, since no text of an instruction is wider than its
column.
-/

set_option autoImplicit false

namespace NesMachine

open Text

/-! ## The width of the text -/

theorem Operation.mnemonic_ne_unknown (op : Operation) : op.mnemonic ≠ "???" := by
  cases op with
  | read op | store op | modify op | register op | branch op | jump op | stack op =>
    cases op <;> decide

theorem AddressingMode.length_operandText_le (mode : AddressingMode) {operand : UInt16}
    (address : UInt16) (h : mode.operandLength < 2 → operand.toNat < 256) :
    (mode.operandText operand address).length ≤ 8 := by
  have hlong : (hex 4 operand.toNat).length = 4 := length_hexWord operand
  have hshort (hmode : mode.operandLength < 2) : (hex 2 operand.toNat).length = 2 :=
    length_hex_of_lt (by decide) (h hmode)
  cases mode with
  | implied => exact Nat.zero_le 8
  | accumulator => exact (by decide : " A".length ≤ 8)
  | absolute | absoluteX | absoluteY | indirect =>
    simp only [operandText, String.length_append, hlong]
    decide
  | relative =>
    simp only [operandText, String.length_append, length_hexWord]
    decide
  | _ =>
    simp only [operandText, String.length_append, hshort (Nat.lt_succ_self 1)]
    decide

theorem operandOfBytes_lt {bytes : List UInt8} (h : bytes.length < 3) :
    (operandOfBytes bytes).toNat < 256 := by
  have hzero : (0 : UInt16).toNat < 256 := by decide
  match bytes with
  | [] => exact hzero
  | [_] => exact hzero
  | [_, low] => exact low.toNat_lt

namespace Instruction

variable {i : Instruction} {ram : Ram} {r : Registers}

theorem length_disassemble_le {bytes : List UInt8} (h : bytes.length = i.length)
    (address : UInt16) : (i.disassemble (operandOfBytes bytes) address).length ≤ 12 := by
  have hsmall (hmode : i.mode.operandLength < 2) : (operandOfBytes bytes).toNat < 256 := by
    apply operandOfBytes_lt
    rw [h, length]
    omega
  have htext := i.mode.length_operandText_le address hsmall
  rw [disassemble, mnemonic, String.length_append, Operation.length_mnemonic]
  omega

/-- No instruction looks like an unknown one. -/
theorem padRight_disassemble_ne (i : Instruction) (operand address : UInt16) (width : Nat) :
    padRight width (i.disassemble operand address) ≠ padRight width "???" := by
  intro h
  have hread := congrArg (column 0 3) h
  have hunknown : column 0 3 (padRight width ("???" ++ "")) = "???" := column_padRight rfl
  rw [String.append_empty] at hunknown
  rw [disassemble, mnemonic, column_padRight i.operation.length_mnemonic, hunknown] at hread
  exact i.operation.mnemonic_ne_unknown hread

/-! ## The bytes of an instruction -/

theorem length_le_three (i : Instruction) : i.length ≤ 3 := by
  have hmode := i.mode.operandLength_le_two
  rw [length]
  omega

end Instruction

/-- The opcode and the operand bytes are neighbours. -/
theorem addressesFrom_pc (r : Registers) (mode : AddressingMode) :
    addressesFrom r.pc (1 + mode.operandLength)
      = r.pc :: (mode.operandCells r).map UInt16.ofNat := by
  rw [Nat.add_comm, addressesFrom_succ]
  cases mode with
  | implied | accumulator => rfl
  | absolute | absoluteX | absoluteY | indirect =>
    show _ :: addressesFrom (r.pc + 1) 2 = _
    rw [AddressingMode.operandCells_of_two r rfl, addressesFrom_succ, addressesFrom_succ]
    rfl
  | _ =>
    show _ :: addressesFrom (r.pc + 1) 1 = _
    rw [AddressingMode.operandCells_of_one r rfl, addressesFrom_succ]
    rfl

namespace Ram

/-- The reads of the cells from an address on, going round after the last one. -/
def seenBlock (ram : Ram) (address : UInt16) (count : Nat) : List Access :=
  (addressesFrom address count).map ram.seen

end Ram

namespace Cpu

variable {cpu : Cpu} {ram : Ram}

/-- The accesses of a step that is given memory of its own. -/
def stepAccesses (cpu : Cpu) (ram : Ram) : List Access :=
  (Routine.step.run (cpu, Probe.ofRam ram)).state.2.accesses.toList

theorem stepAccesses_undocumented (hon : cpu.isOn = true)
    (hd : Instruction.decode (ram.read cpu.registers.pc) = none) :
    cpu.stepAccesses ram = ram.seenBlock cpu.registers.pc 1 := by
  have hread : Bus.read (Probe.ofRam ram) cpu.registers.pc
      = (.ok (ram.read cpu.registers.pc),
          (Probe.ofRam ram).record (ram.seen cpu.registers.pc)) := rfl
  rw [stepAccesses, Routine.run_step_undocumented hon hread hd, Ram.seenBlock, addressesFrom_succ]
  rfl

theorem stepAccesses_documented {i : Instruction} (hon : cpu.isOn = true)
    (hd : Instruction.decode (ram.read cpu.registers.pc) = some i) :
    let r := cpu.registers
    cpu.stepAccesses ram = ram.seenBlock r.pc i.length
      ++ ((i.mode.pointerCells ram r).map (fun cell => ram.seen (.ofNat cell))
        ++ i.operation.dataAccesses ram r (i.mode.effectiveAddress ram r)) := by
  intro r
  obtain ⟨_, c, _⟩ := cpu
  obtain rfl : _ = true := hon
  obtain ⟨count, later, ram', hrec, -⟩ := Routine.records_step ram r c hd
  obtain ⟨-, -, -, hrecorded⟩ := hrec.run_ofRam
  refine hrecorded.trans ?_
  rw [Instruction.length, Ram.seenBlock, addressesFrom_pc, List.map_append, List.map_cons,
    List.map_map, List.cons_append, List.append_assoc]
  rfl

end Cpu

/-! ## Where the instruction goes on -/

theorem operandOfBytes_two (ram : Ram) (r : Registers) :
    operandOfBytes (ram.readBlock r.pc 2) = (AddressingMode.byteAfter ram r).toUInt16 := by
  rw [Ram.readBlock_eq, addressesFrom_succ, addressesFrom_succ]
  rfl

theorem operandOfBytes_three (ram : Ram) (r : Registers) :
    operandOfBytes (ram.readBlock r.pc 3) = AddressingMode.wordAfter ram r := by
  rw [Ram.readBlock_eq, addressesFrom_succ, addressesFrom_succ, addressesFrom_succ]
  rfl

namespace Instruction

variable {i : Instruction} {ram : Ram} {r : Registers}

/-- The instruction goes on behind itself: no jump, and no branch that is taken. -/
def passesOn (i : Instruction) (r : Registers) : Bool :=
  match i.operation with
  | .branch op => !op.taken r.p
  | op => op.goesOn

/-- The instruction goes on at the address that its text ends in. -/
def goesWhereWritten (i : Instruction) (r : Registers) : Bool :=
  match i.operation with
  | .branch op => op.taken r.p
  | .jump .jmp => i.mode == .absolute
  | .jump .jsr => true
  | _ => false

theorem pc_effect_of_passesOn (hi : i ∈ documented) (h : i.passesOn r = true) :
    (i.effect ram r).1.pc = r.pc + .ofNat i.length := by
  rw [← pc_fetched]
  rw [passesOn] at h
  cases hop : i.operation with
  | branch op =>
    rw [hop] at h
    have htaken : ¬ op.taken r.p = true := by simpa using h
    rw [effect_branch hi hop, if_neg htaken, mode_of_branch hi hop, fetched_relative]
  | jump op =>
    rw [hop] at h
    cases h
  | read op | store op | modify op | register op | stack op =>
    rw [effect, hop]
    exact Operation.pc_effect_of_goesOn rfl ..

theorem disassemble_absolute (hmode : i.mode = .absolute) (ram : Ram) (r : Registers) :
    i.disassemble (operandOfBytes (ram.readBlock r.pc i.length)) r.pc
      = i.mnemonic ++ " $" ++ hexWord (AddressingMode.wordAfter ram r) := by
  have hlength : i.length = 3 := by rw [length, hmode]; rfl
  have hmark (digits : String) : " " ++ ("$" ++ digits) = " $" ++ digits := by
    rw [← String.append_assoc]
    rfl
  rw [disassemble, hlength, operandOfBytes_three, hmode, String.append_assoc,
    AddressingMode.operandText, hmark]
  rfl

theorem disassemble_relative (hmode : i.mode = .relative) (ram : Ram) (r : Registers) :
    i.disassemble (operandOfBytes (ram.readBlock r.pc i.length)) r.pc
      = i.mnemonic ++ " $" ++ hexWord (.ofNat (AddressingMode.branchTarget ram r)) := by
  have hlength : i.length = 2 := by rw [length, hmode]; rfl
  have hlow : lowByte (AddressingMode.byteAfter ram r).toUInt16
      = AddressingMode.byteAfter ram r := UInt8.toUInt8_toUInt16 _
  have htarget : branchTarget r.pc (AddressingMode.byteAfter ram r)
      = .ofNat (AddressingMode.branchTarget ram r) := by
    have hoperand := AddressingMode.operand_relative ram r
    rw [AddressingMode.operand] at hoperand
    injection hoperand with hoperand
    rw [← hoperand, branchTarget, UInt16.add_assoc r.pc 1 1]
    rfl
  rw [disassemble, hlength, operandOfBytes_two, hmode, String.append_assoc,
    AddressingMode.operandText]
  rw [hlow, htarget]

/-- **The address written is the address taken.** -/
theorem disassemble_of_goesWhereWritten (hi : i ∈ documented)
    (h : i.goesWhereWritten r = true) :
    i.disassemble (operandOfBytes (ram.readBlock r.pc i.length)) r.pc
      = i.mnemonic ++ " $" ++ hexWord (i.effect ram r).1.pc := by
  have hfit := fits_documented i hi
  rw [goesWhereWritten] at h
  cases hop : i.operation with
  | branch op =>
    rw [hop] at h
    have htaken : op.taken r.p = true := h
    rw [disassemble_relative (mode_of_branch hi hop), effect_branch hi hop, if_pos htaken]
  | jump op =>
    rw [hop] at h hfit
    have hmode : i.mode = .absolute ∧ (op = .jmp ∨ op = .jsr) := by
      cases op with
      | jmp => exact ⟨by simpa using h, Or.inl rfl⟩
      | jsr => exact ⟨by simpa [Operation.fits] using hfit, Or.inr rfl⟩
      | _ => cases h
    obtain ⟨hmode, rfl | rfl⟩ := hmode
    · rw [disassemble_absolute hmode, effect, hop, hmode]
      rfl
    · rw [disassemble_absolute hmode, effect, hop, hmode]
      rfl
  | read op | store op | modify op | register op | stack op =>
    rw [hop] at h
    cases h

end Instruction

namespace Console

/-! ## The line by its columns -/

/-- The line has the address, the bytes, the text and the registers where a reader looks for them. -/
structure Spells (line : String) (address : UInt16) (bytes : List UInt8) (text : String)
    (cpu : Cpu) : Prop where
  address : column 0 4 line = hexWord address
  bytes : column 6 8 line = padRight 8 (" ".intercalate (bytes.map hexByte))
  text : column 16 12 line = padRight 12 text
  registers : columnsFrom 30 line = cpu.render

variable {console : Console} {ram : Ram} {bytes : List UInt8} {text : String}

theorem spells_traceLine (hon : console.isOn = true)
    (htext : instructionText console.memory console.pc = .ok (bytes, text))
    (hbytes : bytes.length ≤ 3) (hwidth : text.length ≤ 12) :
    ∃ line, console.traceLine = .ok line ∧ Spells line console.pc bytes text console.cpu := by
  have hgap : "  ".length = 2 := rfl
  have hdigits := length_hexWord console.pc
  have hbytesWidth : (padRight 8 (" ".intercalate (bytes.map hexByte))).length = 8 := by
    apply length_padRight_of_le
    rw [length_hexBytes]
    omega
  have htextWidth : (padRight 12 text).length = 12 := length_padRight_of_le hwidth
  rw [pc] at htext hdigits
  rw [traceLine, if_pos hon]
  dsimp only
  rw [htext, Fault.ok_bind]
  refine ⟨_, rfl, ?_, ?_, ?_, ?_⟩
  · simp only [String.append_assoc]
    exact column_zero hdigits
  · rw [column_of_le, column_of_le, column_of_le, column_of_le, column_append]
    all_goals simp only [String.length_append, hdigits, hgap, hbytesWidth, htextWidth]
    all_goals decide
  · rw [column_of_le, column_of_le, column_append]
    all_goals simp only [String.length_append, hdigits, hgap, hbytesWidth, htextWidth]
    all_goals decide
  · apply columnsFrom_append
    simp only [String.length_append, hdigits, hgap, hbytesWidth, htextWidth]

/-! ## The line and the step -/

/-- **The trace tells what the step does.**

On a console at work, the line shows the address, some bytes, and a text, each in its columns, and
the registers from column 30 on. The bytes are as many cells from the program counter on as the step
fetches there, and the step's accesses begin with them. One byte and question marks are shown exactly
if the step is refused for its opcode.

If the opcode is documented, the bytes are those of the instruction, all accesses after them are for
its pointer and its data, and the step succeeds. It goes on behind the instruction, unless that
branches or jumps; and if it takes a branch, or is a call or an absolute jump, it goes on at the
address that the text ends in. -/
theorem trace_agrees_with_step (console : Console) (ram : Ram) (hon : console.isOn = true)
    (hcpu : console.cpu.isOn = true) (hmemory : console.memory = .on ram) :
    let r := console.cpu.registers
    let stepped := step console
    ∃ line count text rest, console.traceLine = .ok line ∧
      Spells line r.pc (ram.readBlock r.pc count) text console.cpu ∧
      console.cpu.stepAccesses ram = ram.seenBlock r.pc count ++ rest ∧
      (column 16 12 line = padRight 12 "???" ∧ count = 1 ↔
        ∃ opcode address, stepped.result = .error (.invalidOpcode opcode address)) ∧
      (Instruction.decode (ram.read r.pc) = none → count = 1 ∧ rest = []) ∧
      ∀ i, Instruction.decode (ram.read r.pc) = some i →
        count = i.length ∧
        text = i.disassemble (operandOfBytes (ram.readBlock r.pc count)) r.pc ∧
        rest = (i.mode.pointerCells ram r).map (fun cell => ram.seen (.ofNat cell))
          ++ i.operation.dataAccesses ram r (i.mode.effectiveAddress ram r) ∧
        (∃ cycles, stepped.result = .ok cycles) ∧
        (i.passesOn r = true → stepped.state.pc = r.pc + .ofNat i.length) ∧
        (i.goesWhereWritten r = true →
          text = i.mnemonic ++ " $" ++ hexWord stepped.state.pc) := by
  intro r stepped
  cases hd : Instruction.decode (ram.read r.pc) with
  | none =>
    have hpeek : console.memory.peek r.pc.toNat = .ok (ram.read r.pc) := by
      rw [hmemory]
      exact Memory.peek_on ram r.pc
    have hrefused : stepped.result = .error (.invalidOpcode (ram.read r.pc) r.pc) :=
      congrArg Outcome.result (step_of_faces ⟨hon, hcpu, rfl, hpeek, hd⟩)
    have haccesses : console.cpu.stepAccesses ram = ram.seenBlock r.pc 1 ++ [] :=
      (Cpu.stepAccesses_undocumented hcpu hd).trans (List.append_nil _).symm
    have hone : [ram.read r.pc] = ram.readBlock r.pc 1 := by
      rw [Ram.readBlock_eq, addressesFrom_succ]
      rfl
    have htext := instructionText_undocumented ram hd
    rw [← hmemory] at htext
    have hshort : [ram.read r.pc].length ≤ 3 := Nat.le_of_ble_eq_true rfl
    obtain ⟨line, hline, hspells⟩ := spells_traceLine hon htext hshort (by decide)
    rw [hone] at hspells
    refine ⟨line, 1, "???", [], hline, hspells, haccesses, ?_, fun _ => ⟨rfl, rfl⟩, ?_⟩
    · exact ⟨fun _ => ⟨_, _, hrefused⟩, fun _ => ⟨hspells.text, rfl⟩⟩
    · intro i hi
      cases hi
  | some i =>
    have hexecutes : Executes console i ram := ⟨hon, hcpu, hmemory, hd⟩
    have hi := documented_of_executes hexecutes
    have hok : stepped.result = .ok (i.cost ram r) :=
      congrArg Outcome.result (step_of_executes hexecutes)
    have hpc : stepped.state.pc = (i.effect ram r).1.pc :=
      congrArg (fun outcome => outcome.state.pc) (step_of_executes hexecutes)
    have hbytes : (ram.readBlock r.pc i.length).length = i.length := Ram.length_readBlock ..
    have htext := instructionText_documented ram hd
    rw [← hmemory] at htext
    obtain ⟨line, hline, hspells⟩ := spells_traceLine hon htext
      (hbytes.symm ▸ i.length_le_three) (Instruction.length_disassemble_le hbytes r.pc)
    refine ⟨line, i.length, _, _, hline, hspells, Cpu.stepAccesses_documented hcpu hd, ⟨?_, ?_⟩,
      ?_, ?_⟩
    · intro hunknown
      exact absurd (hspells.text.symm.trans hunknown.1) (i.padRight_disassemble_ne _ _ _)
    · intro hrefused
      obtain ⟨opcode, address, hrefused⟩ := hrefused
      exact absurd (hok.symm.trans hrefused) (by simp)
    · intro hnone
      cases hnone
    · intro i' hi'
      cases hi'
      refine ⟨rfl, rfl, rfl, ⟨_, hok⟩, ?_, ?_⟩
      · intro h
        exact hpc.trans (Instruction.pc_effect_of_passesOn hi h)
      · intro h
        rw [hpc]
        exact Instruction.disassemble_of_goesWhereWritten hi h

/-- A branch whose opcode is in the last cell and whose offset is in the first one. -/
def wrappedRam : Ram := (Ram.zeros.write 0xFFFF 0xF0).write 0x0000 0xFD

def wrappedConsole : Console :=
  ⟨.on wrappedRam, ⟨{ Registers.powerOn with pc := 0xFFFF }, 0, true⟩, .empty, true⟩

/-- The branch goes back by three from the cell behind it. -/
theorem trace_of_wrappedBranch :
    (wrappedConsole.isOn = true ∧ wrappedConsole.cpu.isOn = true ∧
      wrappedConsole.memory = .on wrappedRam) ∧
    ∃ line, wrappedConsole.traceLine = .ok line ∧ column 0 4 line = "FFFF" ∧
      column 6 8 line = "F0 FD   " ∧ column 16 12 line = "BEQ $FFFE   " ∧
      hexWord (step wrappedConsole).state.pc = "FFFE" := by
  have hopcode : wrappedRam.read 0xFFFF = 0xF0 := by simp [wrappedRam, Ram.read_write]
  have hoffset : wrappedRam.read 0x0000 = 0xFD := by simp [wrappedRam]
  have hdecodes : Instruction.decode (wrappedRam.read 0xFFFF)
      = some ⟨0xF0, .branch .beq, .relative, 2, false⟩ := by
    rw [hopcode]
    decide +kernel
  have hbytes : wrappedRam.readBlock 0xFFFF 2 = [0xF0, 0xFD] := by
    rw [Ram.readBlock_eq, addressesFrom_succ, List.map_cons, hopcode]
    exact congrArg (fun byte => [0xF0, byte]) hoffset
  obtain ⟨line, count, text, rest, hline, hspells, -, -, -, hstep⟩ :=
    trace_agrees_with_step wrappedConsole wrappedRam rfl rfl rfl
  obtain ⟨rfl, htext, -, -, -, htarget⟩ := hstep _ hdecodes
  have hshown : text = "BEQ $FFFE" := by
    refine htext.trans ?_
    show Instruction.disassemble _ (operandOfBytes (wrappedRam.readBlock 0xFFFF 2)) 0xFFFF = _
    rw [hbytes]
    rfl
  have hwritten : "BEQ $" ++ hexWord (step wrappedConsole).state.pc = "BEQ $FFFE" :=
    (htarget rfl).symm.trans hshown
  refine ⟨⟨rfl, rfl, rfl⟩, line, hline, hspells.address, ?_, ?_, ?_⟩
  · refine hspells.bytes.trans ?_
    show padRight 8 (" ".intercalate ((wrappedRam.readBlock 0xFFFF 2).map hexByte)) = _
    rw [hbytes]
    rfl
  · rw [hspells.text, hshown]
    rfl
  · exact String.append_right_inj _ |>.mp hwritten

end Console

end NesMachine
