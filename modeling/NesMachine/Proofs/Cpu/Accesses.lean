import NesMachine.Cpu.Step
import NesMachine.Proofs.Cpu.Addressing

/-!
# `NesMachine/Proofs/Cpu/Accesses.lean` — what an instruction does on the bus

An instruction reads its opcode, what its addressing mode needs, and then does the accesses of its
operation, which are listed by `Operation.dataAccesses`. There are no others: a store does not read
the cell first, and an index that leaves its page costs a cycle and no access.
-/

set_option autoImplicit false

namespace NesMachine

/-! ## The accesses of an operation -/

/-- Bytes stored on the stack with the pointer at `sp`. The pointer goes down, round within the
stack page. -/
def pushes (sp : Nat) : List UInt8 → List Access
  | [] => []
  | byte :: bytes => .write (.ofNat (256 + sp)) byte :: pushes ((sp + 255) % 256) bytes

/-- Bytes read from the stack with the pointer at `sp`, which goes up before each of them. -/
def pops (ram : Ram) (sp : Nat) : Nat → List Access
  | 0 => []
  | count + 1 =>
    ram.seen (.ofNat (256 + (sp + 1) % 256)) :: pops ram ((sp + 1) % 256) count

/-- The bytes of the address that a call and a break push, high byte first: two behind the opcode. -/
def returnBytes (r : Registers) : List UInt8 :=
  let address := (r.pc.toNat + 2) % 65536
  [.ofNat (address / 256), .ofNat (address % 256)]

/-- The accesses that an operation does, given the effective address if the mode has one. `r` are
the registers before the instruction. -/
def Operation.dataAccesses (ram : Ram) (r : Registers) : Operation → Option Nat → List Access
  | read _, some place => [ram.seen (.ofNat place)]
  | store op, some place => [.write (.ofNat place) (op.value r)]
  | modify op, some place =>
    let cell := UInt16.ofNat place
    [ram.seen cell, .write cell (op.result r.p.carry (ram.read cell))]
  | jump .jsr, _ => pushes r.sp.toNat (returnBytes r)
  | jump .rts, _ => pops ram r.sp.toNat 2
  | jump .rti, _ => pops ram r.sp.toNat 3
  | jump .brk, _ =>
    pushes r.sp.toNat (returnBytes r ++ [{ r.p with brk := true }.toByte])
      ++ [ram.seen 0xFFFE, ram.seen 0xFFFF]
  | stack .pha, _ => pushes r.sp.toNat [r.a]
  | stack .php, _ => pushes r.sp.toNat [{ r.p with brk := true }.toByte]
  | stack .pla, _ => pops ram r.sp.toNat 1
  | stack .plp, _ => pops ram r.sp.toNat 1
  | _, _ => []

/-- The modes that an operation has in the table. -/
def Operation.fits : Operation → AddressingMode → Bool
  | read _, mode => mode.inMemory || mode == .immediate
  | store _, mode => mode.inMemory
  | modify _, mode => mode.inMemory || mode == .accumulator
  | branch _, mode => mode == .relative
  | jump .jmp, mode => mode == .absolute || mode == .indirect
  | jump .jsr, mode => mode == .absolute
  | _, mode => mode == .implied

theorem fits_documented : ∀ i ∈ Instruction.documented, i.operation.fits i.mode = true := by
  decide +kernel

/-! ## The stack in numbers and in bytes -/

theorem ofNat_stackCell (p : UInt8) : UInt16.ofNat (256 + p.toNat) = stackCell p := by
  refine UInt16.toNat_inj.mp ?_
  have hlt := p.toNat_lt
  rw [stackCell, toNat_word, UInt16.toNat_ofNat', Nat.mod_eq_of_lt (by omega)]
  exact Nat.add_comm 256 p.toNat

theorem pushes_cons (p byte : UInt8) (bytes : List UInt8) :
    pushes p.toNat (byte :: bytes)
      = .write (stackCell p) byte :: pushes (p - 1).toNat bytes := by
  have hdown : (p.toNat + 255) % 256 = (p - 1).toNat := by
    rw [UInt8.toNat_sub, Nat.add_comm]
    rfl
  rw [pushes, ofNat_stackCell, hdown]

theorem pops_succ (ram : Ram) (p : UInt8) (count : Nat) :
    pops ram p.toNat (count + 1)
      = ram.seen (stackCell (p + 1)) :: pops ram (p + 1).toNat count := by
  rw [pops, toNat_byte_succ, ofNat_stackCell]

theorem returnBytes_eq (r : Registers) :
    returnBytes r = [highByte (r.pc + 1 + 1), lowByte (r.pc + 1 + 1)] := by
  have hhigh (w : UInt16) : UInt8.ofNat (w.toNat / 256) = highByte w := by
    rw [← toNat_highByte, UInt8.ofNat_toNat]
  have hlow (w : UInt16) : UInt8.ofNat (w.toNat % 256) = lowByte w := by
    rw [← toNat_lowByte, UInt8.ofNat_toNat]
  rw [returnBytes, toNat_succ_succ_mod, hhigh, hlow]

theorem read_write_stack (ram : Ram) (p value : UInt8) {address : UInt16}
    (ha : 512 ≤ address.toNat) : (ram.write (stackCell p) value).read address = ram.read address := by
  refine Ram.read_write_other ram value ?_
  rintro rfl
  have hlt := p.toNat_lt
  rw [stackCell, toNat_word] at ha
  have hone : (0x01 : UInt8).toNat = 1 := rfl
  omega

namespace Routine

/-! ## Operations at work -/

section

variable (ram : Ram) (r : Registers) (c : UInt32)

theorem records_operandValue (operand : Operand) :
    ∃ value, (operandValue operand).Records ⟨r, c, true⟩ ram
      (operand.address.toList.map ram.seen) value ⟨r, c, true⟩ ram := by
  cases operand with
  | nothing => exact ⟨0, fun _ => ⟨_, rfl⟩⟩
  | accumulator => exact ⟨r.a, fun _ => ⟨_, rfl⟩⟩
  | value v => exact ⟨v, fun _ => ⟨_, rfl⟩⟩
  | target address => exact ⟨0, fun _ => ⟨_, rfl⟩⟩
  | place address crossed => exact ⟨ram.read address, fun _ => ⟨_, rfl⟩⟩

def fetched (mode : AddressingMode) : Registers :=
  { r with pc := r.pc + 1 + .ofNat mode.operandLength }

theorem exists_place {mode : AddressingMode} (h : mode.inMemory = true) :
    ∃ place crossed, mode.effectiveAddress ram r = some place ∧
      mode.operand ram r = .place (.ofNat place) crossed := by
  rw [← AddressingMode.isSome_effectiveAddress ram r] at h
  obtain ⟨place, hplace⟩ := Option.isSome_iff_exists.mp h
  have haddress := AddressingMode.address_operand ram r mode
  rw [hplace] at haddress
  cases hoperand : mode.operand ram r with
  | place address crossed =>
    rw [hoperand] at haddress
    obtain rfl : address = .ofNat place := Option.some.inj haddress
    exact ⟨place, crossed, hplace, rfl⟩
  | _ =>
    rw [hoperand] at haddress
    exact absurd haddress (by simp [Operand.address])

theorem records_read (op : ReadOp) (mode : AddressingMode) :
    ∃ later, (execute (.read op) (mode.operand ram r)).Records ⟨fetched r mode, c, true⟩ ram
      (Operation.dataAccesses ram r (.read op) (mode.effectiveAddress ram r)) 0 later ram := by
  obtain ⟨value, hvalue⟩ := records_operandValue ram (fetched r mode) c (mode.operand ram r)
  have hdata : Operation.dataAccesses ram r (.read op) (mode.effectiveAddress ram r)
      = (mode.operand ram r).address.toList.map ram.seen ++ [] := by
    rw [AddressingMode.address_operand]
    cases mode.effectiveAddress ram r <;> rfl
  rw [hdata]
  exact ⟨⟨op.apply value (fetched r mode), c, true⟩, hvalue.bind fun _ => ⟨_, rfl⟩⟩

theorem records_store (op : StoreOp) {mode : AddressingMode} (h : mode.inMemory = true) :
    ∃ ram', (execute (.store op) (mode.operand ram r)).Records ⟨fetched r mode, c, true⟩ ram
      (Operation.dataAccesses ram r (.store op) (mode.effectiveAddress ram r)) 0
      ⟨fetched r mode, c, true⟩ ram' := by
  obtain ⟨place, crossed, hplace, hoperand⟩ := exists_place ram r h
  have hvalue : op.value (fetched r mode) = op.value r := by cases op <;> rfl
  rw [hplace, hoperand, Operation.dataAccesses, ← hvalue]
  exact ⟨ram.write (.ofNat place) (op.value (fetched r mode)), fun _ => ⟨_, rfl⟩⟩

theorem records_modify (op : ModifyOp) {mode : AddressingMode}
    (h : mode.inMemory = true ∨ mode = .accumulator) :
    ∃ later ram', (execute (.modify op) (mode.operand ram r)).Records ⟨fetched r mode, c, true⟩
      ram (Operation.dataAccesses ram r (.modify op) (mode.effectiveAddress ram r)) 0 later
      ram' := by
  rcases h with h | rfl
  · obtain ⟨place, crossed, hplace, hoperand⟩ := exists_place ram r h
    let value := ram.read (.ofNat place)
    rw [hplace, hoperand]
    exact ⟨⟨{ fetched r mode with p := op.flags r.p value }, c, true⟩,
      ram.write (.ofNat place) (op.result r.p.carry value), fun _ => ⟨_, rfl⟩⟩
  · exact ⟨⟨{ fetched r .accumulator with
        p := op.flags r.p r.a, a := op.result r.p.carry r.a }, c, true⟩, ram, fun _ => ⟨_, rfl⟩⟩

/-- A branch does not touch the bus, taken or not. -/
theorem records_branch (op : BranchOp) (target : UInt16) :
    ∃ extra later, (execute (.branch op) (.target target)).Records ⟨r, c, true⟩ ram [] extra later
      ram := by
  cases ht : op.taken r.p with
  | true =>
    refine ⟨if highByte r.pc == highByte target then 1 else 2,
      ⟨{ r with pc := target }, c, true⟩, fun seen => ⟨[], ?_⟩⟩
    show Exchange.run ((if op.taken r.p = true then _ else _ : Routine Nat) _) _ = _
    rw [ht]
    rfl
  | false =>
    refine ⟨0, ⟨r, c, true⟩, fun seen => ⟨[], ?_⟩⟩
    show Exchange.run ((if op.taken r.p = true then _ else _ : Routine Nat) _) _ = _
    rw [ht]
    rfl

theorem records_jmp {mode : AddressingMode} (h : mode.inMemory = true) :
    ∃ place later, mode.effectiveAddress ram r = some place ∧
      (execute (.jump .jmp) (mode.operand ram r)).Records ⟨fetched r mode, c, true⟩ ram [] 0 later
        ram ∧ later.registers.pc = .ofNat place := by
  obtain ⟨place, crossed, hplace, hoperand⟩ := exists_place ram r h
  rw [hoperand]
  exact ⟨place, ⟨{ fetched r mode with pc := .ofNat place }, c, true⟩, hplace,
    fun _ => ⟨_, rfl⟩, rfl⟩

theorem records_jsr :
    ∃ place later ram', AddressingMode.absolute.effectiveAddress ram r = some place ∧
      (execute (.jump .jsr) (AddressingMode.absolute.operand ram r)).Records
        ⟨fetched r .absolute, c, true⟩ ram (pushes r.sp.toNat (returnBytes r)) 0 later ram' ∧
      later.registers.pc = .ofNat place := by
  have hmode : AddressingMode.absolute.inMemory = true := rfl
  obtain ⟨place, crossed, hplace, hoperand⟩ := exists_place ram r hmode
  have hreturn : (fetched r .absolute).pc - 1 = r.pc + 1 + 1 := by
    show r.pc + 1 + (1 + 1) - 1 = r.pc + 1 + 1
    rw [← UInt16.add_assoc, UInt16.add_sub_cancel]
  rw [hoperand, returnBytes_eq, ← hreturn, pushes_cons, pushes_cons]
  exact ⟨place, ⟨{ fetched r .absolute with sp := r.sp - 1 - 1, pc := .ofNat place }, c, true⟩,
    (ram.write (stackCell r.sp) (highByte ((fetched r .absolute).pc - 1))).write
      (stackCell (r.sp - 1)) (lowByte ((fetched r .absolute).pc - 1)), hplace,
    fun _ => ⟨_, rfl⟩, rfl⟩

/-- A break reads its vector from the memory that the pushes left, but no push reaches it. -/
theorem records_brk :
    ∃ later ram', (execute (.jump .brk) .nothing).Records ⟨fetched r .implied, c, true⟩ ram
      (pushes r.sp.toNat (returnBytes r ++ [{ r.p with brk := true }.toByte])
        ++ [ram.seen 0xFFFE, ram.seen 0xFFFF]) 0 later ram' := by
  have hreturn : (fetched r .implied).pc + 1 = r.pc + 1 + 1 := by
    show r.pc + 1 + 0 + 1 = r.pc + 1 + 1
    rw [UInt16.add_zero]
  -- `pushed` is the memory that the vector is read from.
  let pc := (fetched r .implied).pc + 1
  let pushed := ((ram.write (stackCell r.sp) (highByte pc)).write
    (stackCell (r.sp - 1)) (lowByte pc)).write
    (stackCell (r.sp - 1 - 1)) { r.p with brk := true }.toByte
  have hvector {address : UInt16} (ha : 512 ≤ address.toNat) :
      ram.seen address = pushed.seen address := by
    rw [Ram.seen, Ram.seen, read_write_stack _ _ _ ha, read_write_stack _ _ _ ha,
      read_write_stack _ _ _ ha]
  rw [returnBytes_eq, ← hreturn, hvector (by decide), hvector (by decide)]
  simp only [List.cons_append, List.nil_append, pushes_cons]
  exact ⟨⟨{ fetched r .implied with
      sp := r.sp - 1 - 1 - 1, pc := word (pushed.read 0xFFFE) (pushed.read 0xFFFF) }, c, true⟩,
    pushed, fun _ => ⟨_, rfl⟩⟩

theorem records_rts :
    ∃ later, (execute (.jump .rts) .nothing).Records ⟨r, c, true⟩ ram (pops ram r.sp.toNat 2) 0
      later ram := by
  let target := word (ram.read (stackCell (r.sp + 1))) (ram.read (stackCell (r.sp + 1 + 1)))
  rw [pops_succ, pops_succ]
  exact ⟨⟨{ r with sp := r.sp + 1 + 1, pc := target + 1 }, c, true⟩, fun _ => ⟨_, rfl⟩⟩

theorem records_rti :
    ∃ later, (execute (.jump .rti) .nothing).Records ⟨r, c, true⟩ ram (pops ram r.sp.toNat 3) 0
      later ram := by
  let target :=
    word (ram.read (stackCell (r.sp + 1 + 1))) (ram.read (stackCell (r.sp + 1 + 1 + 1)))
  let flags := { Status.ofByte (ram.read (stackCell (r.sp + 1))) with brk := false }
  rw [pops_succ, pops_succ, pops_succ]
  exact ⟨⟨{ r with p := flags, sp := r.sp + 1 + 1 + 1, pc := target }, c, true⟩,
    fun _ => ⟨_, rfl⟩⟩

theorem records_stack (op : StackOp) (mode : AddressingMode) :
    ∃ later ram', (execute (.stack op) .nothing).Records ⟨fetched r mode, c, true⟩ ram
      (Operation.dataAccesses ram r (.stack op) none) 0 later ram' := by
  cases op with
  | pha =>
    rw [Operation.dataAccesses, pushes_cons]
    exact ⟨⟨{ fetched r mode with sp := r.sp - 1 }, c, true⟩,
      ram.write (stackCell r.sp) r.a, fun _ => ⟨_, rfl⟩⟩
  | php =>
    rw [Operation.dataAccesses, pushes_cons]
    exact ⟨⟨{ fetched r mode with sp := r.sp - 1 }, c, true⟩,
      ram.write (stackCell r.sp) { r.p with brk := true }.toByte, fun _ => ⟨_, rfl⟩⟩
  | pla =>
    rw [Operation.dataAccesses, pops_succ]
    exact ⟨⟨{ fetched r mode with sp := r.sp + 1 }.setA (ram.read (stackCell (r.sp + 1))), c,
      true⟩, ram, fun _ => ⟨_, rfl⟩⟩
  | plp =>
    rw [Operation.dataAccesses, pops_succ]
    let flags := { Status.ofByte (ram.read (stackCell (r.sp + 1))) with brk := false }
    exact ⟨⟨{ fetched r mode with sp := r.sp + 1, p := flags }, c, true⟩, ram,
      fun _ => ⟨_, rfl⟩⟩

/-- **An operation at work**: in a mode that it has, it succeeds and does its data accesses, and the
two jumps go to the effective address. -/
theorem records_execute {op : Operation} {mode : AddressingMode} (h : op.fits mode = true) :
    ∃ extra later ram', (execute op (mode.operand ram r)).Records ⟨fetched r mode, c, true⟩ ram
        (op.dataAccesses ram r (mode.effectiveAddress ram r)) extra later ram' ∧
      (op = .jump .jmp ∨ op = .jump .jsr →
        ∃ place, mode.effectiveAddress ram r = some place ∧
          later.registers.pc = .ofNat place) := by
  cases op with
  | read op =>
    obtain ⟨later, hrec⟩ := records_read ram r c op mode
    exact ⟨0, later, ram, hrec, by simp⟩
  | store op =>
    obtain ⟨ram', hrec⟩ := records_store ram r c op h
    exact ⟨0, _, ram', hrec, by simp⟩
  | modify op =>
    have hmode : mode.inMemory = true ∨ mode = .accumulator := by
      simpa [Operation.fits] using h
    obtain ⟨later, ram', hrec⟩ := records_modify ram r c op hmode
    exact ⟨0, later, ram', hrec, by simp⟩
  | register op =>
    exact ⟨0, ⟨op.apply (fetched r mode), c, true⟩, ram, fun _ => ⟨_, rfl⟩, by simp⟩
  | branch op =>
    obtain rfl : mode = .relative := by simpa [Operation.fits] using h
    obtain ⟨extra, later, hrec⟩ := records_branch ram (fetched r .relative) c op _
    exact ⟨extra, later, ram, hrec, by simp⟩
  | stack op =>
    obtain rfl : mode = .implied := by simpa [Operation.fits] using h
    obtain ⟨later, ram', hrec⟩ := records_stack ram r c op .implied
    exact ⟨0, later, ram', hrec, by simp⟩
  | jump op =>
    cases op with
    | jmp =>
      have hmode : mode.inMemory = true := by
        have hfit : mode = .absolute ∨ mode = .indirect := by simpa [Operation.fits] using h
        rcases hfit with rfl | rfl <;> rfl
      obtain ⟨place, later, hplace, hrec, hpc⟩ := records_jmp ram r c hmode
      rw [hplace]
      exact ⟨0, later, ram, hrec, fun _ => ⟨place, rfl, hpc⟩⟩
    | jsr =>
      obtain rfl : mode = .absolute := by simpa [Operation.fits] using h
      obtain ⟨place, later, ram', hplace, hrec, hpc⟩ := records_jsr ram r c
      exact ⟨0, later, ram', hrec, fun _ => ⟨place, hplace, hpc⟩⟩
    | rts =>
      obtain rfl : mode = .implied := by simpa [Operation.fits] using h
      obtain ⟨later, hrec⟩ := records_rts ram (fetched r .implied) c
      exact ⟨0, later, ram, hrec, by simp⟩
    | rti =>
      obtain rfl : mode = .implied := by simpa [Operation.fits] using h
      obtain ⟨later, hrec⟩ := records_rti ram (fetched r .implied) c
      exact ⟨0, later, ram, hrec, by simp⟩
    | brk =>
      obtain rfl : mode = .implied := by simpa [Operation.fits] using h
      obtain ⟨later, ram', hrec⟩ := records_brk ram r c
      exact ⟨0, later, ram', hrec, by simp⟩

/-! ## A step at work -/

theorem records_fetchInstruction {i : Instruction}
    (hi : Instruction.decode (ram.read r.pc) = some i) :
    fetchInstruction.Records ⟨r, c, true⟩ ram [ram.seen r.pc] i
      ⟨{ r with pc := r.pc + 1 }, c, true⟩ ram := by
  have hpass : (passOpcode r.pc (ram.read r.pc)).Records ⟨r, c, true⟩ ram [] i
      ⟨{ r with pc := r.pc + 1 }, c, true⟩ ram := by
    rw [passOpcode, hi]
    exact fun _ => ⟨_, rfl⟩
  have hload : (load r.pc).Records ⟨r, c, true⟩ ram [ram.seen r.pc] (ram.read r.pc)
      ⟨r, c, true⟩ ram := fun _ => ⟨_, rfl⟩
  exact hload.bind hpass

theorem records_step {i : Instruction} (hi : Instruction.decode (ram.read r.pc) = some i) :
    ∃ count later ram', step.Records ⟨r, c, true⟩ ram
        (ram.seen r.pc
          :: ((i.mode.operandCells r ++ i.mode.pointerCells ram r).map fun cell =>
              ram.seen (.ofNat cell))
          ++ i.operation.dataAccesses ram r (i.mode.effectiveAddress ram r)) count later ram' ∧
      (i.operation = .jump .jmp ∨ i.operation = .jump .jsr →
        ∃ place, i.mode.effectiveAddress ram r = some place ∧
          later.registers.pc = .ofNat place) := by
  have hfit := fits_documented i (Instruction.decode_eq_some_iff.mp hi).1
  obtain ⟨extra, later, ram', hrec, hjump⟩ := records_execute ram r c hfit
  let count := i.cycles + (i.pageCycle && (i.mode.operand ram r).crossed).toNat + extra
  have hspend : (spend count >>= fun _ => pure count).Records later ram' [] count
      { later with cycles := later.cycles + .ofNat count } ram' := fun _ => ⟨_, rfl⟩
  -- The parts are put together in the order of `step`; spending cycles adds no access.
  let cells := i.mode.operandCells r ++ i.mode.pointerCells ram r
  have hrest : (do
      let operand ← fetchOperand i.mode
      let extra ← execute i.operation operand
      let cycles := i.cycles + (i.pageCycle && operand.crossed).toNat + extra
      spend cycles
      return cycles : Routine Nat).Records ⟨{ r with pc := r.pc + 1 }, c, true⟩ ram
        (cells.map (fun cell => ram.seen (.ofNat cell))
          ++ (i.operation.dataAccesses ram r (i.mode.effectiveAddress ram r) ++ [])) count
        { later with cycles := later.cycles + .ofNat count } ram' :=
    (records_fetchOperand i.mode ram r c).bind (hrec.bind hspend)
  rw [List.append_nil] at hrest
  exact ⟨count, _, ram', (records_fetchInstruction ram r c hi).bind hrest, hjump⟩

end

end Routine

namespace Cpu

/-- **A step does the accesses that its instruction is documented to do, and no others.**

On a bus that refuses nothing, a step whose opcode is documented succeeds, and reads the opcode, the
operand bytes, and the pointer of the mode, and then does the data accesses of the operation, in this
order. The operand is a place in memory in the modes that have an effective address, every store has
one of these modes, and a `JMP` or `JSR` goes on at the effective address. -/
theorem accesses_of_step (cpu : Cpu) (ram : Ram) (i : Instruction) (hon : cpu.isOn = true)
    (hi : Instruction.decode (ram.read cpu.registers.pc) = some i) :
    let r := cpu.registers
    let outcome := Routine.step.run (cpu, Probe.ofRam ram)
    let place := i.mode.effectiveAddress ram r
    (∃ cycles, outcome.result = .ok cycles) ∧
    outcome.state.2.accesses.toList
      = [ram.seen r.pc]
        ++ (i.mode.operandCells r).map (fun cell => ram.seen (.ofNat cell))
        ++ (i.mode.pointerCells ram r).map (fun cell => ram.seen (.ofNat cell))
        ++ i.operation.dataAccesses ram r place ∧
    i.operation.fits i.mode = true ∧ place.isSome = i.mode.inMemory ∧
    (i.operation = .jump .jmp ∨ i.operation = .jump .jsr →
      ∃ a, place = some a ∧ outcome.state.1.registers.pc = .ofNat a) := by
  intro r outcome place
  obtain ⟨_, c, _⟩ := cpu
  obtain rfl : _ = true := hon
  obtain ⟨count, later, ram', hrec, hjump⟩ := Routine.records_step ram r c hi
  obtain ⟨hresult, hcpu, -, haccesses⟩ := hrec.run_ofRam
  refine ⟨⟨count, hresult⟩, ?_, fits_documented i (Instruction.decode_eq_some_iff.mp hi).1,
    AddressingMode.isSome_effectiveAddress ram r i.mode, ?_⟩
  · rw [List.append_assoc [ram.seen r.pc], ← List.map_append]
    exact haccesses
  · intro hop
    obtain ⟨a, hplace, hpc⟩ := hjump hop
    exact ⟨a, hplace, (congrArg (·.registers.pc) hcpu).trans hpc⟩

/-- Memory with the instruction `STA ($FF),Y`, whose pointer goes round within the zero page. -/
def storeRam : Ram := ((Ram.zeros.write 0 0x91).write 1 0xFF).write 0xFF 0x34

def storeCpu : Cpu := ⟨{ Registers.powerOn with a := 7, y := 2 }, 0, true⟩

theorem accesses_of_store :
    storeCpu.isOn = true ∧
    Instruction.decode (storeRam.read storeCpu.registers.pc)
      = some ⟨0x91, .store .sta, .indirectY, 6, false⟩ ∧
    (Routine.step.run (storeCpu, Probe.ofRam storeRam)).state.2.accesses.toList
      = [.read 0x0000 0x91, .read 0x0001 0xFF, .read 0x00FF 0x34, .read 0x0000 0x91,
        .write 0x9136 0x07] := by
  have hi : Instruction.decode (storeRam.read storeCpu.registers.pc)
      = some ⟨0x91, .store .sta, .indirectY, 6, false⟩ := by decide +kernel
  obtain ⟨-, haccesses, -⟩ := accesses_of_step storeCpu storeRam _ rfl hi
  refine ⟨rfl, hi, haccesses.trans ?_⟩
  decide +kernel

end Cpu

end NesMachine
