import NesMachine.Proofs.Cpu.Execution
import NesMachine.Proofs.Cpu.Stack

/-!
# `NesMachine/Proofs/Cpu/Interruption.lean` — into a handler and back

A program is interrupted by one of the two signals, or by a break of its own. All three come to the
same: `Interrupted` says what the processor and the memory are then, cell by cell. What tells a break
from a signal is one bit of one pushed byte.

The way back undoes this. It needs to know nothing about the handler but what is left at its end:
the stack pointer is where it was when the handler began, and the three cells above it hold what they
held (`Interrupted.popped`). So the handler may be anything that leaves the processor on.
-/

set_option autoImplicit false

namespace NesMachine

namespace Ram

/-! ## Pushed bytes -/

theorem read_pushed_of_ne (ram : Ram) (sp : UInt8) {bytes : List UInt8} {address : UInt16}
    (h : ∀ i < bytes.length, address ≠ stackCell (sp - .ofNat i)) :
    (ram.pushed sp bytes).read address = ram.read address := by
  induction bytes generalizing ram sp with
  | nil => rfl
  | cons byte bytes ih =>
    rw [pushed, ih]
    · apply read_write_other
      simpa using (h 0 (Nat.succ_pos _)).symm
    · intro i hi
      rw [sub_one_sub_ofNat]
      exact h (i + 1) (Nat.succ_lt_succ hi)

/-- Every byte is in a cell of its own, as long as there are no more than cells. -/
theorem read_pushed (ram : Ram) (sp : UInt8) {bytes : List UInt8} (hfits : bytes.length ≤ 256)
    {i : Nat} {byte : UInt8} (hbyte : bytes[i]? = some byte) :
    (ram.pushed sp bytes).read (stackCell (sp - .ofNat i)) = byte := by
  induction bytes generalizing ram sp i with
  | nil => simp at hbyte
  | cons first bytes ih =>
    rw [List.length_cons] at hfits
    cases i with
    | zero =>
      obtain rfl : first = byte := by simpa using hbyte
      rw [pushed, read_pushed_of_ne]
      · simp
      · intro j hj
        rw [Ne, stackCell_inj, sub_one_sub_ofNat]
        have hcell := add_ofNat_ne (sp - .ofNat (j + 1)) (Nat.succ_pos j) (by omega)
        simpa using hcell
    | succ i =>
      rw [pushed, ← sub_one_sub_ofNat]
      exact ih _ _ (Nat.le_of_succ_le hfits) hbyte

theorem read_pushed_vector (ram : Ram) (sp : UInt8) (bytes : List UInt8) {address : UInt16}
    (h : 512 ≤ address.toNat) : (ram.pushed sp bytes).read address = ram.read address := by
  apply read_pushed_of_ne
  rintro i - rfl
  have hlt := (sp - .ofNat i).toNat_lt
  rw [toNat_stackCell] at h
  omega

end Ram

/-- The cell that the stack pointer means when it has gone `n` down from `sp`, round the page. -/
def stackBelow (sp : UInt8) (n : Nat) : UInt16 := .ofNat (0x100 + (sp.toNat + 256 - n) % 256)

theorem stackBelow_eq (sp : UInt8) {n : Nat} (h : n ≤ 256) :
    stackBelow sp n = stackCell (sp - .ofNat n) := by
  have hnumber : (sp.toNat + 256 - n) % 256 = (sp - .ofNat n).toNat := by
    have hlt := sp.toNat_lt
    rw [UInt8.toNat_sub, UInt8.toNat_ofNat']
    omega
  rw [stackBelow, hnumber, ← ofNat_stackCell]

namespace Cpu

/-! ## The way in -/

/-- `after` is `before` interrupted: `pc` and the flags are on the stack, high byte of the address
first and with the break flag as given, and the processor goes on at the address that the vector
holds. Seven cycles have gone, and nothing else has changed. -/
structure Interrupted (vector : InterruptVector) (pc : UInt16) (brk : Bool)
    (before after : Cpu × Ram) : Prop where
  registers : after.1.registers = { before.1.registers with
    sp := before.1.registers.sp - 3
    pc := word (before.2.read vector.address) (before.2.read (vector.address + 1)) }
  cycles : after.1.cycles = before.1.cycles + 7
  isOn : after.1.isOn = before.1.isOn
  high : after.2.read (stackBelow before.1.registers.sp 0) = highByte pc
  low : after.2.read (stackBelow before.1.registers.sp 1) = lowByte pc
  flags : after.2.read (stackBelow before.1.registers.sp 2)
    = { before.1.registers.p with brk := brk }.toByte
  elsewhere : ∀ address, (∀ n < 3, address ≠ stackBelow before.1.registers.sp n) →
    after.2.read address = before.2.read address

theorem Interrupted.unique {vector : InterruptVector} {pc : UInt16} {brk : Bool}
    {before after other : Cpu × Ram} (h : Interrupted vector pc brk before after)
    (h' : Interrupted vector pc brk before other) : after = other := by
  have hcpu : after.1 = other.1 := by
    have hregisters := h.registers.trans h'.registers.symm
    have hcycles := h.cycles.trans h'.cycles.symm
    have hison := h.isOn.trans h'.isOn.symm
    obtain ⟨⟨r, c, isOn⟩, ram⟩ := after
    obtain ⟨⟨r', c', isOn'⟩, ram'⟩ := other
    cases hregisters
    cases hcycles
    cases hison
    rfl
  apply Prod.ext hcpu
  ext address
  by_cases hcell : ∃ n < 3, address = stackBelow before.1.registers.sp n
  · obtain ⟨n, hn, rfl⟩ := hcell
    match n with
    | 0 => rw [h.high, h'.high]
    | 1 => rw [h.low, h'.low]
    | 2 => rw [h.flags, h'.flags]
  · have hother : ∀ n < 3, address ≠ stackBelow before.1.registers.sp n := by
      intro n hn hsame
      exact hcell ⟨n, hn, hsame⟩
    rw [h.elsewhere address hother, h'.elsewhere address hother]

/-- What an interrupt leaves of the memory. -/
def interruptedRam (ram : Ram) (r : Registers) (pc : UInt16) (brk : Bool) : Ram :=
  ram.pushed r.sp [highByte pc, lowByte pc, { r.p with brk := brk }.toByte]

/-- What an interrupt leaves of the registers, with `ram` as it is when the vector is read. -/
def interruptedRegisters (r : Registers) (vector : InterruptVector) (ram : Ram) : Registers :=
  { r with
    sp := r.sp - 1 - 1 - 1
    pc := word (ram.read vector.address) (ram.read (vector.address + 1)) }

theorem le_address (vector : InterruptVector) :
    512 ≤ vector.address.toNat ∧ 512 ≤ (vector.address + 1).toNat := by
  cases vector <;> decide

/-- The pushes do not reach the vector, so it makes no difference when it is read. -/
theorem interrupted (vector : InterruptVector) (pc : UInt16) (brk : Bool) (r : Registers)
    (c : UInt32) (ram : Ram) :
    let ram' := interruptedRam ram r pc brk
    Interrupted vector pc brk (⟨r, c, true⟩, ram)
      (⟨interruptedRegisters r vector ram', c + 7, true⟩, ram') := by
  intro ram'
  have hcell {i : Nat} {byte : UInt8} (hi : i ≤ 256)
      (h : [highByte pc, lowByte pc, { r.p with brk := brk }.toByte][i]? = some byte) :
      ram'.read (stackBelow r.sp i) = byte := by
    rw [stackBelow_eq r.sp hi]
    exact ram.read_pushed r.sp (Nat.le_of_ble_eq_true rfl) h
  refine ⟨?_, rfl, rfl, hcell (by decide) rfl, hcell (by decide) rfl, hcell (by decide) rfl, ?_⟩
  · have hsp : r.sp - 1 - 1 - 1 = r.sp - 3 := by grind
    obtain ⟨hlow, hhigh⟩ := le_address vector
    simp only [interruptedRegisters, ram', interruptedRam, hsp, Ram.read_pushed_vector _ _ _ hlow,
      Ram.read_pushed_vector _ _ _ hhigh]
  · intro address h
    apply ram.read_pushed_of_ne
    intro i hi
    have hi : i < 3 := hi
    rw [← stackBelow_eq r.sp (by omega)]
    exact h i hi

section

variable (r : Registers) (c : UInt32) (ram : Ram)

theorem run_nmi : ∃ log, Routine.nmi.run (⟨r, c, true⟩, ram)
    = ⟨.ok (), (⟨interruptedRegisters r .nmi (interruptedRam ram r r.pc false), c + 7, true⟩,
        interruptedRam ram r r.pc false), log⟩ := ⟨_, rfl⟩

theorem run_irq (h : r.p.interrupt = true) : ∃ log, Routine.irq.run (⟨r, c, true⟩, ram)
    = ⟨.ok (), (⟨interruptedRegisters r .irq (interruptedRam ram r r.pc false), c + 7, true⟩,
        interruptedRam ram r r.pc false), log⟩ := by
  rw [Routine.run, Routine.irq, Routine.requireOn_bind rfl]
  show ∃ log, Exchange.run ((if r.p.interrupt = true then _ else _ : Routine Unit) _) _ = _
  rw [if_pos h]
  exact ⟨_, rfl⟩

/-- While the flag is clear nothing is asked of the bus, whatever bus it is. -/
theorem run_irq_of_clear (h : r.p.interrupt = false) {bus : Type} [Bus bus] (start : bus) :
    Routine.irq.run (⟨r, c, true⟩, start) = ⟨.ok (), (⟨r, c, true⟩, start), []⟩ := by
  rw [Routine.run, Routine.irq, Routine.requireOn_bind rfl]
  show Exchange.run ((if r.p.interrupt = true then _ else _ : Routine Unit) _) _ = _
  rw [h]
  rfl

theorem run_brk (h : ram.read r.pc = 0x00) : Routine.step.run (⟨r, c, true⟩, ram)
    = ⟨.ok 7, (⟨interruptedRegisters r .irq (interruptedRam ram r (r.pc + 2) true), c + 7, true⟩,
        interruptedRam ram r (r.pc + 2) true), []⟩ := by
  have hi : Instruction.decode (ram.read r.pc) = some ⟨0x00, .jump .brk, .implied, 7, false⟩ := by
    rw [h]
    decide +kernel
  have hpc : r.pc + 1 + 0 + 1 = r.pc + 2 := by grind
  rw [Routine.run_step c hi, ← hpc]
  rfl

end

/-! ## The way back -/

theorem restored_toByte (p : Status) (brk : Bool) :
    Status.restored { p with brk := brk }.toByte = { p with brk := false } := by
  rw [Status.restored, Status.ofByte_toByte]

/-- What the way back makes of the registers. -/
def returnedRegisters (r : Registers) (ram : Ram) : Registers :=
  { r with
    p := .restored (ram.popped r.sp)
    sp := r.sp + 1 + 1 + 1
    pc := ram.poppedWord (r.sp + 1) }

theorem run_returnFromInterrupt (r : Registers) (c : UInt32) (ram : Ram) :
    Routine.returnFromInterrupt.run (⟨r, c, true⟩, ram)
      = ⟨.ok (), (⟨returnedRegisters r ram, c, true⟩, ram), []⟩ := rfl

theorem run_rti (r : Registers) (c : UInt32) (ram : Ram) (h : ram.read r.pc = 0x40) :
    Routine.step.run (⟨r, c, true⟩, ram)
      = ⟨.ok 6, (⟨returnedRegisters r ram, c + 6, true⟩, ram), []⟩ := by
  have hi : Instruction.decode (ram.read r.pc) = some ⟨0x40, .jump .rti, .implied, 6, false⟩ := by
    rw [h]
    decide +kernel
  rw [Routine.run_step c hi]
  rfl

variable {vector : InterruptVector} {pc : UInt16} {brk : Bool} {before after later : Cpu × Ram}

/-- What a handler finds that pops what the interrupt has pushed. -/
theorem Interrupted.popped (h : Interrupted vector pc brk before after)
    (hsp : later.1.registers.sp = after.1.registers.sp)
    (hcells : ∀ n < 3, later.2.read (stackBelow before.1.registers.sp n)
      = after.2.read (stackBelow before.1.registers.sp n)) :
    let sp := later.1.registers.sp
    Status.restored (later.2.popped sp) = { before.1.registers.p with brk := false } ∧
      later.2.poppedWord (sp + 1) = pc ∧ sp + 1 + 1 + 1 = before.1.registers.sp := by
  intro sp
  have hthree : sp = before.1.registers.sp - 3 :=
    hsp.trans (congrArg Registers.sp h.registers)
  have hcell (n : Nat) (hn : n < 3) {p : UInt8} (hp : p = before.1.registers.sp - .ofNat n) :
      later.2.read (stackCell p) = after.2.read (stackBelow before.1.registers.sp n) := by
    rw [← hcells n hn, stackBelow_eq _ (by omega), hp]
  refine ⟨?_, ?_, ?_⟩
  · rw [Ram.popped, hcell 2 (by decide) (by grind), h.flags, restored_toByte]
  · rw [Ram.poppedWord, Ram.popped, Ram.popped, hcell 1 (by decide) (by grind),
      hcell 0 (by decide) (by grind), h.low, h.high, word_lowByte_highByte]
  · grind

/-- **The way back undoes the way in.** Of the registers, the handler's data stay. -/
theorem Interrupted.returned (h : Interrupted vector pc brk before after)
    (hsp : later.1.registers.sp = after.1.registers.sp)
    (hcells : ∀ n < 3, later.2.read (stackBelow before.1.registers.sp n)
      = after.2.read (stackBelow before.1.registers.sp n)) :
    returnedRegisters later.1.registers later.2 = { later.1.registers with
      p := { before.1.registers.p with brk := false }
      sp := before.1.registers.sp
      pc := pc } := by
  obtain ⟨hflags, hpc, hback⟩ := h.popped hsp hcells
  rw [returnedRegisters, hflags, hpc, hback]

/-- **An interrupted program goes on where it was.**

A non-maskable signal, and a maskable one while its flag is set, interrupt the processor at its
program counter; while the flag is clear the maskable one does not, and asks no bus for anything. A
break interrupts the processor too, whatever the flag, with the address two behind it to go back to
and the break flag set in the pushed byte. `Interrupted` says all that there is to say about each of
them: no other state has been left so.

After any of them a handler may do whatever does not switch the processor, steps of any number among
it. If the stack pointer is where it was when the handler began, and the three cells hold what was
pushed, then a return from the interrupt, by the request or by the instruction, brings back the
program counter and the stack pointer, and the flags as they were but for a clear break flag. -/
theorem interrupted_program_resumes (cpu : Cpu) (ram : Ram) (hon : cpu.isOn = true) :
    let r := cpu.registers
    let nmi := Routine.nmi.run (cpu, ram)
    let irq := Routine.irq.run (cpu, ram)
    let step := Routine.step.run (cpu, ram)
    (nmi.result = .ok () ∧
      ∀ after, after = nmi.state ↔ Interrupted .nmi r.pc false (cpu, ram) after) ∧
    (r.p.interrupt = true → irq.result = .ok () ∧
      ∀ after, after = irq.state ↔ Interrupted .irq r.pc false (cpu, ram) after) ∧
    (r.p.interrupt = false → ∀ (bus : Type) [Bus bus] (start : bus),
      Routine.irq.run (cpu, start) = ⟨.ok (), (cpu, start), []⟩) ∧
    (ram.read r.pc = 0x00 → step.result = .ok 7 ∧
      ∀ after, after = step.state ↔ Interrupted .irq (r.pc + 2) true (cpu, ram) after) ∧
    ∀ vector pc brk after, Interrupted vector pc brk (cpu, ram) after →
      ∀ handler : List Request, (∀ request ∈ handler, request.switches = false) →
        let later := afterSeries handler after
        let resumed := { later.1.registers with
          p := { r.p with brk := false }, sp := r.sp, pc := pc }
        later.1.registers.sp = after.1.registers.sp →
        (∀ n < 3, later.2.read (stackBelow r.sp n) = after.2.read (stackBelow r.sp n)) →
        let back := Routine.returnFromInterrupt.run later
        let rti := Routine.step.run later
        (back.result = .ok () ∧ back.state.1.registers = resumed ∧ back.state.2 = later.2) ∧
        (later.2.read later.1.registers.pc = 0x40 →
          rti.result = .ok 6 ∧ rti.state.1.registers = resumed ∧ rti.state.2 = later.2) := by
  obtain ⟨r, c, _⟩ := cpu
  obtain rfl : _ = true := hon
  -- A state that was left by an interrupt is the only one that answers the description.
  have hexact {vector : InterruptVector} {pc : UInt16} {brk : Bool} {left : Cpu × Ram}
      (h : Interrupted vector pc brk (⟨r, c, true⟩, ram) left) (after : Cpu × Ram) :
      after = left ↔ Interrupted vector pc brk (⟨r, c, true⟩, ram) after := by
    constructor
    · rintro rfl
      exact h
    · intro hafter
      exact hafter.unique h
  refine ⟨?_, ?_, ?_, ?_, ?_⟩
  · obtain ⟨log, hrun⟩ := run_nmi r c ram
    rw [hrun]
    exact ⟨rfl, hexact (interrupted .nmi r.pc false r c ram)⟩
  · intro hflag
    obtain ⟨log, hrun⟩ := run_irq r c ram hflag
    rw [hrun]
    exact ⟨rfl, hexact (interrupted .irq r.pc false r c ram)⟩
  · intro hflag bus _ start
    exact run_irq_of_clear r c hflag start
  · intro hopcode
    rw [run_brk r c ram hopcode]
    exact ⟨rfl, hexact (interrupted .irq (r.pc + 2) true r c ram)⟩
  · intro vector pc brk after hafter handler hhandler later resumed hsp hcells back rti
    have hreturned := hafter.returned hsp hcells
    have hison : later.1.isOn = true := (isOn_afterSeries hhandler after).trans hafter.isOn
    obtain ⟨⟨r', c', _⟩, ram'⟩ := later
    obtain rfl : _ = true := hison
    refine ⟨?_, ?_⟩
    · have hrun : back = _ := run_returnFromInterrupt r' c' ram'
      rw [hrun]
      exact ⟨rfl, hreturned, rfl⟩
    · intro hopcode
      have hrun : rti = _ := run_rti r' c' ram' hopcode
      rw [hrun]
      exact ⟨rfl, hreturned, rfl⟩

/-- A processor whose stack pointer has one cell of the page below it. -/
def signalCpu : Cpu := ⟨{ Registers.powerOn with sp := 0x01, pc := 0x1234 }, 0, true⟩

/-- A handler at $0000 that counts in a register and returns. -/
def handlerRam : Ram := (Ram.zeros.write 0x0000 0xE8).write 0x0001 0x40

theorem run_inx {ram : Ram} {r : Registers} (c : UInt32) (h : ram.read r.pc = 0xE8) :
    Request.step.routine.run (⟨r, c, true⟩, ram)
      = ⟨.ok (.cycles 2), (⟨{ r with pc := r.pc + 1 + 0 }.setX (r.x + 1), c + 2, true⟩, ram),
          []⟩ := by
  have hi : Instruction.decode (ram.read r.pc)
      = some ⟨0xE8, .register .inx, .implied, 2, false⟩ := by
    rw [h]
    decide +kernel
  rw [Request.routine, Routine.run_bind, Action.bind_apply, Routine.run_step c hi]
  rfl

/-- The three pushed bytes lie across the end of the page, and the handler does a step of its own
before it returns. -/
theorem signalCpu_resumes :
    signalCpu.isOn = true ∧
    ∃ entered later, entered = (Routine.nmi.run (signalCpu, handlerRam)).state ∧
      later = afterSeries [.step] entered ∧
      (entered.2.read 0x0101 = 0x12 ∧ entered.2.read 0x0100 = 0x34 ∧
        entered.2.read 0x01FF = 0x06) ∧
      later.1.registers.x = 0x01 ∧ later.1.registers.sp = entered.1.registers.sp ∧
      (Routine.step.run later).result = .ok 6 ∧
      (Routine.step.run later).state.1.registers
        = { signalCpu.registers with x := 0x01 } := by
  obtain ⟨⟨-, hnmi⟩, -, -, -, hreturn⟩ :=
    interrupted_program_resumes signalCpu handlerRam rfl
  obtain ⟨entered, hentered⟩ : ∃ entered, entered = (Routine.nmi.run (signalCpu, handlerRam)).state :=
    ⟨_, rfl⟩
  obtain ⟨later, hlater⟩ : ∃ later, later = afterSeries [.step] entered := ⟨_, rfl⟩
  have h := (hnmi entered).mp hentered
  have hback := hreturn _ _ _ entered h [.step] (by simp [Request.switches])
  dsimp only at hback
  rw [← hlater] at hback
  refine ⟨rfl, entered, later, hentered, hlater, ⟨?_, ?_, ?_⟩, ?_⟩
  · rw [show (0x0101 : UInt16) = stackBelow 0x01 0 by decide]
    exact h.high
  · rw [show (0x0100 : UInt16) = stackBelow 0x01 1 by decide]
    exact h.low
  · rw [show (0x01FF : UInt16) = stackBelow 0x01 2 by decide]
    exact h.flags
  · clear hentered
    obtain ⟨⟨r, c, isOn⟩, ram⟩ := entered
    obtain rfl : isOn = true := h.isOn
    have hread {address : UInt16} (ha : ∀ n < 3, address ≠ stackBelow 0x01 n) :
        ram.read address = handlerRam.read address := h.elsewhere address ha
    have hr : r = { Registers.powerOn with sp := 0xFE, pc := 0x0000 } := by
      refine h.registers.trans ?_
      simp [handlerRam, Ram.read_write, InterruptVector.address, signalCpu]
      decide
    subst hr
    have hinx : ram.read 0x0000 = 0xE8 := (hread (by decide)).trans (by decide +kernel)
    have hrti : ram.read 0x0001 = 0x40 := (hread (by decide)).trans (by decide +kernel)
    have hvalue : later
        = (⟨{ Registers.powerOn with sp := 0xFE, pc := 0x0001 }.setX 0x01, c + 2, true⟩, ram) := by
      rw [hlater, afterSeries, run_inx c hinx]
      rfl
    subst hvalue
    obtain ⟨-, hback⟩ := hback rfl (fun _ _ => rfl)
    obtain ⟨hresult, hregisters, -⟩ := hback hrti
    exact ⟨rfl, rfl, hresult, hregisters⟩

end Cpu

end NesMachine
