import NesMachine.Proofs.Console.Tracing
import NesMachine.Proofs.Cpu.Flow

/-!
# `NesMachine/Proofs/Console/Halting.lean` — what a halt means

A run looks at the program counter before and after each instruction and takes it for halted when
the two are the same. Most of the time that is a program at its end: a jump or a branch on itself,
and from then on the machine can be left running for ever without a register or a cell changing
(`afterSteps_of_loops`).

A call, a return and a break can land on themselves too, and the run cannot tell. They have moved
the stack pointer, so the machine is not where it was (`loops_or_stacks_of_step`), and the next
instruction may well lead elsewhere.
-/

set_option autoImplicit false

namespace NesMachine

namespace Console

variable {console : Console} {i : Instruction} {ram : Ram}

/-! ## The instruction in front of a console -/

/-- The console is at work, with `ram` in its memory, and `i` is the instruction that is next. -/
structure Executes (console : Console) (i : Instruction) (ram : Ram) : Prop where
  isOn : console.isOn = true
  cpu : console.cpu.isOn = true
  memory : console.memory = .on ram
  decodes : Instruction.decode (ram.read console.pc) = some i

/-- A step that succeeds has done a documented instruction. -/
theorem executes_of_step {cycles : Nat} (h : (step console).result = .ok cycles) :
    ∃ i ram, Executes console i ram := by
  cases hon : console.isOn with
  | false =>
    rw [step_off hon] at h
    cases h
  | true =>
    obtain ⟨memory, ⟨r, count, cpuOn⟩, cartridge, isOn⟩ := console
    rw [step_eq hon] at h
    cases cpuOn with
    | false =>
      rw [work, Routine.run, Routine.step_off rfl] at h
      cases h
    | true =>
      cases memory with
      | off => cases h
      | on ram =>
        cases hd : Instruction.decode (ram.read r.pc) with
        | none =>
          rw [work_on, Routine.run_step_undocumented rfl rfl hd] at h
          cases h
        | some i => exact ⟨i, ram, hon, rfl, rfl, hd⟩

/-- **A step does the instruction in front of it.** -/
theorem step_of_executes (h : Executes console i ram) :
    let r := console.cpu.registers
    step console = ⟨.ok (i.cost ram r),
      { console with
        memory := .on (i.effect ram r).2
        cpu := ⟨(i.effect ram r).1, console.cpu.cycles + .ofNat (i.cost ram r), true⟩ }, []⟩ := by
  obtain ⟨memory, ⟨r, count, cpuOn⟩, cartridge, isOn⟩ := console
  obtain ⟨hon, rfl, rfl, hd⟩ := h
  intro
  rw [step_eq hon, work_on, Routine.run_step count hd]
  rfl

theorem documented_of_executes (h : Executes console i ram) : i ∈ Instruction.documented :=
  (Instruction.decode_eq_some_iff.mp h.decodes).1

/-! ## An instruction that loops is the last one -/

theorem step_of_loops (h : Executes console i ram) (hl : i.Loops ram console.cpu.registers) :
    Executes (step console).state i ram ∧
      (step console).state.cpu.registers = console.cpu.registers := by
  have hnone := Instruction.effect_of_loops (documented_of_executes h) hl
  rw [step_of_executes h, hnone]
  exact ⟨⟨h.isOn, rfl, rfl, h.decodes⟩, rfl⟩

/-- **A machine that loops stays where it is**, for as many steps as one likes. -/
theorem afterSteps_of_loops (h : Executes console i ram) (hl : i.Loops ram console.cpu.registers)
    (count : Nat) :
    (afterSteps count console).cpu.registers = console.cpu.registers ∧
      (afterSteps count console).memory = console.memory := by
  have hkept : Executes (afterSteps count console) i ram ∧
      (afterSteps count console).cpu.registers = console.cpu.registers := by
    refine afterSteps_kept (P := fun later => Executes later i ram ∧
      later.cpu.registers = console.cpu.registers) ?_ count ⟨h, rfl⟩
    intro later hlater
    obtain ⟨he, hr⟩ := hlater
    obtain ⟨he', hr'⟩ := step_of_loops he (hr ▸ hl)
    exact ⟨he', hr'.trans hr⟩
  exact ⟨hkept.2, hkept.1.memory.trans h.memory.symm⟩

/-- **A step that comes back to itself** is a loop, or has moved the stack pointer. -/
theorem loops_or_stacks_of_step (h : Executes console i ram)
    (hback : (step console).state.pc = console.pc) :
    let r := console.cpu.registers
    let later := (step console).state
    (i.Loops ram r ∧ later.cpu.registers = r ∧ later.memory = console.memory ∧
        ∀ count, (afterSteps count later).cpu.registers = r ∧
          (afterSteps count later).memory = later.memory) ∨
      ∃ op, op ≠ JumpOp.jmp ∧ i.operation = .jump op ∧
        later.cpu.registers.sp = r.sp + op.stackMove ∧ later.cpu.registers.sp ≠ r.sp := by
  intro r later
  have hi := documented_of_executes h
  have hregisters : later.cpu.registers = (i.effect ram r).1 :=
    congrArg (fun outcome => outcome.state.cpu.registers) (step_of_executes h)
  have hpc : (i.effect ram r).1.pc = r.pc := hregisters ▸ hback
  rcases Instruction.loops_or_stacks hi hpc with hl | ⟨op, hop, hjump⟩
  · obtain ⟨hnext, hsame⟩ := step_of_loops h hl
    have hmemory : later.memory = console.memory := hnext.memory.trans h.memory.symm
    refine Or.inl ⟨hl, hsame, hmemory, ?_⟩
    intro count
    obtain ⟨hr, hm⟩ := afterSteps_of_loops hnext (hsame.symm ▸ hl) count
    exact ⟨hr.trans hsame, hm⟩
  · have hsp : later.cpu.registers.sp = r.sp + op.stackMove :=
      hregisters ▸ Instruction.sp_effect_of_jump hi hjump
    refine Or.inr ⟨op, hop, hjump, hsp, ?_⟩
    intro hsame
    have hzero : op.stackMove = 0 := by simpa using hsp.symm.trans hsame
    exact JumpOp.stackMove_ne_zero hop hzero

/-! ## The last instruction of a run -/

/-- A run is its steps, all of them done, and one that halted has stood still at the last. -/
theorem ends_run_done (hon : console.isOn = true) (mode : RunMode) (listened : Bool)
    (budget : Nat) :
    (run mode listened budget console).Ends
      (fun summary later => later = afterSteps summary.steps console ∧ Done console summary.steps ∧
        (summary.halted = true → Stands console summary.steps)) (fun _ _ => True) := by
  have hkept (traced : Bool) : KeptByInstruction traced
      (fun _ done later => later = afterSteps done.steps console ∧ Done console done.steps ∧
        (done.halted = true → Stands console done.steps)) (fun _ _ => True) := by
    intro left done later h
    obtain ⟨rfl, hdone, -⟩ := h
    refine ends_runStep (fun _ _ _ => trivial) (Outcome.ends_iff.mpr ⟨?_, fun _ _ => trivial⟩)
    intro cycles hok
    refine ⟨(afterSteps_succ done.steps console).symm, ?_, ?_⟩
    · intro n hn
      rcases Nat.lt_succ_iff_lt_or_eq.mp hn with hlt | rfl
      · exact hdone n hlt
      · exact ⟨cycles, hok⟩
    · intro hstood
      refine ⟨done.steps, rfl, ?_⟩
      rw [afterSteps_succ]
      exact beq_iff_eq.mp hstood
  have hstart : Done console 0 := fun n hn => absurd hn (Nat.not_lt_zero n)
  refine (ends_run hon (hkept _) ⟨rfl, hstart, ?_⟩).mono ?_ fun _ _ h => h
  · intro h
    cases h
  · intro summary later h
    obtain ⟨-, h⟩ := h
    exact h

/-- **A run that halts has come back to the address of its last instruction.**

If that is a `JMP` or a branch that was taken, it is the end: no number of further steps changes a
register or a cell. Otherwise it is a call, a return or a break, and then the stack pointer is not
where it was. -/
theorem halted_run_loops_or_stacks (mode : RunMode) (listened : Bool) (budget : Nat)
    (console : Console) (summary : RunSummary)
    (hok : (run mode listened budget console).result = .ok summary)
    (hhalted : summary.halted = true) :
    let later := (run mode listened budget console).state
    ∃ last ram i, summary.steps = last + 1 ∧
      let before := afterSteps last console
      let r := before.cpu.registers
      before.memory = .on ram ∧ Instruction.decode (ram.read r.pc) = some i ∧
      (step before).state = later ∧ later.pc = r.pc ∧
      ((i.Loops ram r ∧ later.cpu.registers = r ∧ later.memory = before.memory ∧
          ∀ count, (afterSteps count later).cpu.registers = r ∧
            (afterSteps count later).memory = later.memory) ∨
        ∃ op, op ≠ JumpOp.jmp ∧ i.operation = .jump op ∧
          later.cpu.registers.sp = r.sp + op.stackMove ∧ later.cpu.registers.sp ≠ r.sp) := by
  intro later
  have hon : console.isOn = true := isOn_of_run hok
  obtain ⟨hlater, hdone, hstands⟩ := (ends_run_done hon mode listened budget).of_ok hok
  obtain ⟨last, hsteps, hback⟩ := hstands hhalted
  rw [hsteps] at hdone hlater
  obtain ⟨cycles, hcycles⟩ := hdone last (Nat.lt_succ_self last)
  obtain ⟨i, ram, hexec⟩ := executes_of_step hcycles
  have hstate : (step (afterSteps last console)).state = later :=
    (afterSteps_succ last console).symm.trans hlater.symm
  have hpc : (step (afterSteps last console)).state.pc = (afterSteps last console).pc := by
    rw [← afterSteps_succ, ← hsteps]
    exact hback
  have hends := loops_or_stacks_of_step hexec hpc
  rw [hstate] at hpc hends
  exact ⟨last, ram, i, hsteps, hexec.memory, hexec.decodes, hstate, hpc, hends⟩

/-- A branch on itself whose two bytes are in two pages. It is taken while the zero flag is set,
which it is at power-on. -/
def branchConsole : Console :=
  ⟨.on (((Ram.zeros.write 0x00FE 0xEA).write 0x00FF 0xF0).write 0x0100 0xFE),
    ⟨{ Registers.powerOn with pc := 0x00FE }, 0, true⟩, .empty, true⟩

set_option maxRecDepth 4000 in
theorem halted_branch_stays :
    (run .normal false 5 branchConsole).result = .ok ⟨2, 6, true⟩ ∧
    ∀ count, (afterSteps count (run .normal false 5 branchConsole).state).pc = 0x00FF := by
  have hok : (run .normal false 5 branchConsole).result = .ok ⟨2, 6, true⟩ := rfl
  obtain ⟨last, ram, i, hsteps, hmemory, hdecode, -, -, hends⟩ :=
    halted_run_loops_or_stacks .normal false 5 branchConsole _ hok rfl
  obtain rfl : last = 1 := by simpa using hsteps.symm
  refine ⟨hok, fun count => ?_⟩
  rcases hends with ⟨-, -, -, hstays⟩ | ⟨op, -, hjump, -⟩
  · exact congrArg Registers.pc (hstays count).1
  · obtain rfl := Memory.on.inj hmemory
    have hbranch : Instruction.decode 0xF0 = some ⟨0xF0, .branch .beq, .relative, 2, false⟩ := by
      decide +kernel
    cases hbranch.symm.trans hdecode
    cases hjump

/-- A return at $0001, and two addresses on the stack: $0000, and $0010 for the next return. -/
def returnRam : Ram := (Ram.zeros.write 0x0001 0x60).write 0x0102 0x10

def returnConsole : Console :=
  ⟨.on returnRam, ⟨{ Registers.powerOn with pc := 0x0001 }, 0, true⟩, .empty, true⟩

set_option maxRecDepth 4000 in
/-- **A halt need not be the end.** The run halts at the return, which has come back to itself, and
the next step leads away from it. -/
theorem halted_return_goes_on :
    Instruction.decode (returnRam.read returnConsole.pc)
      = some ⟨0x60, .jump .rts, .implied, 6, false⟩ ∧
    (run .normal false 5 returnConsole).result = .ok ⟨1, 6, true⟩ ∧
    (run .normal false 5 returnConsole).state.pc = 0x0001 ∧
    (afterSteps 1 (run .normal false 5 returnConsole).state).pc = 0x0011 := by
  have hdecode : Instruction.decode (returnRam.read returnConsole.pc)
      = some ⟨0x60, .jump .rts, .implied, 6, false⟩ := by
    decide +kernel
  exact ⟨hdecode, rfl, rfl, rfl⟩

end Console

end NesMachine
