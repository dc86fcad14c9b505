import NesMachine.Proofs.Console.Coherence
import NesMachine.Proofs.Cpu.Refusal

/-!
# `NesMachine/Proofs/Console/Stepping.lean` — one step, and one step after another

A step touches the processor and the cells of memory. Nothing is switched by it, the slot stays as
it is, and nothing is logged.

Of the ways in which a step can fail, one is final. A console that faces an undocumented opcode is
still there after a step, facing it (`step_of_faces`); and a step that fails for its opcode has
found the console like this (`faces_of_step`). So such a console is stuck, whatever is tried.
-/

set_option autoImplicit false

namespace NesMachine

theorem Memory.read_of_peek {memory : Memory} {address : UInt16} {byte : UInt8}
    (h : memory.peek address.toNat = .ok byte) :
    Bus.read memory address = (.ok byte, memory) := by
  cases memory with
  | off => cases h
  | on ram =>
    rw [peek_on] at h
    cases h
    rfl

namespace Console

variable {α : Type} {console : Console}

/-! ## What a step leaves alone -/

theorem step_off (hoff : console.isOn = false) :
    step console = ⟨.error (.uninitialized .system), console, []⟩ :=
  Action.require_bind_of_false _ _ hoff

/-- Memory that is on is bare memory to the processor. -/
theorem work_on (routine : Routine α) (ram : Ram) (cpu : Cpu) (cartridge : Cartridge)
    (isOn : Bool) :
    work routine ⟨.on ram, cpu, cartridge, isOn⟩
      = (routine.run (cpu, ram)).within fun state =>
        ⟨.on state.2, state.1, cartridge, isOn⟩ := by
  rw [work, Routine.run, Exchange.run_memory]
  rfl

theorem log_step (console : Console) : (step console).log = [] := by
  cases hon : console.isOn with
  | false => rw [step_off hon]
  | true =>
    rw [step_eq hon]
    exact (Routine.quiet_step Memory (console.cpu, console.memory)).1

theorem isOn_step (console : Console) : (step console).state.isOn = console.isOn := by
  cases hon : console.isOn with
  | false => rw [step_off hon, hon]
  | true => rw [step_eq hon]; exact hon

theorem cartridge_step (console : Console) :
    (step console).state.cartridge = console.cartridge := by
  cases hon : console.isOn with
  | false => rw [step_off hon]
  | true => rw [step_eq hon]; rfl

theorem memory_step (h : console.memory.isOn = true) :
    (step console).state.memory.isOn = true := by
  cases hon : console.isOn with
  | false => rw [step_off hon]; exact h
  | true =>
    obtain ⟨memory, cpu, cartridge, isOn⟩ := console
    cases memory with
    | off => cases h
    | on ram =>
      rw [step_eq hon, work_on]
      rfl

/-! ## An instruction of a run -/

theorem exists_traceLine (hon : console.isOn = true) (hmemory : console.memory.isOn = true) :
    ∃ line, console.traceLine = .ok line := by
  obtain ⟨memory, cpu, cartridge, isOn⟩ := console
  cases hon
  cases memory with
  | off => cases hmemory
  | on ram => exact traceLine_on ram cpu cartridge

/-- The one reason not to make a trace line is a part that is off. -/
theorem uninitialized_of_traceLine {fault : Fault} (h : console.traceLine = .error fault) :
    ∃ component, fault = .uninitialized component := by
  cases hon : console.isOn with
  | false =>
    rw [traceLine, if_neg (by simp [hon])] at h
    cases h
    exact ⟨_, rfl⟩
  | true =>
    cases hmemory : console.memory.isOn with
    | true =>
      obtain ⟨line, hline⟩ := exists_traceLine hon hmemory
      exact absurd (hline.symm.trans h) (by simp)
    | false =>
      obtain ⟨memory, cpu, cartridge, isOn⟩ := console
      cases hon
      cases memory with
      | off => cases h; exact ⟨_, rfl⟩
      | on ram => cases hmemory

theorem runStep_untraced (console : Console) :
    runStep false console = (step console).andThen fun cycles later =>
      ⟨.ok (cycles, later.pc == console.pc), later, []⟩ := rfl

theorem runStep_of_error {fault : Fault} (h : (step console).result = .error fault) :
    runStep false console = ⟨.error fault, (step console).state, []⟩ := by
  have hlog := log_step console
  rw [runStep_untraced]
  generalize step console = outcome at h hlog ⊢
  obtain ⟨_, later, _⟩ := outcome
  cases h
  cases hlog
  rfl

theorem runStep_of_ok {cycles : Nat} (h : (step console).result = .ok cycles) :
    runStep false console
      = ⟨.ok (cycles, (step console).state.pc == console.pc), (step console).state, []⟩ := by
  have hlog := log_step console
  rw [runStep_untraced]
  generalize step console = outcome at h hlog ⊢
  obtain ⟨_, later, _⟩ := outcome
  cases h
  cases hlog
  rfl

/-- A trace line that can be made is logged, and makes no other difference. -/
theorem runStep_traced {line : String} (h : console.traceLine = .ok line) :
    runStep true console = (runStep false console).after [⟨.debug, line⟩] := by
  show (Action.ask traceLine >>= fun line => Action.log .debug line >>= fun _ => runStep false)
    console = _
  rw [Action.bind_apply, Action.ask_apply, h]
  rfl

/-! ## One step after another -/

/-- The console after some steps, done or failed. -/
def afterSteps : Nat → Console → Console
  | 0, console => console
  | count + 1, console => afterSteps count (step console).state

theorem afterSteps_succ (count : Nat) (console : Console) :
    afterSteps (count + 1) console = (step (afterSteps count console)).state := by
  induction count generalizing console with
  | zero => rfl
  | succ count ih => exact ih (step console).state

/-- What every step keeps is kept. -/
theorem afterSteps_kept {P : Console → Prop}
    (hstep : ∀ console, P console → P (step console).state) (count : Nat) (h : P console) :
    P (afterSteps count console) := by
  induction count generalizing console with
  | zero => exact h
  | succ count ih => exact ih (hstep console h)

theorem isOn_afterSteps (count : Nat) (console : Console) :
    (afterSteps count console).isOn = console.isOn :=
  afterSteps_kept (P := fun later => later.isOn = console.isOn)
    (fun later h => (isOn_step later).trans h) count rfl

theorem cartridge_afterSteps (count : Nat) (console : Console) :
    (afterSteps count console).cartridge = console.cartridge :=
  afterSteps_kept (P := fun later => later.cartridge = console.cartridge)
    (fun later h => (cartridge_step later).trans h) count rfl

/-! ## An undocumented opcode is final -/

/-- The console is at work and at an undocumented opcode. -/
structure Faces (console : Console) (opcode : UInt8) (address : UInt16) : Prop where
  isOn : console.isOn = true
  cpu : console.cpu.isOn = true
  pc : console.pc = address
  peek : console.memory.peek address.toNat = .ok opcode
  undocumented : Instruction.decode opcode = none

variable {opcode : UInt8} {address : UInt16}

theorem step_of_faces (h : Faces console opcode address) :
    step console = ⟨.error (.invalidOpcode opcode address), console, []⟩ := by
  obtain ⟨hon, hcpu, rfl, hpeek, hd⟩ := h
  obtain ⟨memory, cpu, cartridge, isOn⟩ := console
  rw [step_eq hon, work, Routine.run_step_undocumented hcpu (Memory.read_of_peek hpeek) hd]
  rfl

theorem faces_of_step (h : (step console).result = .error (.invalidOpcode opcode address)) :
    Faces console opcode address := by
  cases hon : console.isOn with
  | false =>
    rw [step_off hon] at h
    cases h
  | true =>
    rw [step_eq hon] at h
    obtain ⟨memory, cpu, cartridge, isOn⟩ := console
    cases hcpu : cpu.isOn with
    | false =>
      rw [work, Routine.run, Routine.step_off hcpu] at h
      cases h
    | true =>
      cases memory with
      | off =>
        obtain ⟨r, cycles, _⟩ := cpu
        obtain rfl : _ = true := hcpu
        cases h
      | on ram =>
        rw [work_on] at h
        cases hd : Instruction.decode (ram.read cpu.registers.pc) with
        | none =>
          rw [Routine.run_step_undocumented hcpu rfl hd] at h
          cases h
          exact ⟨hon, hcpu, rfl, Memory.peek_on ram _, hd⟩
        | some i =>
          obtain ⟨count, hok⟩ := Routine.run_step_documented hcpu hd
          exact absurd (hok.symm.trans h) (by simp)

theorem memory_of_faces (h : Faces console opcode address) : console.memory.isOn = true := by
  have hpeek := h.peek
  cases hm : console.memory with
  | off => rw [hm] at hpeek; cases hpeek
  | on ram => rfl

theorem runStep_of_faces (h : Faces console opcode address) (traced : Bool) :
    ∃ log, runStep traced console = ⟨.error (.invalidOpcode opcode address), console, log⟩ := by
  have hfails : runStep false console = ⟨.error (.invalidOpcode opcode address), console, []⟩ := by
    rw [runStep_untraced, step_of_faces h]
    rfl
  cases traced with
  | false => exact ⟨[], hfails⟩
  | true =>
    obtain ⟨line, hline⟩ := exists_traceLine h.isOn (memory_of_faces h)
    rw [runStep_traced hline, hfails]
    exact ⟨_, rfl⟩

end Console

end NesMachine
