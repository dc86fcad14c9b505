import NesMachine.Proofs.Console.Stepping

/-!
# `NesMachine/Proofs/Console/Composition.lean` — a run in two parts

The run loop carries its counts and its log along, and so two runs cannot be compared by looking at
the loop. A `stretch` is the same run with nothing carried along: its first instruction, and then,
unless that one stood still, the rest. In this form a run is a power. `proceed` puts two stretches
one after the other, it is associative, and a stretch of `n` instructions is `n` times the stretch
of one. That a stretch of `n + m` is one of `n` and one of `m` is then a law of powers
(`stretch_add`), whatever an instruction does.
-/

set_option autoImplicit false

namespace NesMachine

namespace RunSummary

/-- The summary of two runs, one after the other. -/
def add (first second : RunSummary) : RunSummary :=
  ⟨first.steps + second.steps, first.cycles + second.cycles, second.halted⟩

theorem start_add (summary : RunSummary) : start.add summary = summary := by
  simp [add, start]

theorem add_start {summary : RunSummary} (h : summary.halted = false) :
    summary.add start = summary := by
  obtain ⟨steps, cycles, _⟩ := summary
  cases h
  rfl

theorem add_assoc (first second third : RunSummary) :
    (first.add second).add third = first.add (second.add third) := by
  simp [add, Nat.add_assoc]

end RunSummary

namespace Console

variable {done : RunSummary}

/-! ## Stretches -/

/-- Goes on after `done`, unless that one halted. -/
def resume (done : RunSummary) (rest : Action Console RunSummary) : Action Console RunSummary :=
  if done.halted then return done else return done.add (← rest)

/-- One stretch after another. -/
def proceed (first second : Action Console RunSummary) : Action Console RunSummary := do
  resume (← first) second

/-- A stretch of one instruction. -/
def oneStep (traced : Bool) : Action Console RunSummary := do
  let (cycles, stood) ← runStep traced
  return ⟨1, cycles, stood⟩

/-- A stretch of at most as many instructions as the budget says. -/
def stretch (traced : Bool) : Nat → Action Console RunSummary
  | 0 => pure .start
  | budget + 1 => proceed (oneStep traced) (stretch traced budget)

theorem resume_of_halted (h : done.halted = true) (rest : Action Console RunSummary) :
    resume done rest = pure done := by
  rw [resume, if_pos h]

theorem resume_of_running (h : done.halted = false) (rest : Action Console RunSummary) :
    resume done rest = rest >>= fun more => pure (done.add more) := by
  rw [resume, if_neg (by simp [h])]

theorem start_proceed (rest : Action Console RunSummary) : proceed (pure .start) rest = rest := by
  rw [proceed, pure_bind, resume_of_running rfl]
  simp only [RunSummary.start_add, bind_pure]

/-- Going on twice is going on with both. -/
theorem resume_bind (done : RunSummary) (second third : Action Console RunSummary) :
    (resume done second >>= fun more => resume more third)
      = resume done (proceed second third) := by
  cases hd : done.halted with
  | true =>
    rw [resume_of_halted hd, resume_of_halted hd, pure_bind, resume_of_halted hd]
  | false =>
    rw [resume_of_running hd, resume_of_running hd, proceed, bind_assoc, bind_assoc]
    refine congrArg (second >>= ·) (funext fun more => ?_)
    rw [pure_bind]
    -- The two together have halted exactly if the second one has.
    cases hm : more.halted with
    | true =>
      have hboth : (done.add more).halted = true := hm
      rw [resume_of_halted hm, pure_bind, resume_of_halted hboth]
    | false =>
      have hboth : (done.add more).halted = false := hm
      rw [resume_of_running hm, resume_of_running hboth, bind_assoc]
      simp only [pure_bind, RunSummary.add_assoc]

theorem proceed_assoc (first second third : Action Console RunSummary) :
    proceed (proceed first second) third = proceed first (proceed second third) := by
  rw [proceed, proceed, bind_assoc]
  simp only [resume_bind]
  rfl

/-- **A stretch in two parts.** -/
theorem stretch_add (traced : Bool) (n m : Nat) :
    stretch traced (n + m) = proceed (stretch traced n) (stretch traced m) := by
  induction n with
  | zero => rw [Nat.zero_add, stretch, start_proceed]
  | succ n ih => rw [Nat.succ_add, stretch, stretch, ih, proceed_assoc]

/-! ## The run loop is a stretch -/

theorem stretch_succ (traced : Bool) (budget : Nat) (console : Console) :
    stretch traced (budget + 1) console = (runStep traced console).andThen fun answer =>
      resume ⟨1, answer.1, answer.2⟩ (stretch traced budget) := by
  rw [stretch, proceed, oneStep, bind_assoc]
  rfl

theorem resume_succ (hd : done.halted = false) (traced : Bool) (budget : Nat) (console : Console) :
    resume done (stretch traced (budget + 1)) console
      = (runStep traced console).andThen fun answer =>
          resume ⟨done.steps + 1, done.cycles + answer.1, answer.2⟩ (stretch traced budget) := by
  have hone : resume done (oneStep traced) console
      = (runStep traced console).andThen fun answer later =>
          ⟨.ok ⟨done.steps + 1, done.cycles + answer.1, answer.2⟩, later, []⟩ := by
    rw [resume_of_running hd, oneStep, bind_assoc]
    rfl
  rw [stretch, ← resume_bind, Action.bind_apply, hone]
  exact Outcome.andThen_assoc _ _ _

/-- The loop that has done some instructions already goes on with a stretch of the budget that is
left. -/
theorem runSteps_eq (traced : Bool) (budget : Nat) (hd : done.halted = false)
    (log : Array Log.Entry) (console : Console) :
    runSteps traced budget done log console
      = (resume done (stretch traced budget) console).after log.toList := by
  -- The loop comes back to its head only while nothing has halted, hence the hypothesis `hd`.
  induction budget generalizing done log console with
  | zero =>
    rw [resume_of_running hd, stretch, pure_bind, RunSummary.add_start hd, runSteps,
      Action.pure_apply, Outcome.after, List.append_nil]
  | succ budget ih =>
    rw [runSteps, resume_succ hd]
    generalize runStep traced console = outcome
    obtain ⟨fault | ⟨cycles, stood⟩, later, entries⟩ := outcome
    · simp [Outcome.andThen, Outcome.after]
    · cases stood with
      | true => simp [Outcome.andThen, Outcome.after, resume_of_halted, Action.pure_apply]
      | false =>
        have hlog : (log.appendList entries).toList = log.toList ++ entries :=
          Array.toList_appendList
        refine (ih rfl _ later).trans ?_
        rw [hlog, ← Outcome.after_after]
        rfl

/-- A stretch and the report on it. -/
def reported (outcome : Outcome Console RunSummary) : Outcome Console RunSummary :=
  outcome.andThen fun summary later => ⟨.ok summary, later, [⟨.info, summary.text⟩]⟩

theorem result_reported (outcome : Outcome Console RunSummary) :
    (reported outcome).result = outcome.result := by
  obtain ⟨_ | summary, later, log⟩ := outcome <;> rfl

theorem state_reported (outcome : Outcome Console RunSummary) :
    (reported outcome).state = outcome.state := by
  obtain ⟨_ | summary, later, log⟩ := outcome <;> rfl

variable {console : Console} {mode : RunMode} {listened : Bool} {budget : Nat}

theorem run_eq (hon : console.isOn = true) :
    run mode listened budget console
      = reported (stretch (listened && mode == .debug) budget console) := by
  have hloop (traced : Bool) :
      runSteps traced budget .start #[] console = stretch traced budget console := by
    have hstart : resume .start (stretch traced budget) = stretch traced budget := by
      rw [resume_of_running rfl]
      simp only [RunSummary.start_add, bind_pure]
    rw [runSteps_eq traced budget rfl, hstart]
    rfl
  rw [run, requireOn_bind hon, ← hloop]
  rfl

/-! ## How a stretch ends -/

/-- A stretch that did not halt has used up its budget. -/
theorem ends_stretch (traced : Bool) (budget : Nat) (console : Console) :
    (stretch traced budget console).Ends
      (fun done _ => done.halted = false → done.steps = budget) (fun _ _ => True) := by
  induction budget generalizing console with
  | zero => exact fun _ => rfl
  | succ budget ih =>
    rw [stretch_succ]
    refine (Outcome.ends_andThen _ _).mpr ?_
    generalize runStep traced console = outcome
    obtain ⟨fault | ⟨cycles, stood⟩, later, entries⟩ := outcome
    · trivial
    · rw [Outcome.ends_ok]
      cases stood with
      | true =>
        rw [resume_of_halted rfl]
        intro h
        cases h
      | false =>
        rw [resume_of_running rfl, Action.ends_bind]
        refine (ih later).mono ?_ fun _ _ h => h
        intro more _ h hrunning
        show 1 + more.steps = budget + 1
        rw [h hrunning, Nat.add_comm]

/-- A run keeps the console on, and fails for an opcode only where that opcode is. -/
theorem ends_run_faces (hon : console.isOn = true) (mode : RunMode) (listened : Bool)
    (budget : Nat) :
    (run mode listened budget console).Ends (fun _ later => later.isOn = true)
      (fun fault later => ∀ opcode address, fault = .invalidOpcode opcode address →
        Faces later opcode address) := by
  have hkept (traced : Bool) : KeptByInstruction traced (fun _ _ later => later.isOn = true)
      (fun fault later => ∀ opcode address, fault = .invalidOpcode opcode address →
        Faces later opcode address) := by
    intro left done console hon
    refine ends_runStep ?_ (Outcome.ends_iff.mpr ⟨?_, ?_⟩)
    · rintro _ fault hline opcode address rfl
      obtain ⟨component, hfault⟩ := uninitialized_of_traceLine hline
      cases hfault
    · intro cycles _
      exact (isOn_step console).trans hon
    · rintro fault hf opcode address rfl
      have hfaces := faces_of_step hf
      rw [step_of_faces hfaces]
      exact hfaces
  refine (ends_run hon (hkept _) hon).mono ?_ fun _ _ h => h
  rintro summary later ⟨-, h⟩
  exact h

/-- A run that is given anything to do is refused at once where a step is. -/
theorem run_of_faces {opcode : UInt8} {address : UInt16} (h : Faces console opcode address)
    (mode : RunMode) (listened : Bool) (budget : Nat) :
    ∃ log, run mode listened (budget + 1) console
      = ⟨.error (.invalidOpcode opcode address), console, log⟩ := by
  obtain ⟨log, hstep⟩ := runStep_of_faces h (listened && mode == .debug)
  rw [run_eq h.isOn, stretch_succ, hstep]
  exact ⟨log, rfl⟩

theorem isOn_of_run {done : RunSummary} (h : (run mode listened budget console).result = .ok done) :
    console.isOn = true := by
  cases hon : console.isOn with
  | true => rfl
  | false =>
    rw [run_off hon] at h
    cases h

theorem faces_of_run {opcode : UInt8} {address : UInt16}
    (h : (run mode listened budget console).result = .error (.invalidOpcode opcode address)) :
    Faces (run mode listened budget console).state opcode address := by
  cases hon : console.isOn with
  | false =>
    rw [run_off hon] at h
    cases h
  | true => exact (ends_run_faces hon mode listened budget).of_error h opcode address rfl

/-! ## Runs compose -/

theorem stretch_add_apply (traced : Bool) (n m : Nat) (console : Console) :
    stretch traced (n + m) console
      = (stretch traced n console).andThen fun done => resume done (stretch traced m) := by
  rw [stretch_add]
  rfl

variable {n m : Nat} {done : RunSummary}

/-- A run that failed or halted is not gone on with. -/
theorem run_add_of_final
    (h : ∀ done, (run mode listened n console).result = .ok done → done.halted = true) :
    run mode listened (n + m) console = run mode listened n console := by
  cases hon : console.isOn with
  | false => rw [run_off hon, run_off hon]
  | true =>
    rw [run_eq hon, result_reported] at h
    rw [run_eq hon, run_eq hon, stretch_add_apply]
    generalize stretch _ n console = outcome at h ⊢
    obtain ⟨fault | done, later, log⟩ := outcome
    · rfl
    · show reported ((resume done _ later).after log) = _
      rw [resume_of_halted (h done rfl), Action.pure_apply, Outcome.after, List.append_nil]

/-- A run that stopped for its budget is gone on with. -/
theorem run_add_of_running (h : (run mode listened n console).result = .ok done)
    (hd : done.halted = false) :
    ∃ log, run mode listened (n + m) console
      = reported (((stretch (listened && mode == .debug) m
          (run mode listened n console).state).andThen fun more later =>
            ⟨.ok (done.add more), later, []⟩).after log) := by
  have hon : console.isOn = true := isOn_of_run h
  rw [run_eq hon, result_reported] at h
  rw [run_eq hon, run_eq hon, state_reported, stretch_add_apply]
  generalize stretch _ n console = outcome at h ⊢
  obtain ⟨fault | _, later, log⟩ := outcome
  · cases h
  · cases h
    refine ⟨log, ?_⟩
    show reported ((resume done _ later).after log) = _
    rw [resume_of_running hd]
    rfl

/-- **A run of `n + m` instructions is a run of `n` and a run of `m`.**

If the first part fails or halts, it is the whole. Otherwise it has done its `n` instructions, and
the second part goes on from where it stopped: the whole ends as the second part does, and counts
what both count.

A run that fails for an undocumented opcode stops in front of it: the program counter is the address
of the fault, the opcode is there, and a further step or run, in whatever mode, fails in the same
way and changes nothing. -/
theorem run_composes (mode : RunMode) (listened : Bool) (n m : Nat) (console : Console) :
    let first := run mode listened n console
    let whole := run mode listened (n + m) console
    let second := run mode listened m first.state
    (∀ fault, first.result = .error fault →
      whole.result = .error fault ∧ whole.state = first.state ∧
      ∀ opcode address, fault = .invalidOpcode opcode address →
        first.state.pc = address ∧ first.state.memory.peek address.toNat = .ok opcode ∧
        Instruction.decode opcode = none ∧
        (step first.state).result = .error fault ∧ (step first.state).state = first.state ∧
        ∀ mode' listened' budget, 0 < budget →
          (run mode' listened' budget first.state).result = .error fault ∧
          (run mode' listened' budget first.state).state = first.state) ∧
    (∀ done, first.result = .ok done → done.halted = true →
      whole.result = .ok done ∧ whole.state = first.state) ∧
    (∀ done, first.result = .ok done → done.halted = false →
      done.steps = n ∧ whole.state = second.state ∧
      (∀ fault, second.result = .error fault → whole.result = .error fault) ∧
      ∀ more, second.result = .ok more →
        whole.result = .ok ⟨done.steps + more.steps, done.cycles + more.cycles, more.halted⟩) := by
  intro first whole second
  refine ⟨?_, ?_, ?_⟩
  · intro fault hf
    have hwhole : whole = first := run_add_of_final fun done hok => by
      exact absurd (hf.symm.trans hok) (by simp)
    refine ⟨hwhole ▸ hf, hwhole ▸ rfl, ?_⟩
    rintro opcode address rfl
    have hfaces : Faces first.state opcode address := faces_of_run hf
    refine ⟨hfaces.pc, hfaces.peek, hfaces.undocumented, ?_, ?_, ?_⟩
    · rw [step_of_faces hfaces]
    · rw [step_of_faces hfaces]
    · intro mode' listened' budget hbudget
      obtain ⟨budget, rfl⟩ := Nat.exists_eq_succ_of_ne_zero (Nat.ne_of_gt hbudget)
      obtain ⟨log, hrun⟩ := run_of_faces hfaces mode' listened' budget
      rw [hrun]
      exact ⟨rfl, rfl⟩
  · intro done hok hd
    have hwhole : whole = first := run_add_of_final fun other hother => by
      cases hok.symm.trans hother
      exact hd
    exact ⟨hwhole ▸ hok, hwhole ▸ rfl⟩
  · intro done hok hd
    have hon : console.isOn = true := isOn_of_run hok
    have hlater : first.state.isOn = true := (ends_run_faces hon mode listened n).of_ok hok
    have hsteps : done.steps = n := by
      refine (ends_stretch (listened && mode == .debug) n console).of_ok ?_ hd
      rw [← result_reported, ← run_eq hon]
      exact hok
    obtain ⟨log, hwhole⟩ := run_add_of_running (m := m) hok hd
    have hsecond : second = reported (stretch (listened && mode == .debug) m first.state) :=
      run_eq hlater
    refine ⟨hsteps, ?_⟩
    rw [show whole = _ from hwhole, hsecond]
    generalize stretch (listened && mode == .debug) m first.state = outcome
    obtain ⟨fault | more, later, entries⟩ := outcome
    · refine ⟨rfl, fun _ hf => hf, ?_⟩
      rintro more ⟨⟩
    · refine ⟨rfl, ?_, ?_⟩
      · rintro fault ⟨⟩
      · rintro _ ⟨⟩
        rfl

/-- A console with a program that does nothing once and then stops at an undocumented opcode. -/
def stopConsole : Console :=
  ⟨.on ((Ram.zeros.write 0 0xEA).write 1 0x02), ⟨.powerOn, 0, true⟩, .empty, true⟩

/-- The second instruction is the one that fails, whether the run goes there at once or stops before
it. -/
theorem run_stopConsole :
    (run .normal false 1 stopConsole).result = .ok ⟨1, 2, false⟩ ∧
    (run .normal false 1 (run .normal false 1 stopConsole).state).result
      = .error (.invalidOpcode 0x02 0x0001) ∧
    (run .normal false (1 + 1) stopConsole).result = .error (.invalidOpcode 0x02 0x0001) ∧
    (run .debug true 5 (run .normal false (1 + 1) stopConsole).state).result
      = .error (.invalidOpcode 0x02 0x0001) := by
  have hfirst : (run .normal false 1 stopConsole).result = .ok ⟨1, 2, false⟩ := rfl
  have hsecond : (run .normal false 1 (run .normal false 1 stopConsole).state).result
      = .error (.invalidOpcode 0x02 0x0001) := rfl
  obtain ⟨-, -, hrunning⟩ := run_composes .normal false 1 1 stopConsole
  obtain ⟨-, -, hfails, -⟩ := hrunning _ hfirst rfl
  have hwhole := hfails _ hsecond
  obtain ⟨hstuck, -, -⟩ := run_composes .normal false (1 + 1) 0 stopConsole
  obtain ⟨-, -, hfinal⟩ := hstuck _ hwhole
  obtain ⟨-, -, -, -, -, hruns⟩ := hfinal 0x02 0x0001 rfl
  exact ⟨hfirst, hsecond, hwhole, (hruns .debug true 5 (by decide)).1⟩

end Console

end NesMachine
