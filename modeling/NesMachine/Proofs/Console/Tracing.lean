import NesMachine.Proofs.Console.Composition

/-!
# `NesMachine/Proofs/Console/Tracing.lean` — a debug run is the run that it shows

A debug run makes a line before each instruction, and making a line can be refused. In a console
whose memory is on it never is, and no instruction of the run can change that. So the lines come on
top: a traced stretch is the untraced one with its lines before it in the log (`stretch_traced`).

What the untraced stretch does is said in terms of steps. It attempts a certain number of
instructions and leaves the console that so many steps leave (`attempts_stretch`); all of them
succeed, unless the run fails, and then it is the last one that failed.
-/

set_option autoImplicit false

namespace NesMachine

namespace Console

variable {console : Console} {budget : Nat}

/-! ## The instructions that a run attempts -/

/-- Every one of the first `count` steps succeeds. -/
def Done (console : Console) (count : Nat) : Prop :=
  ∀ i < count, ∃ cycles, (step (afterSteps i console)).result = .ok cycles

theorem done_succ {cycles count : Nat} (h : (step console).result = .ok cycles)
    (hd : Done (step console).state count) : Done console (count + 1) := by
  intro i hi
  cases i with
  | zero => exact ⟨cycles, h⟩
  | succ i => exact hd i (Nat.lt_of_succ_lt_succ hi)

/-- The last of `count` steps leaves the program counter where it was. -/
def Stands (console : Console) (count : Nat) : Prop :=
  ∃ last, count = last + 1 ∧ (afterSteps count console).pc = (afterSteps last console).pc

/-- How many instructions a run attempts. The one that fails is among them. -/
def attempted : Nat → Console → Nat
  | 0, _ => 0
  | budget + 1, console =>
    match (step console).result with
    | .error _ => 1
    | .ok _ =>
      if (step console).state.pc == console.pc then 1
      else attempted budget (step console).state + 1

theorem attempted_le (budget : Nat) (console : Console) : attempted budget console ≤ budget := by
  induction budget generalizing console with
  | zero => exact Nat.le_refl 0
  | succ budget ih =>
    rw [attempted]
    cases (step console).result with
    | error fault => exact Nat.succ_le_succ (Nat.zero_le budget)
    | ok cycles =>
      dsimp only
      split
      · exact Nat.succ_le_succ (Nat.zero_le budget)
      · exact Nat.succ_le_succ (ih _)

/-- The outcome is that of `count` instructions, of which only the last may have failed. -/
structure Attempts (console : Console) (count : Nat) (outcome : Outcome Console RunSummary) :
    Prop where
  state : outcome.state = afterSteps count console
  log : outcome.log = []
  ends : outcome.Ends
    (fun summary _ => summary.steps = count ∧ Done console count ∧
      (summary.halted = true → Stands console count))
    (fun fault _ => ∃ done, count = done + 1 ∧ Done console done ∧
      (step (afterSteps done console)).result = .error fault)

/-- An instruction that moves on is one more, before those that follow it. -/
theorem Attempts.moved {cycles count : Nat} {outcome : Outcome Console RunSummary}
    (hok : (step console).result = .ok cycles)
    (h : Attempts (step console).state count outcome) :
    Attempts console (count + 1) (outcome.andThen fun more later =>
      ⟨.ok (RunSummary.add ⟨1, cycles, false⟩ more), later, []⟩) := by
  obtain ⟨fault | more, later, log⟩ := outcome
  · obtain ⟨hstate, hlog, done, hcount, hd, hf⟩ := h
    exact ⟨hstate, hlog, done + 1, congrArg (· + 1) hcount, done_succ hok hd, hf⟩
  · obtain ⟨hstate, hlog, hsteps, hd, hstands⟩ := h
    refine ⟨hstate, (List.append_nil log).trans hlog, ?_, done_succ hok hd, ?_⟩
    · show 1 + more.steps = count + 1
      rw [hsteps, Nat.add_comm]
    · intro hhalted
      obtain ⟨last, rfl, hpc⟩ := hstands hhalted
      exact ⟨last + 1, rfl, hpc⟩

theorem attempts_stretch (budget : Nat) (console : Console) :
    Attempts console (attempted budget console) (stretch false budget console) := by
  have hnone (console : Console) : Done console 0 := fun i hi => absurd hi (Nat.not_lt_zero i)
  fun_induction attempted budget console with
  | case1 console =>
    refine ⟨rfl, rfl, rfl, hnone console, ?_⟩
    rintro ⟨⟩
  | case2 budget console fault hf =>
    rw [stretch_succ, runStep_of_error hf]
    exact ⟨rfl, rfl, 0, rfl, hnone console, hf⟩
  | case3 budget console cycles hok hstood =>
    rw [stretch_succ, runStep_of_ok hok, hstood]
    exact ⟨rfl, rfl, rfl, done_succ hok (hnone _), fun _ => ⟨0, rfl, beq_iff_eq.mp hstood⟩⟩
  | case4 budget console cycles hok hmoved ih =>
    rw [stretch_succ, runStep_of_ok hok, Bool.eq_false_iff.mpr hmoved]
    exact ih.moved hok

/-! ## Trace lines -/

/-- The lines are those of the console before each of its next steps. -/
def Shows (console : Console) (lines : List String) : Prop :=
  ∀ i line, lines[i]? = some line → (afterSteps i console).traceLine = .ok line

theorem shows_nil (console : Console) : Shows console [] := by
  intro i line h
  cases h

theorem shows_cons {line : String} {lines : List String} (hline : console.traceLine = .ok line)
    (h : Shows (step console).state lines) : Shows console (line :: lines) := by
  intro i other hother
  cases i with
  | zero => cases hother; exact hline
  | succ i => exact h i other hother

theorem stretch_succ_traced {line : String} (hline : console.traceLine = .ok line) :
    stretch true (budget + 1) console = ((runStep false console).andThen fun answer =>
      resume ⟨1, answer.1, answer.2⟩ (stretch true budget)).after [⟨.debug, line⟩] := by
  rw [stretch_succ, runStep_traced hline]
  exact Outcome.andThen_after _ _ _

/-- **Tracing adds lines to the log and does nothing else.** -/
theorem stretch_traced (budget : Nat) (hon : console.isOn = true)
    (hmemory : console.memory.isOn = true) :
    ∃ lines : List String, lines.length = attempted budget console ∧ Shows console lines ∧
      stretch true budget console
        = (stretch false budget console).after (lines.map fun line => ⟨.debug, line⟩) := by
  fun_induction attempted budget console with
  | case1 console => exact ⟨[], rfl, shows_nil console, rfl⟩
  | case2 budget console fault hf =>
    obtain ⟨line, hline⟩ := exists_traceLine hon hmemory
    refine ⟨[line], rfl, shows_cons hline (shows_nil _), ?_⟩
    rw [stretch_succ_traced hline, stretch_succ, runStep_of_error hf]
    rfl
  | case3 budget console cycles hok hstood =>
    obtain ⟨line, hline⟩ := exists_traceLine hon hmemory
    refine ⟨[line], rfl, shows_cons hline (shows_nil _), ?_⟩
    rw [stretch_succ_traced hline, stretch_succ, runStep_of_ok hok, hstood]
    rfl
  | case4 budget console cycles hok hmoved ih =>
    obtain ⟨line, hline⟩ := exists_traceLine hon hmemory
    obtain ⟨lines, hcount, hlines, hrest⟩ :=
      ih ((isOn_step console).trans hon) (memory_step hmemory)
    refine ⟨line :: lines, congrArg (· + 1) hcount, shows_cons hline hlines, ?_⟩
    rw [stretch_succ_traced hline, stretch_succ, runStep_of_ok hok, Bool.eq_false_iff.mpr hmoved]
    show (resume ⟨1, cycles, false⟩ _ (step console).state).after [⟨.debug, line⟩]
      = (resume ⟨1, cycles, false⟩ _ (step console).state).after _
    rw [resume_of_running rfl, resume_of_running rfl, Action.bind_apply, Action.bind_apply, hrest]
    exact (congrArg (Outcome.after [⟨.debug, line⟩]) (Outcome.andThen_after _ _ _)).trans
      (Outcome.after_after _ _ _)

/-! ## The two modes -/

theorem reported_after (earlier : List Log.Entry) (outcome : Outcome Console RunSummary) :
    reported (outcome.after earlier) = (reported outcome).after earlier :=
  Outcome.andThen_after _ _ _

/-- The mode does not matter to what a run does, and what it does is a number of steps. -/
theorem run_eq_untraced (hon : console.isOn = true) (hmemory : console.memory.isOn = true)
    (mode : RunMode) (listened : Bool) (budget : Nat) :
    (run mode listened budget console).result = (stretch false budget console).result ∧
      (run mode listened budget console).state = (stretch false budget console).state := by
  rw [run_eq hon, result_reported, state_reported]
  cases listened && mode == .debug with
  | false => exact ⟨rfl, rfl⟩
  | true =>
    obtain ⟨lines, -, -, htraced⟩ := stretch_traced budget hon hmemory
    rw [htraced]
    exact ⟨rfl, rfl⟩

/-- A run in a coherent console does some instructions, all of which succeed, and then stops. It
returns if its budget is spent or the last instruction stood still, and is refused in front of an
undocumented opcode. -/
theorem Coherent.ends_run_steps (h : Coherent console) (hon : console.isOn = true) (mode : RunMode)
    (listened : Bool) (budget : Nat) :
    (run mode listened budget console).Ends
      (fun _ later => ∃ count ≤ budget, later = afterSteps count console ∧ Done console count
        ∧ (count = budget ∨ Stands console count))
      (fun fault later => (∃ opcode address, fault = .invalidOpcode opcode address
          ∧ Faces later opcode address)
        ∧ ∃ count < budget, later = afterSteps count console ∧ Done console count) := by
  obtain ⟨hresult, hstate⟩ := run_eq_untraced hon (h.memory.trans hon) mode listened budget
  have hle := attempted_le budget console
  obtain ⟨hsteps, -, hends⟩ := attempts_stretch budget console
  refine Outcome.ends_iff.mpr ⟨?_, ?_⟩
  · intro summary hok
    rw [hresult] at hok
    obtain ⟨hcount, hd, hstands⟩ := hends.of_ok hok
    refine ⟨attempted budget console, hle, hstate.trans hsteps, hd, ?_⟩
    cases hhalted : summary.halted with
    | true => exact Or.inr (hstands hhalted)
    | false => exact Or.inl (hcount.symm.trans ((ends_stretch _ _ _).of_ok hok hhalted))
  · intro fault hf
    obtain ⟨⟨opcode, address, rfl⟩, -⟩ := (h.ends_run hon mode listened budget).of_error hf
    obtain ⟨count, hcount, hd, hfails⟩ := hends.of_error (hresult.symm.trans hf)
    rw [hcount] at hle hsteps
    -- The instruction that failed has changed nothing.
    have hlast : afterSteps (count + 1) console = afterSteps count console := by
      rw [afterSteps_succ, step_of_faces (faces_of_step hfails)]
    exact ⟨⟨opcode, address, rfl, faces_of_run hf⟩, count, hle,
      (hstate.trans hsteps).trans hlast, hd⟩

/-- **A debug run is the same run with trace lines.**

In a console that is off, or whose memory is on, a debug run answers what a normal run answers and
leaves the console as that leaves it, whether or not somebody reads the log.

If somebody does, it has logged what the normal run logged, after one line for each instruction that
was attempted: the trace line of the console before it. A run that returns has attempted the
instructions that it counts, which all succeeded, and the normal log is the report on it. A run that
fails has attempted one more than succeeded, and nothing else is in the log. -/
theorem debug_run_adds_lines (listened : Bool) (budget : Nat) (console : Console)
    (h : console.isOn = false ∨ console.memory.isOn = true) :
    let debug := run .debug listened budget console
    let normal := run .normal listened budget console
    (debug.result = normal.result ∧ debug.state = normal.state) ∧
    (listened = true → console.isOn = true → ∃ lines : List String,
      debug.log = (lines.map fun line => ⟨.debug, line⟩) ++ normal.log ∧
      (∀ i line, lines[i]? = some line → (afterSteps i console).traceLine = .ok line) ∧
      normal.state = afterSteps lines.length console ∧
      (∀ summary, normal.result = .ok summary →
        normal.log = [⟨.info, summary.text⟩] ∧ lines.length = summary.steps ∧
        ∀ i < summary.steps, ∃ cycles, (step (afterSteps i console)).result = .ok cycles) ∧
      ∀ fault, normal.result = .error fault →
        normal.log = [] ∧ ∃ done, lines.length = done + 1 ∧
          (∀ i < done, ∃ cycles, (step (afterSteps i console)).result = .ok cycles) ∧
          (step (afterSteps done console)).result = .error fault) := by
  intro debug normal
  have hmemory (hon : console.isOn = true) : console.memory.isOn = true := by
    cases h with
    | inl hoff => exact absurd (hoff.symm.trans hon) (by decide)
    | inr hmemory => exact hmemory
  refine ⟨?_, ?_⟩
  · cases hon : console.isOn with
    | false =>
      have hdebug : debug = ⟨.error (.uninitialized .system), console, []⟩ := run_off hon
      have hnormal : normal = ⟨.error (.uninitialized .system), console, []⟩ := run_off hon
      rw [hdebug, hnormal]
      exact ⟨rfl, rfl⟩
    | true =>
      obtain ⟨hdebug, hdebug'⟩ := run_eq_untraced hon (hmemory hon) .debug listened budget
      obtain ⟨hnormal, hnormal'⟩ := run_eq_untraced hon (hmemory hon) .normal listened budget
      exact ⟨hdebug.trans hnormal.symm, hdebug'.trans hnormal'.symm⟩
  · rintro rfl hon
    have hnormal : normal = reported (stretch false budget console) := run_eq hon
    obtain ⟨lines, hcount, hlines, htraced⟩ := stretch_traced budget hon (hmemory hon)
    have hdebug : debug = normal.after (lines.map fun line => ⟨.debug, line⟩) := by
      rw [hnormal, ← reported_after, ← htraced]
      exact run_eq hon
    have hattempts := attempts_stretch budget console
    rw [← hcount] at hattempts
    obtain ⟨hstate, hlog, hends⟩ := hattempts
    rw [hdebug, hnormal, state_reported, result_reported]
    refine ⟨lines, rfl, hlines, hstate, ?_⟩
    generalize stretch false budget console = outcome at hlog hends ⊢
    obtain ⟨fault | summary, later, log⟩ := outcome
    · refine ⟨?_, ?_⟩
      · rintro summary ⟨⟩
      · rintro _ ⟨⟩
        exact ⟨hlog, hends⟩
    · obtain ⟨hsteps, hd, -⟩ := hends
      cases hlog
      refine ⟨?_, ?_⟩
      · rintro _ ⟨⟩
        refine ⟨rfl, hsteps.symm, ?_⟩
        rw [hsteps]
        exact hd
      · rintro fault ⟨⟩

/-- Two instructions are attempted, and the second one fails. Both have a line. -/
theorem debug_run_stopConsole :
    (stopConsole.isOn = false ∨ stopConsole.memory.isOn = true) ∧
    (run .debug true 5 stopConsole).result = .error (.invalidOpcode 0x02 0x0001) ∧
    ∃ lines : List String, lines.length = 2 ∧
      (run .debug true 5 stopConsole).log = lines.map fun line => ⟨.debug, line⟩ := by
  have h : stopConsole.isOn = false ∨ stopConsole.memory.isOn = true := Or.inr rfl
  have hnormal : (run .normal true 5 stopConsole).result
      = .error (.invalidOpcode 0x02 0x0001) := rfl
  obtain ⟨⟨hresult, -⟩, hlog⟩ := debug_run_adds_lines true 5 stopConsole h
  obtain ⟨lines, hlines, -, -, -, hfails⟩ := hlog rfl rfl
  obtain ⟨hempty, done, hcount, hd, hf⟩ := hfails _ hnormal
  have hfirst : (step (afterSteps 0 stopConsole)).result = .ok 2 := rfl
  have hsecond : (step (afterSteps 1 stopConsole)).result
      = .error (.invalidOpcode 0x02 0x0001) := rfl
  refine ⟨h, hresult.trans hnormal, lines, ?_, ?_⟩
  · match done with
    | 0 => exact absurd (hfirst.symm.trans hf) (by simp)
    | 1 => exact hcount
    | done + 2 =>
      obtain ⟨cycles, hok⟩ := hd 1 (by omega)
      exact absurd (hok.symm.trans hsecond) (by simp)
  · rw [hlines, hempty, List.append_nil]

end Console

end NesMachine
