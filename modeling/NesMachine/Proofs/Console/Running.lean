import NesMachine.Console.Run
import NesMachine.Proofs.Cpu.Clock

/-!
# `NesMachine/Proofs/Console/Running.lean` — the rule of the run loop

A run is a loop, and this file says how to reason about it: choose an invariant `I left done later`
of the budget that is left, the summary so far, and the console; show that an instruction takes it
from one budget to the next; and `ends_run` has it at the end of the run, with whatever budget is
left there. The faults of a run are those of one instruction, so a promise about faults is proved of
one instruction too.

The equations before it say that an operation on a console that is on is its work on the parts.

Two things a run does not get at, whatever the program does: the switch of the console, and what is in
its slot (`leaves_run`).
-/

set_option autoImplicit false

namespace NesMachine

namespace Console

variable {α : Type} {console : Console}

/-! ## A console that is on does the work of its parts -/

theorem requireOn_bind (hon : console.isOn = true) (next : Unit → Action Console α) :
    (requireOn >>= next) console = next () console :=
  Action.require_bind_of_true _ next hon

theorem step_eq (hon : console.isOn = true) : step console = work .step console :=
  requireOn_bind hon _

theorem irq_eq (hon : console.isOn = true) : irq console = work .irq console :=
  requireOn_bind hon _

theorem nmi_eq (hon : console.isOn = true) : nmi console = work .nmi console :=
  requireOn_bind hon _

/-- What the processor's work does to the console is what it does to the processor and the memory;
the rest stays. -/
theorem ends_work {R : α → Console → Prop} {E : Fault → Console → Prop} (routine : Routine α) :
    (work routine console).Ends R E
      ↔ (routine.run (console.cpu, console.memory)).Ends
          (fun value state => R value { console with cpu := state.1, memory := state.2 })
          (fun fault state => E fault { console with cpu := state.1, memory := state.2 }) := by
  obtain ⟨memory, cpu, cartridge, isOn⟩ := console
  exact Outcome.ends_within (routine.run (cpu, memory))
    fun state => (⟨state.2, state.1, cartridge, isOn⟩ : Console)

/-! ## One instruction of a run -/

/-- An instruction of a run ends as the instruction does, unless its trace line is refused. -/
theorem ends_runStep {traced : Bool} {R : Nat × Bool → Console → Prop}
    {E : Fault → Console → Prop}
    (ht : traced = true → ∀ fault, console.traceLine = .error fault → E fault console)
    (hs : (step console).Ends (fun cycles later => R (cycles, later.pc == console.pc) later) E) :
    (runStep traced console).Ends R E := by
  have hrest : ((do
      let before ← Action.ask fun console : Console => .ok console.pc
      let cycles ← step
      let after ← Action.ask fun console : Console => .ok console.pc
      return (cycles, after == before) : Action Console (Nat × Bool)) console).Ends R E := by
    rw [Action.ends_bind, Action.ask_apply, Outcome.ends_ok, Action.ends_bind]
    refine hs.mono ?_ ?_
    · intro cycles later h
      exact h
    · intro fault later h
      exact h
  cases traced with
  | false => exact hrest
  | true =>
    rw [runStep, if_pos rfl, Action.ends_bind, Action.ask_apply]
    cases hline : console.traceLine with
    | ok line =>
      rw [Outcome.ends_ok, Action.ends_bind, Action.log_apply, Outcome.ends_ok]
      exact hrest
    | error fault => exact ht rfl fault hline

/-! ## The loop -/

section

variable {traced : Bool} {I : Nat → RunSummary → Console → Prop} {E : Fault → Console → Prop}

/-- The invariant is kept by every instruction, which uses up one of the budget. -/
def KeptByInstruction (traced : Bool) (I : Nat → RunSummary → Console → Prop)
    (E : Fault → Console → Prop) : Prop :=
  ∀ left done console, I (left + 1) done console →
    (runStep traced console).Ends
      (fun answer later => I left ⟨done.steps + 1, done.cycles + answer.1, answer.2⟩ later) E

theorem ends_runSteps (hkept : KeptByInstruction traced I E) {budget : Nat} {done : RunSummary}
    {log : Array Log.Entry} (h : I budget done console) :
    (runSteps traced budget done log console).Ends
      (fun summary later => ∃ left, I left summary later) E := by
  induction budget generalizing done log console with
  | zero => exact ⟨0, h⟩
  | succ budget ih =>
    have hone := hkept budget done console h
    rw [runSteps]
    generalize runStep traced console = outcome at hone ⊢
    obtain ⟨fault | ⟨cycles, stood⟩, later, entries⟩ := outcome
    · exact hone
    · cases stood with
      | true => exact ⟨budget, hone⟩
      | false => exact ih hone

/-- **The rule of the run loop.** An invariant that holds before the first instruction and is kept by
every instruction holds at the end of the run. -/
theorem ends_run {mode : RunMode} {listened : Bool} {budget : Nat} (hon : console.isOn = true)
    (hkept : KeptByInstruction (listened && mode == .debug) I E)
    (h : I budget .start console) :
    (run mode listened budget console).Ends (fun summary later => ∃ left, I left summary later)
      E := by
  rw [run, requireOn_bind hon]
  exact (Outcome.ends_andThen _ _).mpr (ends_runSteps hkept h)

end

theorem run_off {mode : RunMode} {listened : Bool} {budget : Nat} (hoff : console.isOn = false) :
    run mode listened budget console = ⟨.error (.uninitialized .system), console, []⟩ :=
  Action.require_bind_of_false _ _ hoff

/-! ## What the processor does not get at -/

/-- The switch of the console, and its slot with what is in it. -/
def housing (console : Console) : Bool × Cartridge := (console.isOn, console.cartridge)

theorem housing_eq_iff {isOn : Bool} {cartridge : Cartridge} :
    console.housing = (isOn, cartridge) ↔ console.isOn = isOn ∧ console.cartridge = cartridge := by
  rw [housing, Prod.mk.injEq]

theorem leaves_work (routine : Routine α) : (work routine).Leaves housing := fun _ => rfl

theorem leaves_reset : reset.Leaves housing := by
  refine (Action.leaves_require _ _).bind fun _ => (leaves_work _).bind fun _ => ?_
  exact (Action.leaves_ask _).bind fun _ => Action.leaves_log _ _

theorem leaves_step : step.Leaves housing := (Action.leaves_require _ _).bind fun _ => leaves_work _

theorem leaves_irq : irq.Leaves housing := (Action.leaves_require _ _).bind fun _ => leaves_work _

theorem leaves_nmi : nmi.Leaves housing := (Action.leaves_require _ _).bind fun _ => leaves_work _

theorem leaves_runStep (traced : Bool) : (runStep traced).Leaves housing := by
  have hrest : (runStep false).Leaves housing := by
    refine (Action.leaves_ask _).bind fun _ => leaves_step.bind fun _ => ?_
    exact (Action.leaves_ask _).bind fun _ => Action.leaves_pure _
  cases traced with
  | false => exact hrest
  | true => exact (Action.leaves_ask _).bind fun _ => (Action.leaves_log _ _).bind fun _ => hrest

theorem leaves_runSteps (traced : Bool) (budget : Nat) (done : RunSummary)
    (log : Array Log.Entry) : Action.Leaves housing (runSteps traced budget done log) := by
  intro console
  induction budget generalizing done log console with
  | zero => rfl
  | succ budget ih =>
    have hone := leaves_runStep traced console
    rw [runSteps]
    generalize runStep traced console = outcome at hone ⊢
    obtain ⟨fault | ⟨cycles, stood⟩, later, entries⟩ := outcome
    · exact hone
    · cases stood with
      | true => exact hone
      | false => exact (ih _ _ later).trans hone

theorem leaves_run (mode : RunMode) (listened : Bool) (budget : Nat) :
    (run mode listened budget).Leaves housing := by
  refine (Action.leaves_require _ _).bind fun _ => ?_
  refine Action.Leaves.bind (leaves_runSteps _ _ _ _) fun _ => ?_
  exact (Action.leaves_log _ _).bind fun _ => Action.leaves_pure _

end Console

end NesMachine
