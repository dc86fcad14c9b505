import Mathlib.Algebra.GroupWithZero.Nat
import NesMachine.Proofs.Cpu.History

/-!
# `NesMachine/Proofs/Cpu/Series.lean` — requests one after the other on one bus

In a history every call brings a bus of its own. In a series there is one bus throughout, and each
request finds the processor and the bus as the one before it has left them, granted or refused. This
is what a program sees that stays at work on its own memory.

A program at work and not disturbed is a series of steps. `Steps` says of such a series that none of
them is refused, and where they lead. `Reaches` says besides that the series gets to a place at its end
and not before, and what it takes to get there.
-/

set_option autoImplicit false

namespace NesMachine

namespace Cpu

variable {bus : Type} [Bus bus]

/-- What the requests of a series come to, in order. A refusal does not end the series. -/
def results : List Request → Cpu × bus → List (Except Fault Answer)
  | [], _ => []
  | request :: requests, state =>
    (request.routine.run state).result :: results requests (request.routine.run state).state

def afterSeries : List Request → Cpu × bus → Cpu × bus
  | [], state => state
  | request :: requests, state => afterSeries requests (request.routine.run state).state

/-- What every request of a series keeps is kept by the series. -/
theorem afterSeries_kept {P : Cpu × bus → Prop} {requests : List Request} {state : Cpu × bus}
    (hkept : ∀ request ∈ requests, ∀ state, P state → P (request.routine.run state).state)
    (h : P state) : P (afterSeries requests state) := by
  induction requests generalizing state with
  | nil => exact h
  | cons request requests ih =>
    apply ih
    · intro other hother
      exact hkept other (List.mem_cons_of_mem request hother)
    · exact hkept request List.mem_cons_self state h

theorem isOn_afterSeries {requests : List Request}
    (hs : ∀ request ∈ requests, request.switches = false) (state : Cpu × bus) :
    (afterSeries requests state).1.isOn = state.1.isOn := by
  apply afterSeries_kept (P := fun later => later.1.isOn = state.1.isOn)
  · intro request hrequest later hlater
    have hcall : (⟨request, later.2⟩ : Call bus).request.switches = false := hs request hrequest
    exact (isOn_event hcall later.1).trans hlater
  · rfl

/-- A step that is asked for is a step. -/
theorem run_request_step {start state : Cpu × bus} {cycles : Nat} {log : List Log.Entry}
    (h : Routine.step.run start = ⟨.ok cycles, state, log⟩) :
    Request.step.routine.run start = ⟨.ok (.cycles cycles), state, log ++ []⟩ := by
  rw [Request.routine, Routine.run_bind, Action.bind_apply, h]
  rfl

/-- So many steps in a row succeed, and lead from one state to the other. -/
structure Steps (count : Nat) (start later : Cpu × bus) : Prop where
  succeed : ∀ result ∈ results (List.replicate count .step) start,
    ∃ cycles, result = .ok (.cycles cycles)
  reach : afterSeries (List.replicate count .step) start = later

namespace Steps

variable {count : Nat} {start state later : Cpu × bus}

theorem refl (state : Cpu × bus) : Steps 0 state state :=
  ⟨fun _ h => absurd h List.not_mem_nil, rfl⟩

/-- A step that succeeds, and more steps from where it leads. -/
theorem cons {cycles : Nat} {log : List Log.Entry}
    (h : Routine.step.run start = ⟨.ok cycles, state, log⟩) (hrest : Steps count state later) :
    Steps (count + 1) start later := by
  have hrequest := run_request_step h
  refine ⟨?_, ?_⟩
  · intro result hresult
    rw [List.replicate_succ, results, hrequest] at hresult
    rcases List.mem_cons.mp hresult with rfl | hlater
    · exact ⟨cycles, rfl⟩
    · exact hrest.succeed result hlater
  · rw [List.replicate_succ, afterSeries, hrequest]
    exact hrest.reach

end Steps

/-- The steps from one state to the other succeed, and the last one is the first that leaves the program
counter at `exit`: how many they are, and how many cycles they take together. -/
inductive Reaches (exit : UInt16) : (count cycles : Nat) → (start later : Cpu × bus) → Prop
  | arrived {state : Cpu × bus} (h : state.1.registers.pc = exit) : Reaches exit 0 0 state state
  | step {count cycles rest : Nat} {start state later : Cpu × bus} {log : List Log.Entry}
      (hpc : start.1.registers.pc ≠ exit)
      (h : Routine.step.run start = ⟨.ok cycles, state, log⟩)
      (hrest : Reaches exit count rest state later) :
      Reaches exit (count + 1) (cycles + rest) start later

namespace Reaches

variable {exit : UInt16} {count cycles : Nat} {start later : Cpu × bus}

theorem steps (h : Reaches exit count cycles start later) : Steps count start later := by
  induction h with
  | arrived => exact Steps.refl _
  | step _ h _ ih => exact ih.cons h

/-- Before the last step the program counter is elsewhere. -/
theorem pc_ne (h : Reaches exit count cycles start later) {n : Nat} (hn : n < count) :
    (afterSeries (List.replicate n .step) start).1.registers.pc ≠ exit := by
  induction h generalizing n with
  | arrived => exact absurd hn (Nat.not_lt_zero n)
  | step hpc h _ ih =>
    cases n with
    | zero => exact hpc
    | succ n =>
      rw [List.replicate_succ, afterSeries, run_request_step h]
      exact ih (Nat.lt_of_succ_lt_succ hn)

/-- The cycles are those that the steps answer with. -/
theorem exists_costs (h : Reaches exit count cycles start later) : ∃ costs : List Nat,
    results (List.replicate count .step) start = costs.map (fun cost => .ok (.cycles cost)) ∧
      costs.sum = cycles := by
  induction h with
  | arrived => exact ⟨[], rfl, rfl⟩
  | step _ h _ ih =>
    obtain ⟨costs, hresults, hsum⟩ := ih
    refine ⟨_ :: costs, ?_, congrArg _ hsum⟩
    rw [List.replicate_succ, results, run_request_step h, hresults]
    rfl

end Reaches

end Cpu

end NesMachine
