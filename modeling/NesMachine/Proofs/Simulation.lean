import NesMachine.Proofs.Outcome

/-!
# `NesMachine/Proofs/Simulation.lean` — the same operation, seen through a view

A component can be kept in more than one way. If `view` shows of a component how another way keeps
it, then an operation written for the one way is `SeenAs` an operation written for the other when
the two give the same result and the same log, and leave what `view` shows.

As with promises, all that matters is that sequences are covered (`SeenAs.bind`). An operation that
is put together in both ways from the same parts is then seen part by part.
-/

set_option autoImplicit false

namespace NesMachine

namespace Outcome

variable {σ τ α β : Type}

theorem within_andThen {view : σ → τ} {next : α → σ → Outcome σ β} {seen : α → τ → Outcome τ β}
    (outcome : Outcome σ α)
    (h : ∀ value state, seen value (view state) = (next value state).within view) :
    (outcome.within view).andThen seen = (outcome.andThen next).within view := by
  obtain ⟨fault | value, state, log⟩ := outcome
  · rfl
  · exact congrArg (Outcome.after log) (h value state)

end Outcome

namespace Action

variable {σ τ α β : Type} {view : σ → τ}

/-- Through `view`, the operation is `seen`. -/
def SeenAs (view : σ → τ) (action : Action σ α) (seen : Action τ α) : Prop :=
  ∀ state, seen (view state) = (action state).within view

theorem seenAs_pure (value : α) : SeenAs view (pure value) (pure value) := fun _ => rfl

theorem seenAs_refuse (fault : Fault) : (refuse fault : Action σ α).SeenAs view (refuse fault) :=
  fun _ => rfl

theorem seenAs_log (level : Log.Level) (text : String) :
    (log level text : Action σ Unit).SeenAs view (log level text) := fun _ => rfl

theorem SeenAs.bind {first : Action σ α} {next : α → Action σ β} {seenFirst : Action τ α}
    {seenNext : α → Action τ β} (hfirst : first.SeenAs view seenFirst)
    (hnext : ∀ value, (next value).SeenAs view (seenNext value)) :
    (first >>= next).SeenAs view (seenFirst >>= seenNext) := by
  intro state
  rw [bind_apply, bind_apply, hfirst state]
  exact Outcome.within_andThen _ hnext

end Action

end NesMachine
