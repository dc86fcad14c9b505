import NesMachine.Fault
import NesMachine.Log

/-!
# `NesMachine/Action.lean` — operations on a component

An operation on a component of type `σ` is an `Action σ α`: given the component it yields an
`Outcome`, which holds the result, the component afterwards, and the entries logged. The component
afterwards is there even when the operation refuses, because what was done before the refusal stays
done; a caller who wants it undone says so with `orElseUndo`.

The laws of `Action` as a monad are proved here, so that a sequence of operations can be regrouped
without looking at what the operations do.
-/

set_option autoImplicit false

namespace NesMachine

/-- What an operation leaves behind. -/
structure Outcome (σ α : Type) where
  /-- The value of the operation, or why it refused. -/
  result : Except Fault α
  /-- The component afterwards. -/
  state : σ
  /-- What was logged, oldest first. -/
  log : List Log.Entry

namespace Outcome

variable {σ τ α β γ : Type}

/-- The same outcome, with entries that were logged before it. -/
def after (earlier : List Log.Entry) : Outcome σ α → Outcome σ α
  | ⟨result, state, log⟩ => ⟨result, state, earlier ++ log⟩

/-- Goes on from a success; a refusal is final. -/
def andThen : Outcome σ α → (α → σ → Outcome σ β) → Outcome σ β
  | ⟨.error fault, state, log⟩, _ => ⟨.error fault, state, log⟩
  | ⟨.ok value, state, log⟩, next => (next value state).after log

/-- The same outcome of a larger component, of which `σ` is a part. -/
def within (rebuild : σ → τ) : Outcome σ α → Outcome τ α
  | ⟨result, state, log⟩ => ⟨result, rebuild state, log⟩

@[simp] theorem after_nil (outcome : Outcome σ α) : outcome.after [] = outcome := rfl

theorem after_after (first second : List Log.Entry) (outcome : Outcome σ α) :
    (outcome.after second).after first = outcome.after (first ++ second) := by
  simp [after]

theorem andThen_after (earlier : List Log.Entry) (outcome : Outcome σ α)
    (next : α → σ → Outcome σ β) :
    (outcome.after earlier).andThen next = (outcome.andThen next).after earlier := by
  rcases outcome with ⟨_ | value, state, log⟩
  · rfl
  · simp [andThen, after]

theorem andThen_assoc (outcome : Outcome σ α) (next : α → σ → Outcome σ β)
    (last : β → σ → Outcome σ γ) :
    (outcome.andThen next).andThen last
      = outcome.andThen fun value state => (next value state).andThen last := by
  rcases outcome with ⟨_ | value, state, log⟩
  · rfl
  · exact andThen_after log (next value state) last

theorem andThen_ok (outcome : Outcome σ α) :
    (outcome.andThen fun value state => ⟨.ok value, state, []⟩) = outcome := by
  rcases outcome with ⟨_ | value, state, log⟩
  · rfl
  · simp [andThen, after]

end Outcome

/-- An operation on a component of type `σ`. -/
def Action (σ α : Type) : Type := σ → Outcome σ α

namespace Action

variable {σ τ α β : Type}

/-- Answers `value` and changes nothing. -/
def succeed (value : α) : Action σ α := fun state => ⟨.ok value, state, []⟩

/-- Refuses and changes nothing. -/
def refuse (fault : Fault) : Action σ α := fun state => ⟨.error fault, state, []⟩

/-- Operations in a row: a refusal ends the row. -/
instance : Monad (Action σ) where
  pure := succeed
  bind first next := fun state => (first state).andThen next

/-- Changes the component without a chance of refusal. -/
def update (change : σ → σ) : Action σ Unit := fun state => ⟨.ok (), change state, []⟩

/-- Asks the component a question that it may refuse to answer. -/
def ask (question : σ → Except Fault α) : Action σ α := fun state =>
  let answer := question state
  ⟨answer, state, []⟩

/-- Logs one entry. -/
def log (level : Log.Level) (text : String) : Action σ Unit := fun state =>
  ⟨.ok (), state, [⟨level, text⟩]⟩

/-- Refuses with `fault` where `condition` does not hold of the component. -/
def require (condition : σ → Bool) (fault : Fault) : Action σ Unit := fun state =>
  if condition state then ⟨.ok (), state, []⟩ else ⟨.error fault, state, []⟩

/-- When `attempt` refuses, does `undo` and then refuses for the same reason. If `undo` refuses too,
its reason is the one reported. -/
def orElseUndo (attempt : Action σ α) (undo : Fault → Action σ Unit) : Action σ α := fun state =>
  match attempt state with
  | ⟨.ok value, state, log⟩ => ⟨.ok value, state, log⟩
  | ⟨.error fault, state, log⟩ =>
    ((undo fault state).andThen fun _ state => ⟨.error fault, state, []⟩).after log

/-! ## Laws -/

theorem pure_apply (value : α) (state : σ) :
    (pure value : Action σ α) state = ⟨.ok value, state, []⟩ := rfl

theorem bind_apply (first : Action σ α) (next : α → Action σ β) (state : σ) :
    (first >>= next) state = (first state).andThen next := rfl

instance : LawfulMonad (Action σ) :=
  LawfulMonad.mk' (Action σ)
    (fun first => funext fun state => Outcome.andThen_ok (first state))
    (fun _ _ => rfl)
    (fun first next last => funext fun state => Outcome.andThen_assoc (first state) next last)

end Action

end NesMachine
