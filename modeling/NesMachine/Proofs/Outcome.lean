import NesMachine.Action

/-!
# `NesMachine/Proofs/Outcome.lean` — what is promised of an outcome

`Ends R E o` says of an outcome `o` that its value, if it has one, satisfies `R` with the state it
leaves, and that its fault, if it refused, satisfies `E` with the state it leaves. The log is not
mentioned: nothing a component does depends on what it has logged.

The rule that pays for the definition is `ends_bind`. It is an `iff`, so a promise about a sequence
of operations **is** a promise about the first one, and a proof goes through a `do` block from the
front, one operation at a time, refusals included.

`Leaves view action` is the promise that needs no such walk: the operation never changes what `view`
shows of the component. It is kept by everything operations are put together with.
-/

set_option autoImplicit false

namespace NesMachine

namespace Fault

variable {α β : Type}

theorem ok_bind (value : α) (next : α → Except Fault β) :
    (Except.ok value >>= next) = next value := rfl

end Fault

namespace Outcome

variable {σ τ α β : Type}

/-! ## Promises -/

/-- The outcome is a value that `returns` admits or a fault that `refuses` admits, each with the
state that is left. -/
def Ends (returns : α → σ → Prop) (refuses : Fault → σ → Prop) : Outcome σ α → Prop
  | ⟨.ok value, state, _⟩ => returns value state
  | ⟨.error fault, state, _⟩ => refuses fault state

variable {R : α → σ → Prop} {E : Fault → σ → Prop}

@[simp] theorem ends_ok (value : α) (state : σ) (log : List Log.Entry) :
    Ends R E ⟨.ok value, state, log⟩ ↔ R value state := Iff.rfl

@[simp] theorem ends_error (fault : Fault) (state : σ) (log : List Log.Entry) :
    Ends R E ⟨.error fault, state, log⟩ ↔ E fault state := Iff.rfl

theorem ends_iff {o : Outcome σ α} :
    Ends R E o ↔ (∀ value, o.result = .ok value → R value o.state) ∧
      (∀ fault, o.result = .error fault → E fault o.state) := by
  rcases o with ⟨_ | value, state, log⟩ <;> simp

theorem Ends.of_ok {o : Outcome σ α} (h : Ends R E o) {value : α} (hv : o.result = .ok value) :
    R value o.state := (ends_iff.mp h).1 value hv

theorem Ends.of_error {o : Outcome σ α} (h : Ends R E o) {fault : Fault}
    (hf : o.result = .error fault) : E fault o.state := (ends_iff.mp h).2 fault hf

theorem Ends.exists_ok {o : Outcome σ α} (h : Ends R (fun _ _ => False) o) :
    ∃ value, o.result = .ok value ∧ R value o.state := by
  rcases o with ⟨fault | value, state, log⟩
  · exact h.elim
  · exact ⟨value, rfl, h⟩

/-- What both kinds of ending promise of the state holds of it. -/
theorem Ends.state {P : σ → Prop} {o : Outcome σ α} (h : Ends (fun _ => P) (fun _ => P) o) :
    P o.state := by
  rcases o with ⟨_ | value, state, log⟩ <;> exact h

theorem Ends.mono {R' : α → σ → Prop} {E' : Fault → σ → Prop} {o : Outcome σ α}
    (h : Ends R E o) (hR : ∀ value state, R value state → R' value state)
    (hE : ∀ fault state, E fault state → E' fault state) : Ends R' E' o := by
  rcases o with ⟨fault | value, state, log⟩
  · exact hE fault state h
  · exact hR value state h

@[simp] theorem ends_after (o : Outcome σ α) (log : List Log.Entry) :
    Ends R E (o.after log) ↔ Ends R E o := by
  rcases o with ⟨_ | value, state, log⟩ <;> rfl

theorem ends_andThen {R : β → σ → Prop} (o : Outcome σ α) (next : α → σ → Outcome σ β) :
    Ends R E (o.andThen next) ↔ Ends (fun value state => Ends R E (next value state)) E o := by
  rcases o with ⟨_ | value, state, log⟩
  · rfl
  · exact ends_after (next value state) log

theorem ends_within {R : α → τ → Prop} {E : Fault → τ → Prop} (o : Outcome σ α)
    (rebuild : σ → τ) :
    Ends R E (o.within rebuild)
      ↔ Ends (fun value state => R value (rebuild state))
          (fun fault state => E fault (rebuild state)) o := by
  rcases o with ⟨_ | value, state, log⟩ <;> rfl

end Outcome

namespace Action

variable {σ α β : Type} {R : β → σ → Prop} {E : Fault → σ → Prop} {state : σ}

/-- **A promise about a sequence is a promise about its first operation.** -/
theorem ends_bind (first : Action σ α) (next : α → Action σ β) :
    ((first >>= next) state).Ends R E
      ↔ (first state).Ends (fun value state => (next value state).Ends R E) E :=
  Outcome.ends_andThen (first state) next

/-! ## Operations that only look or only change -/

@[simp] theorem refuse_apply (fault : Fault) : (refuse fault : Action σ α) state
    = ⟨.error fault, state, []⟩ := rfl

@[simp] theorem ask_apply (question : σ → Except Fault α) : ask question state
    = ⟨question state, state, []⟩ := rfl

@[simp] theorem log_apply (level : Log.Level) (text : String) : log level text state
    = ⟨.ok (), state, [⟨level, text⟩]⟩ := rfl

theorem require_of_true {condition : σ → Bool} (fault : Fault) (h : condition state = true) :
    require condition fault state = ⟨.ok (), state, []⟩ := by
  rw [require, if_pos h]

theorem require_of_false {condition : σ → Bool} (fault : Fault) (h : condition state = false) :
    require condition fault state = ⟨.error fault, state, []⟩ := by
  rw [require, if_neg (by rw [h]; exact Bool.false_ne_true)]

theorem require_bind_of_true {condition : σ → Bool} (fault : Fault) (next : Unit → Action σ β)
    (h : condition state = true) : (require condition fault >>= next) state = next () state := by
  rw [bind_apply, require_of_true fault h]
  rfl

theorem require_bind_of_false {condition : σ → Bool} (fault : Fault) (next : Unit → Action σ β)
    (h : condition state = false) :
    (require condition fault >>= next) state = ⟨.error fault, state, []⟩ := by
  rw [bind_apply, require_of_false fault h]
  rfl

/-! ## What an operation leaves alone -/

section

variable {γ : Type} {view : σ → γ}

/-- Granted or refused, the operation does not change what `view` shows. -/
def Leaves (view : σ → γ) (action : Action σ α) : Prop :=
  ∀ state, view (action state).state = view state

theorem leaves_pure (value : α) : (pure value : Action σ α).Leaves view := fun _ => rfl

theorem leaves_refuse (fault : Fault) : (refuse fault : Action σ α).Leaves view := fun _ => rfl

theorem leaves_ask (question : σ → Except Fault α) : (ask question).Leaves view := fun _ => rfl

theorem leaves_log (level : Log.Level) (text : String) :
    (log level text : Action σ Unit).Leaves view := fun _ => rfl

theorem leaves_require (condition : σ → Bool) (fault : Fault) :
    (require condition fault).Leaves view := by
  intro state
  rw [require]
  split <;> rfl

/-- What is shown less closely is left alone as well. -/
theorem Leaves.map {δ : Type} {action : Action σ α} (h : action.Leaves view) (f : γ → δ) :
    action.Leaves (f ∘ view) := fun state => congrArg f (h state)

theorem Leaves.bind {first : Action σ α} {next : α → Action σ β} (hfirst : first.Leaves view)
    (hnext : ∀ value, (next value).Leaves view) : (first >>= next).Leaves view := by
  intro state
  have h := hfirst state
  rw [bind_apply]
  generalize first state = outcome at h ⊢
  obtain ⟨fault | value, later, log⟩ := outcome
  · exact h
  · exact (hnext value later).trans h

theorem Leaves.orElseUndo {attempt : Action σ α} {undo : Fault → Action σ Unit}
    (hattempt : attempt.Leaves view) (hundo : ∀ fault, (undo fault).Leaves view) :
    (attempt.orElseUndo undo).Leaves view := by
  intro state
  have h := hattempt state
  rw [Action.orElseUndo]
  generalize attempt state = outcome at h ⊢
  obtain ⟨fault | value, later, log⟩ := outcome
  · have hback := hundo fault later
    dsimp only
    generalize undo fault later = undone at hback ⊢
    obtain ⟨_ | _, last, _⟩ := undone
    · exact hback.trans h
    · exact hback.trans h
  · exact h

end

end Action

end NesMachine
