import NesMachine.Memory
import NesMachine.Probe
import NesMachine.Proofs.Exchange.Contract

/-!
# `NesMachine/Proofs/Exchange/Blame.lean` — whose refusal it is

An exchange that is refused is refused by the processor or by the bus, and the result alone does not
tell by which of them, because a fault is a fault. `refusal` does: it is the fault that the bus gave,
if it gave one. Where it gave none the exchange has come to its own end, and so its contract can
promise what the processor itself refuses (`refusal_cases`).
-/

set_option autoImplicit false

namespace NesMachine

/-- The fault is among those that the bus refuses accesses with. -/
def Bus.Gives (bus : Type) [Bus bus] (fault : Fault) : Prop :=
  ∃ b : bus, (∃ address, (Bus.read b address).1 = .error fault) ∨
    ∃ address value, (Bus.write b address value).1 = .error fault

namespace Exchange

variable {α : Type} {bus : Type} [Bus bus]

/-- The fault with which the bus ends the exchange, if it refuses an access. -/
def refusal : Exchange α → bus → Option Fault
  | done _ _, _ => none
  | report _ next, bus => next.refusal bus
  | read _ address next, bus =>
    match Bus.read bus address with
    | (.ok value, bus) => (next value).refusal bus
    | (.error fault, _) => some fault
  | write _ address value next, bus =>
    match Bus.write bus address value with
    | (.ok (), bus) => next.refusal bus
    | (.error fault, _) => some fault

/-- **Whose refusal it is.** Either the exchange comes to its own end, as its contract says, or the
bus refuses, and then the result is the fault that the bus gave. -/
theorem Fulfils.refusal_cases {c : Contract α} {e : Exchange α} (h : e.Fulfils c) (b : bus) :
    e.refusal b = none ∧ (e.run b).Ends (fun value state => c.returns value state.1)
      (fun fault state => c.refuses fault state.1) ∨
    ∃ fault, e.refusal b = some fault ∧ (e.run b).result = .error fault ∧ Bus.Gives bus fault := by
  induction e generalizing b with
  | done cpu result => cases result <;> exact .inl ⟨rfl, h⟩
  | report entry next ih =>
    rw [refusal, Exchange.run, Outcome.ends_after]
    exact ih h b
  | read cpu address next ih =>
    rw [refusal, Exchange.run]
    rcases hread : Bus.read b address with ⟨fault | value, later⟩
    · exact .inr ⟨fault, rfl, rfl, b, .inl ⟨address, congrArg Prod.fst hread⟩⟩
    · exact ih value (h.2 value) later
  | write cpu address value next ih =>
    rw [refusal, Exchange.run]
    rcases hwrite : Bus.write b address value with ⟨fault | ⟨⟩, later⟩
    · exact .inr ⟨fault, rfl, rfl, b, .inr ⟨address, value, congrArg Prod.fst hwrite⟩⟩
    · exact ih h.2 later

theorem fulfils_any (e : Exchange α) :
    e.Fulfils ⟨fun _ _ => True, fun _ _ => True, fun _ => True⟩ := by
  induction e with
  | done cpu result => cases result <;> trivial
  | report entry next ih => exact ih
  | read cpu address next ih => exact ⟨trivial, ih⟩
  | write cpu address value next ih => exact ⟨trivial, ih⟩

theorem result_of_refusal {e : Exchange α} {b : bus} {fault : Fault}
    (h : e.refusal b = some fault) : (e.run b).result = .error fault ∧ Bus.Gives bus fault := by
  rcases (fulfils_any e).refusal_cases b with ⟨hnone, -⟩ | ⟨other, hrefused, hgiven⟩
  · rw [hnone] at h
    cases h
  · obtain rfl : other = fault := Option.some.inj (hrefused.symm.trans h)
    exact hgiven

end Exchange

/-! ## What the buses of the console give -/

theorem Memory.gives {fault : Fault} (h : Bus.Gives Memory fault) :
    fault = .uninitialized .memory := by
  obtain ⟨memory, ⟨address, hread⟩ | ⟨address, value, hwrite⟩⟩ := h
  · cases memory with
    | off => exact (Except.error.inj hread).symm
    | on ram => cases hread
  · cases memory with
    | off => exact (Except.error.inj hwrite).symm
    | on ram => cases hwrite

theorem Probe.gives {fault : Fault} (h : Bus.Gives Probe fault) :
    ∃ address, fault = .invalidAddress address := by
  obtain ⟨probe, ⟨address, hread⟩ | ⟨address, value, hwrite⟩⟩ := h
  · simp only [Bus.read] at hread
    split at hread
    · exact ⟨_, (Except.error.inj hread).symm⟩
    · cases hread
  · simp only [Bus.write] at hwrite
    split at hwrite
    · exact ⟨_, (Except.error.inj hwrite).symm⟩
    · cases hwrite

end NesMachine
