import NesMachine.Cpu.Routine
import NesMachine.Proofs.Outcome

/-!
# `NesMachine/Proofs/Exchange/Contract.lean` — what holds on every bus

A `Contract` says what may be true where an exchange ends, and an exchange can end in three ways:
with a value, with a refusal of the processor's own, or because the bus refuses an access. The
third is promised at **every** access, since any of them may be the one that is refused; that is
why `Fulfils` asks for `cut` at each node of the tree and not at the leaves.

`Fulfils.run` is what a contract is for. It holds of the outcome on every bus, of every type, in
every state, and its proof is the only induction on the tree that the contracts need.

A bus that refuses nothing is `Reliable`. On such a bus `cut` cannot happen
(`Fulfils.run_reliable`), and a bus that is reliable stays so.
-/

set_option autoImplicit false

namespace NesMachine

/-- What is promised of an exchange, by the way in which it ends. -/
structure Contract (α : Type) where
  /-- Of the value and the processor at the end. -/
  returns : α → Cpu → Prop
  /-- Of the fault and the processor at a refusal of the processor's own. -/
  refuses : Fault → Cpu → Prop
  /-- Of the processor that a refused access leaves. -/
  cut : Cpu → Prop

namespace Exchange

variable {α β : Type}

/-- The exchange keeps the contract, whatever the bus answers. -/
def Fulfils (c : Contract α) : Exchange α → Prop
  | done cpu (.ok value) => c.returns value cpu
  | done cpu (.error fault) => c.refuses fault cpu
  | report _ next => next.Fulfils c
  | read cpu _ next => c.cut cpu ∧ ∀ byte, (next byte).Fulfils c
  | write cpu _ _ next => c.cut cpu ∧ next.Fulfils c

theorem Fulfils.mono {c d : Contract α} (hr : ∀ value cpu, c.returns value cpu → d.returns value cpu)
    (hf : ∀ fault cpu, c.refuses fault cpu → d.refuses fault cpu)
    (hc : ∀ cpu, c.cut cpu → d.cut cpu) {e : Exchange α} (h : e.Fulfils c) : e.Fulfils d := by
  induction e with
  | done cpu result =>
    cases result with
    | ok value => exact hr value cpu h
    | error fault => exact hf fault cpu h
  | report entry next ih => exact ih h
  | read cpu address next ih => exact ⟨hc cpu h.1, fun byte => ih byte (h.2 byte)⟩
  | write cpu address value next ih => exact ⟨hc cpu h.1, ih h.2⟩

/-- An exchange in two parts keeps a contract if and only if the first part does, with what the
second part needs as the promise of its value. -/
theorem fulfils_andThen {c : Contract β} (e : Exchange α) (next : α → Cpu → Exchange β) :
    (e.andThen next).Fulfils c
      ↔ e.Fulfils ⟨fun value cpu => (next value cpu).Fulfils c, c.refuses, c.cut⟩ := by
  induction e with
  | done cpu result => cases result <;> rfl
  | report entry rest ih => exact ih
  | read cpu address rest ih => exact and_congr Iff.rfl (forall_congr' ih)
  | write cpu address value rest ih => exact and_congr Iff.rfl ih

/-! ## On a bus -/

section

variable {bus : Type} [Bus bus]

/-- **A contract holds on every bus.** -/
theorem Fulfils.run {c : Contract α} {e : Exchange α} (h : e.Fulfils c) (start : bus) :
    (e.run start).Ends (fun value state => c.returns value state.1)
      (fun fault state => c.refuses fault state.1 ∨ c.cut state.1) := by
  induction e generalizing start with
  | done cpu result =>
    cases result with
    | ok value => exact h
    | error fault => exact Or.inl h
  | report entry next ih => exact (Outcome.ends_after _ _).mpr (ih h start)
  | read cpu address next ih =>
    simp only [Exchange.run]
    rcases Bus.read start address with ⟨fault | byte, later⟩
    · exact Or.inr h.1
    · exact ih byte (h.2 byte) later
  | write cpu address value next ih =>
    simp only [Exchange.run]
    rcases Bus.write start address value with ⟨fault | ⟨⟩, later⟩
    · exact Or.inr h.1
    · exact ih h.2 later

/-- Buses that answer every access, and that no access makes unready. -/
structure Reliable (ready : bus → Prop) : Prop where
  read : ∀ b, ready b → ∀ address,
    ∃ byte later, Bus.read b address = (.ok byte, later) ∧ ready later
  write : ∀ b, ready b → ∀ address value,
    ∃ later, Bus.write b address value = (.ok (), later) ∧ ready later

/-- On a reliable bus an exchange is not cut, and the bus stays reliable. -/
theorem Fulfils.run_reliable {c : Contract α} {e : Exchange α} {ready : bus → Prop}
    (h : e.Fulfils c) (hbus : Reliable ready) {start : bus} (hs : ready start) :
    (e.run start).Ends (fun value state => c.returns value state.1 ∧ ready state.2)
      (fun fault state => c.refuses fault state.1 ∧ ready state.2) := by
  induction e generalizing start with
  | done cpu result =>
    cases result with
    | ok value => exact ⟨h, hs⟩
    | error fault => exact ⟨h, hs⟩
  | report entry next ih => exact (Outcome.ends_after _ _).mpr (ih h hs)
  | read cpu address next ih =>
    obtain ⟨byte, later, he, hl⟩ := hbus.read start hs address
    simp only [Exchange.run, he]
    exact ih byte (h.2 byte) hl
  | write cpu address value next ih =>
    obtain ⟨later, he, hl⟩ := hbus.write start hs address value
    simp only [Exchange.run, he]
    exact ih h.2 hl

end

end Exchange

namespace Routine

variable {α β : Type}

theorem fulfils_bind {c : Contract β} (first : Routine α) (next : α → Routine β) (cpu : Cpu) :
    ((first >>= next) cpu).Fulfils c
      ↔ (first cpu).Fulfils ⟨fun value cpu => (next value cpu).Fulfils c, c.refuses, c.cut⟩ :=
  Exchange.fulfils_andThen (first cpu) next

end Routine

end NesMachine
