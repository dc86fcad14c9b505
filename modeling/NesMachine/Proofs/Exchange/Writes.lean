import NesMachine.Cpu.Routine
import NesMachine.Probe
import NesMachine.Proofs.Outcome

/-!
# `NesMachine/Proofs/Exchange/Writes.lean` — what is written, on any bus

A bus decides by its answers how an exchange goes on, and by a refusal where it ends. `writes` lists
what a bus is asked to write in this way, the refused write included, if there is one.

Many exchanges write the same whatever they read. `Writes` says so of the tree, without a bus: on
every way through it, the same accesses in the same order. What a bus can do about it is to end the
list early, and only if the exchange fails (`Writes.on_bus`).
-/

set_option autoImplicit false

namespace NesMachine

namespace Exchange

variable {α : Type}

/-- What the exchange asks the bus to write. -/
def writes {bus : Type} [Bus bus] : Exchange α → bus → List Access
  | done _ _, _ => []
  | report _ next, bus => next.writes bus
  | read _ address next, bus =>
    match Bus.read bus address with
    | (.ok byte, later) => (next byte).writes later
    | (.error _, _) => []
  | write _ address value next, bus =>
    .write address value :: match Bus.write bus address value with
      | (.ok (), later) => next.writes later
      | (.error _, _) => []

/-- The exchange writes these, whatever it reads, unless it refuses on the way. -/
def Writes : List Access → Exchange α → Prop
  | accesses, done _ (.ok _) => accesses = []
  | _, done _ (.error _) => True
  | accesses, report _ next => next.Writes accesses
  | accesses, read _ _ next => ∀ byte, (next byte).Writes accesses
  | accesses, write _ address value next =>
    ∃ rest, accesses = .write address value :: rest ∧ next.Writes rest

/-- **A bus can only cut the list short.** -/
theorem Writes.on_bus {bus : Type} [Bus bus] {e : Exchange α} {accesses : List Access}
    (h : e.Writes accesses) (start : bus) :
    e.writes start <+: accesses ∧
      ∀ value, (e.run start).result = .ok value → e.writes start = accesses := by
  induction e generalizing accesses start with
  | done cpu result =>
    cases result with
    | ok value =>
      obtain rfl : accesses = [] := h
      exact ⟨List.prefix_rfl, fun _ _ => rfl⟩
    | error fault =>
      refine ⟨List.nil_prefix, ?_⟩
      intro value hv
      cases hv
  | report entry next ih => exact ih h start
  | read cpu address next ih =>
    simp only [writes, run]
    rcases Bus.read start address with ⟨fault | byte, later⟩
    · refine ⟨List.nil_prefix, ?_⟩
      intro value hv
      cases hv
    · exact ih byte (h byte) later
  | write cpu address value next ih =>
    obtain ⟨rest, rfl, hrest⟩ := h
    simp only [writes, run]
    rcases Bus.write start address value with ⟨fault | ⟨⟩, later⟩
    · refine ⟨(List.prefix_cons_inj _).mpr List.nil_prefix, ?_⟩
      intro value hv
      cases hv
    · obtain ⟨hcut, hall⟩ := ih hrest later
      refine ⟨(List.prefix_cons_inj _).mpr hcut, ?_⟩
      intro value hv
      exact congrArg (List.cons _) (hall value hv)

/-- A read that is answered leaves the rest of the exchange to the bus. -/
theorem Writes.after_read {bus : Type} [Bus bus] {cpu : Cpu} {address : UInt16}
    {next : UInt8 → Exchange α} {accesses : List Access} {start : bus} {byte : UInt8}
    (hread : (Bus.read start address).1 = .ok byte) (h : (next byte).Writes accesses) :
    (read cpu address next).writes start <+: accesses ∧
      ∀ value, ((read cpu address next).run start).result = .ok value →
        (read cpu address next).writes start = accesses := by
  have hpair : Bus.read start address = (.ok byte, (Bus.read start address).2) := by
    rw [← hread]
  rw [writes, run, hpair]
  exact h.on_bus _

end Exchange

end NesMachine
