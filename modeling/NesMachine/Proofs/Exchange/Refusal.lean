import NesMachine.Proofs.Exchange.Bare

/-!
# `NesMachine/Proofs/Exchange/Refusal.lean` — where a refused access cuts an exchange

A probe that refuses some accesses is compared with bare memory that holds the same cells. Up to the
first access that is refused nobody can tell the two apart. So an exchange that meets no refusal is
the exchange with bare memory (`run_unbarred`), and any other is that exchange cut at the first
refusal (`run_barred`): what was done before stays done, the refused access is the last one, and
what is left of the exchange does not happen.
-/

set_option autoImplicit false

namespace NesMachine

namespace Access

def address : Access → UInt16
  | read address _ => address
  | write address _ => address
  | readRefused address => address
  | writeRefused address _ => address

/-- The access as it is recorded when it is refused. -/
def refused : Access → Access
  | read address _ => readRefused address
  | write address value => writeRefused address value
  | access => access

/-- Holds if a probe that may not be read and written at the given addresses refuses the access. -/
def isBarred (unreadable unwritable : List UInt16) : Access → Bool
  | read address _ => unreadable.contains address
  | readRefused address => unreadable.contains address
  | write address _ => unwritable.contains address
  | writeRefused address _ => unwritable.contains address

end Access

namespace Exchange

variable {α : Type} {unreadable unwritable : List UInt16}

/-- **What is not refused is as it is with bare memory.** -/
theorem run_unbarred (e : Exchange α) (ram : Ram) (seen : Array Access)
    (h : ∀ access ∈ e.accesses ram, access.isBarred unreadable unwritable = false) :
    e.run (⟨ram, unreadable, unwritable, seen⟩ : Probe)
      = (e.run ram).within fun state =>
          (state.1, ⟨state.2, unreadable, unwritable, seen.appendList (e.accesses ram)⟩) := by
  induction e generalizing ram seen with
  | done cpu result => rfl
  | report entry next ih => rw [run, run, ih ram seen h, Outcome.within_after, accesses]
  | read cpu address next ih =>
    have hfirst : unreadable.contains address = false := h _ List.mem_cons_self
    have hrest := ih (ram.read address) ram (seen.push (ram.seen address))
      fun access ha => h access (List.mem_cons_of_mem _ ha)
    simp only [run, Bus.read, hfirst]
    exact hrest
  | write cpu address value next ih =>
    have hfirst : unwritable.contains address = false := h _ List.mem_cons_self
    have hrest := ih (ram.write address value) (seen.push (.write address value))
      fun access ha => h access (List.mem_cons_of_mem _ ha)
    simp only [run, Bus.write, hfirst]
    exact hrest

/-- **The first refusal is the end.** -/
theorem run_barred (e : Exchange α) (ram : Ram) (seen : Array Access) {before rest : List Access}
    {access : Access} (hsplit : e.accesses ram = before ++ access :: rest)
    (hbefore : ∀ other ∈ before, other.isBarred unreadable unwritable = false)
    (hbarred : access.isBarred unreadable unwritable = true) :
    ∃ cpu log, e.run (⟨ram, unreadable, unwritable, seen⟩ : Probe)
      = ⟨.error (.invalidAddress access.address.toNat),
          (cpu, ⟨ram.replay before, unreadable, unwritable,
            seen.appendList (before ++ [access.refused])⟩), log⟩ := by
  -- At every access of the exchange the question is whether the refused one is there or further on,
  -- that is, whether `before` has come to its end.
  induction e generalizing ram seen before with
  | done cpu result => exact absurd hsplit (by simp [accesses])
  | report entry next ih =>
    obtain ⟨cpu, log, hrun⟩ := ih ram seen hsplit hbefore
    exact ⟨cpu, entry :: log, by rw [run, hrun]; rfl⟩
  | read cpu address next ih =>
    rw [accesses] at hsplit
    cases before with
    | nil =>
      obtain ⟨rfl, -⟩ := List.cons.inj hsplit
      have hfirst : unreadable.contains address = true := hbarred
      exact ⟨cpu, [], by simp only [run, Bus.read, hfirst]; rfl⟩
    | cons first before =>
      obtain ⟨rfl, hrest⟩ := List.cons.inj hsplit
      have hfirst : unreadable.contains address = false := hbefore _ List.mem_cons_self
      obtain ⟨last, log, hrun⟩ := ih (ram.read address) ram (seen.push (ram.seen address)) hrest
        fun other ho => hbefore other (List.mem_cons_of_mem _ ho)
      exact ⟨last, log, by simp only [run, Bus.read, hfirst]; exact hrun⟩
  | write cpu address value next ih =>
    rw [accesses] at hsplit
    cases before with
    | nil =>
      obtain ⟨rfl, -⟩ := List.cons.inj hsplit
      have hfirst : unwritable.contains address = true := hbarred
      exact ⟨cpu, [], by simp only [run, Bus.write, hfirst]; rfl⟩
    | cons first before =>
      obtain ⟨rfl, hrest⟩ := List.cons.inj hsplit
      have hfirst : unwritable.contains address = false := hbefore _ List.mem_cons_self
      obtain ⟨last, log, hrun⟩ := ih (ram.write address value)
        (seen.push (.write address value)) hrest
        fun other ho => hbefore other (List.mem_cons_of_mem _ ho)
      exact ⟨last, log, by simp only [run, Bus.write, hfirst]; exact hrun⟩

end Exchange

end NesMachine
