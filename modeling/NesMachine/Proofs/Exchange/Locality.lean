import Mathlib.Data.Set.Defs
import NesMachine.Proofs.Exchange.Refusal

/-!
# `NesMachine/Proofs/Exchange/Locality.lean` — cells that an exchange does not touch

A read puts a byte into the exchange, and from then on everything may depend on it: the addresses of
later accesses, the instruction that is done, whether there is a later access at all. So it cannot be
told from the tree which cells an exchange depends on. It can be told from the way taken: an exchange
that stays out of a set of cells is the same exchange with any memory that differs in that set only
(`run_of_avoids`).

What becomes of the two memories is a fact about the accesses alone. Writes keep them alike where
they are alike (`AgreeOutside.replay`), and writes that stay out of the set leave to each its own
cells there (`read_replay_of_avoids`).
-/

set_option autoImplicit false

namespace NesMachine

/-- None of the accesses is in the set. -/
def Access.Avoid (cells : Set UInt16) (accesses : List Access) : Prop :=
  ∀ access ∈ accesses, access.address ∉ cells

namespace Access

variable {cells : Set UInt16}

theorem avoid_cons {access : Access} {accesses : List Access} :
    Avoid cells (access :: accesses) ↔ access.address ∉ cells ∧ Avoid cells accesses := by
  simp [Avoid]

theorem avoid_append {before after : List Access} :
    Avoid cells (before ++ after) ↔ Avoid cells before ∧ Avoid cells after := by
  simp only [Avoid, List.mem_append]
  constructor
  · intro h
    exact ⟨fun access ha => h access (Or.inl ha), fun access ha => h access (Or.inr ha)⟩
  · rintro ⟨hbefore, hafter⟩ access (ha | ha)
    · exact hbefore access ha
    · exact hafter access ha

end Access

open Access (Avoid avoid_cons avoid_append)

namespace Ram

variable {cells : Set UInt16} {first second ram : Ram}

/-- The memories hold the same, except perhaps in the set. -/
def AgreeOutside (cells : Set UInt16) (first second : Ram) : Prop :=
  ∀ address, address ∉ cells → second.read address = first.read address

theorem AgreeOutside.write (h : AgreeOutside cells first second) (written : UInt16)
    (value : UInt8) : AgreeOutside cells (first.write written value) (second.write written value) := by
  intro address ha
  by_cases hw : written = address
  · simp [hw]
  · simp [read_write, hw, h address ha]

theorem AgreeOutside.effect (h : AgreeOutside cells first second) (access : Access) :
    AgreeOutside cells (access.effect first) (access.effect second) := by
  cases access with
  | write address value => exact h.write address value
  | _ => exact h

/-- Memories that are alike stay so where they are alike. -/
theorem AgreeOutside.replay (h : AgreeOutside cells first second) (accesses : List Access) :
    AgreeOutside cells (first.replay accesses) (second.replay accesses) := by
  induction accesses generalizing first second with
  | nil => exact h
  | cons access accesses ih => exact ih (h.effect access)

theorem read_effect_of_ne {access : Access} {address : UInt16} (h : access.address ≠ address) :
    (access.effect ram).read address = ram.read address := by
  cases access with
  | write written value => exact read_write_other ram value h
  | _ => rfl

/-- Accesses that stay out of a set leave its cells alone. -/
theorem read_replay_of_avoids {accesses : List Access} (h : Avoid cells accesses)
    {address : UInt16} (ha : address ∈ cells) :
    (ram.replay accesses).read address = ram.read address := by
  induction accesses generalizing ram with
  | nil => rfl
  | cons access accesses ih =>
    obtain ⟨hfirst, hrest⟩ := avoid_cons.mp h
    have hne : access.address ≠ address := by
      intro hsame
      exact hfirst (hsame ▸ ha)
    calc (ram.replay (access :: accesses)).read address
        = (access.effect ram).read address := ih hrest
      _ = ram.read address := read_effect_of_ne hne

theorem replay_append (ram : Ram) (before after : List Access) :
    ram.replay (before ++ after) = (ram.replay before).replay after := by
  simp [replay]

end Ram

namespace Exchange

variable {α : Type} {cells : Set UInt16} {first second : Ram}

/-- **An exchange depends on the cells that it touches**, and on no others. The induction goes down
the way that the exchange takes with the first memory; each byte that it reads there is the byte that
the second memory answers. -/
theorem run_of_avoids (e : Exchange α) (hagree : first.AgreeOutside cells second)
    (havoid : Avoid cells (e.accesses first)) :
    e.accesses second = e.accesses first ∧
      e.run second = (e.run first).within fun state =>
        (state.1, second.replay (e.accesses first)) := by
  induction e generalizing first second with
  | done cpu result => exact ⟨rfl, rfl⟩
  | report entry next ih =>
    obtain ⟨haccesses, hrun⟩ := ih hagree havoid
    refine ⟨haccesses, ?_⟩
    rw [run, run, hrun, Outcome.within_after]
    rfl
  | read cpu address next ih =>
    obtain ⟨hhere, hrest⟩ := avoid_cons.mp havoid
    have hbyte : second.read address = first.read address := hagree address hhere
    obtain ⟨haccesses, hrun⟩ := ih (first.read address) hagree hrest
    refine ⟨?_, ?_⟩
    · simp only [accesses, Ram.seen, hbyte, haccesses]
    · simp only [run, Bus.read, hbyte]
      exact hrun
  | write cpu address value next ih =>
    obtain ⟨-, hrest⟩ := avoid_cons.mp havoid
    obtain ⟨haccesses, hrun⟩ := ih (hagree.write address value) hrest
    refine ⟨?_, ?_⟩
    · simp only [accesses, haccesses]
    · simp only [run, Bus.write]
      exact hrun

end Exchange

end NesMachine
