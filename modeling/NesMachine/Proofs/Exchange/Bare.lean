import NesMachine.Memory
import NesMachine.Proofs.Exchange.Records

/-!
# `NesMachine/Proofs/Exchange/Bare.lean` — an exchange with bare memory

Bare memory answers every access, so an exchange with it follows one path through the tree.
`Exchange.accesses` reads off the accesses on that path, in order. They are all there is to know
about memory: `state_run_ram` says that the memory left is the old one with the writes among them
replayed.

Other buses can be compared with bare memory. One whose answers are those of a bus inside it leads
the same exchange (`run_embed`), and memory that is on is such a bus (`run_memory`).
-/

set_option autoImplicit false

namespace NesMachine

/-- What an access does to memory: a write stores its value, and nothing else does anything. -/
def Access.effect : Access → Ram → Ram
  | write address value, ram => ram.write address value
  | _, ram => ram

/-- The memory after some accesses were made, one after the other. -/
def Ram.replay (ram : Ram) (accesses : List Access) : Ram :=
  accesses.foldl (fun ram access => access.effect ram) ram

theorem Outcome.within_after {σ τ α : Type} (rebuild : σ → τ) (outcome : Outcome σ α)
    (log : List Log.Entry) :
    (outcome.after log).within rebuild = (outcome.within rebuild).after log := rfl

namespace Exchange

variable {α : Type}

/-- The accesses that the exchange makes with bare memory, in order. -/
def accesses : Exchange α → Ram → List Access
  | done _ _, _ => []
  | report _ next, ram => next.accesses ram
  | read _ address next, ram => ram.seen address :: (next (ram.read address)).accesses ram
  | write _ address value next, ram =>
    .write address value :: next.accesses (ram.write address value)

/-- **Memory is the writes replayed.** -/
theorem state_run_ram (e : Exchange α) (ram : Ram) :
    (e.run ram).state.2 = ram.replay (e.accesses ram) := by
  induction e generalizing ram with
  | done cpu result => rfl
  | report entry next ih => exact ih ram
  | read cpu address next ih => exact ih (ram.read address) ram
  | write cpu address value next ih => exact ih (ram.write address value)

section

variable {bus bus' : Type} [Bus bus] [Bus bus'] (embed : bus → bus')

/-- A bus that answers as a bus inside it does leads the same exchange as the one inside. -/
theorem run_embed
    (hread : ∀ b address, Bus.read (embed b) address
      = ((Bus.read b address).1, embed (Bus.read b address).2))
    (hwrite : ∀ b address value, Bus.write (embed b) address value
      = ((Bus.write b address value).1, embed (Bus.write b address value).2))
    (e : Exchange α) (start : bus) :
    e.run (embed start) = (e.run start).within fun state => (state.1, embed state.2) := by
  induction e generalizing start with
  | done cpu result => rfl
  | report entry next ih =>
    rw [run, run, ih, Outcome.within_after]
  | read cpu address next ih =>
    simp only [run, hread]
    rcases Bus.read start address with ⟨fault | byte, later⟩
    · rfl
    · exact ih byte later
  | write cpu address value next ih =>
    simp only [run, hwrite]
    rcases Bus.write start address value with ⟨fault | ⟨⟩, later⟩
    · rfl
    · exact ih later

end

/-- Memory that is on is bare memory to the processor. -/
theorem run_memory (e : Exchange α) (ram : Ram) :
    e.run (Memory.on ram) = (e.run ram).within fun state => (state.1, .on state.2) :=
  run_embed Memory.on (fun _ _ => rfl) (fun _ _ _ => rfl) e ram

end Exchange

end NesMachine
