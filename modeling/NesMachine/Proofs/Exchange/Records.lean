import NesMachine.Cpu.Routine
import NesMachine.Probe
import NesMachine.Proofs.Outcome

/-!
# `NesMachine/Proofs/Exchange/Records.lean` — what a probe has seen

`Routine.Records` says of a routine what it comes to on a probe that refuses nothing: its value, the
processor and the memory it leaves, and the accesses that the probe has recorded meanwhile, in
order. The probe may have seen other things before, so records add up: what a sequence records is
what its parts record, one after the other (`Records.bind`).

Away from the choices that a program makes, a routine on such a probe is a computation. Where the
next opcode or flag is known, its record is what it computes to, and `rfl` is the proof.
-/

set_option autoImplicit false

namespace NesMachine

/-- The access that reads a cell. -/
def Ram.seen (ram : Ram) (address : UInt16) : Access := .read address (ram.read address)

namespace Routine

variable {α β : Type}

/-- From `cpu` and `ram`, the routine gets to `value`, `later` and `ram'`, and does `accesses` on
the way. -/
def Records (r : Routine α) (cpu : Cpu) (ram : Ram) (accesses : List Access) (value : α)
    (later : Cpu) (ram' : Ram) : Prop :=
  ∀ seen : Array Access, ∃ log,
    r.run (cpu, (⟨ram, [], [], seen⟩ : Probe))
      = ⟨.ok value, (later, ⟨ram', [], [], seen.appendList accesses⟩), log⟩

/-- **Records add up.** -/
theorem Records.bind {first : Routine α} {next : α → Routine β} {cpu later last : Cpu}
    {ram ram' ram'' : Ram} {accesses accesses' : List Access} {value : α} {result : β}
    (h : first.Records cpu ram accesses value later ram')
    (h' : (next value).Records later ram' accesses' result last ram'') :
    (first >>= next).Records cpu ram (accesses ++ accesses') result last ram'' := by
  intro seen
  obtain ⟨log, hfirst⟩ := h seen
  obtain ⟨log', hnext⟩ := h' (seen.appendList accesses)
  have hseen : seen.appendList (accesses ++ accesses')
      = (seen.appendList accesses).appendList accesses' := List.foldl_append
  refine ⟨log ++ log', ?_⟩
  rw [run_bind, Action.bind_apply, hfirst, hseen]
  show ((next value).run _).after log = _
  rw [hnext]
  rfl

/-- On a fresh probe, the record is what was done. -/
theorem Records.run_ofRam {r : Routine α} {cpu later : Cpu} {ram ram' : Ram}
    {accesses : List Access} {value : α} (h : r.Records cpu ram accesses value later ram') :
    (r.run (cpu, Probe.ofRam ram)).result = .ok value ∧
      (r.run (cpu, Probe.ofRam ram)).state.1 = later ∧
      (r.run (cpu, Probe.ofRam ram)).state.2.ram = ram' ∧
      (r.run (cpu, Probe.ofRam ram)).state.2.accesses.toList = accesses := by
  obtain ⟨log, hrun⟩ := h #[]
  rw [Probe.ofRam, hrun]
  exact ⟨rfl, rfl, rfl, Array.toList_appendList⟩

end Routine

end NesMachine
