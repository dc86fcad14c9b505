import NesMachine.Probe
import NesMachine.Proofs.Console.Running
import NesMachine.Proofs.Cpu.History

/-!
# `NesMachine/Proofs/Console/Clock.lean` — three counts of the same cycles

The cycles of a machine are counted three times: by the processor, modulo 2³²; by the caller of a
step, who is told what the step took; and by a run, which adds up what it was told. This file says
that the three agree, over any history of a processor and over any run of a console.

The run's own count is a sum of at most seven for each instruction, so a budget of up to a seventh
of the largest sixty-four-bit number keeps it within sixty-four bits.
-/

set_option autoImplicit false

namespace NesMachine

namespace Console

/-- A step of the console answers between two and seven, and moves the processor's count by it. -/
theorem ends_step_clock (console : Console) :
    (step console).Ends
      (fun count later => (2 ≤ count ∧ count ≤ 7) ∧ console.cpu.Spends count later.cpu)
      (fun _ _ => True) := by
  cases hon : console.isOn with
  | false =>
    rw [step, requireOn, Action.require_bind_of_false _ _ hon]
    trivial
  | true =>
    rw [step_eq hon, ends_work]
    cases hcpu : console.cpu.isOn with
    | false =>
      rw [Routine.run, Routine.step_off hcpu]
      trivial
    | true =>
      refine ((Routine.fulfils_step hcpu).run console.memory).mono ?_ ?_
      · intro count state h
        exact h
      · intro fault state _
        trivial

/-- What a run has counted after some of its instructions: each took between two and seven, and the
processor has counted the same. -/
structure Counted (start : Console) (budget left : Nat) (done : RunSummary) (later : Console) :
    Prop where
  budget : done.steps + left = budget
  least : 2 * done.steps ≤ done.cycles
  most : done.cycles ≤ 7 * done.steps
  clock : start.cpu.Spends done.cycles later.cpu

theorem counted_kept (start : Console) (budget : Nat) (traced : Bool) :
    KeptByInstruction traced (Counted start budget) fun _ _ => True := by
  intro left done console h
  refine ends_runStep (fun _ _ _ => trivial) ((ends_step_clock console).mono ?_ fun _ _ _ => trivial)
  rintro count later ⟨⟨hlo, hhi⟩, hs⟩
  obtain ⟨hbudget, hleast, hmost, hclock⟩ := h
  refine ⟨?_, ?_, ?_, hclock.trans hs⟩
  · show done.steps + 1 + left = budget
    omega
  · show 2 * (done.steps + 1) ≤ done.cycles + count
    omega
  · show done.cycles + count ≤ 7 * (done.steps + 1)
    omega

theorem ends_run_counted (mode : RunMode) (listened : Bool) (budget : Nat) (console : Console) :
    (run mode listened budget console).Ends
      (fun summary later => ∃ left, Counted console budget left summary later)
      (fun _ _ => True) := by
  cases hon : console.isOn with
  | false =>
    rw [run_off hon]
    trivial
  | true =>
    refine ends_run hon (counted_kept console budget _) ⟨?_, ?_, ?_, .refl console.cpu⟩
    · exact Nat.zero_add budget
    · exact Nat.le_refl 0
    · exact Nat.le_refl 0

/-! ## The three counts agree -/

/-- **Every count of cycles is the same count.**

After a restart, whatever is then asked of the processor and on whatever buses, its count is what
somebody reads off the events: the answers of the steps that succeeded, and seven for each signal
served. A step that succeeds answers between two and seven, and a step or signal that fails leaves
the count alone.

A run within the budget that returns has counted its instructions and cycles without leaving
sixty-four bits, has counted between two and seven cycles for each instruction, and the processor
has counted as many. -/
theorem clock_reads_history {bus : Type} [Bus bus] :
    (∀ (cpu : Cpu) (restart : Cpu.Call bus) (calls : List (Cpu.Call bus)),
      restart.request.Restarts cpu → (∀ call ∈ calls, call.request.rewinds = false) →
      let start := (restart.event cpu).after
      let events := Cpu.history calls start
      (Cpu.afterCalls calls start).cycles.toNat = Cpu.reading events % 4294967296 ∧
      ∀ event ∈ events,
        (event.request = .step → ∀ answer, event.result = .ok answer →
          ∃ count, answer = .cycles count ∧ 2 ≤ count ∧ count ≤ 7) ∧
        (event.request = .step ∨ event.request = .irq ∨ event.request = .nmi →
          ∀ fault, event.result = .error fault → event.after.cycles = event.before.cycles)) ∧
    (∀ (mode : RunMode) (listened : Bool) (budget : Nat) (console : Console)
        (summary : RunSummary), budget ≤ 18446744073709551615 / 7 →
      (run mode listened budget console).result = .ok summary →
      summary.steps < 18446744073709551616 ∧ summary.cycles < 18446744073709551616 ∧
      2 * summary.steps ≤ summary.cycles ∧ summary.cycles ≤ 7 * summary.steps ∧
      (run mode listened budget console).state.cpu.cycles
        = console.cpu.cycles + UInt32.ofNat summary.cycles) := by
  refine ⟨?_, ?_⟩
  · intro cpu restart calls hrestart hcalls
    obtain ⟨hon, hzero⟩ := Cpu.after_restart hrestart
    refine ⟨?_, ?_⟩
    · have hs := Cpu.spends_history hon hcalls
      rw [hs.cycles, hzero, UInt32.zero_add, UInt32.toNat_ofNat']
    · intro event he
      obtain ⟨call, hc, before, hb, rfl⟩ := Cpu.event_of_mem_history hon hcalls he
      have hends := Cpu.ends_call call hb (hcalls call hc)
      refine ⟨?_, ?_⟩
      · intro hstep answer ha
        have hadmits := (hends.of_ok ha).1
        rw [show call.request = .step from hstep] at hadmits
        exact hadmits
      · intro _ fault hf
        have hs := hends.of_error hf
        rw [show (call.event before).after.cycles = _ from hs.cycles]
        exact UInt32.add_zero before.cycles
  · intro mode listened budget console summary hbudget hv
    obtain ⟨left, hb, hleast, hmost, hclock⟩ :=
      (ends_run_counted mode listened budget console).of_ok hv
    refine ⟨?_, ?_, hleast, hmost, hclock.cycles⟩
    · omega
    · omega

def nopRam : Ram := Ram.zeros.write 0 0xEA

/-- A step that succeeds, a step whose opcode cannot be read, and both signals. -/
def nopCalls : List (Cpu.Call Probe) :=
  [⟨.step, .ofRam nopRam⟩, ⟨.step, ⟨nopRam, [1], [], #[]⟩⟩, ⟨.irq, .ofRam nopRam⟩,
    ⟨.nmi, .ofRam nopRam⟩]

theorem clock_reads_nops :
    (Cpu.Request.Restarts .powerOn .off ∧ (∀ call ∈ nopCalls, call.request.rewinds = false) ∧
      Cpu.reading (Cpu.history nopCalls ⟨.powerOn, 0, true⟩) = 16 ∧
      (Cpu.afterCalls nopCalls ⟨.powerOn, 0, true⟩).cycles.toNat = 16) ∧
    (1 ≤ 18446744073709551615 / 7 ∧
      (run .normal false 1 ⟨.on nopRam, ⟨.powerOn, 0, true⟩, .empty, true⟩).result
        = .ok ⟨1, 2, false⟩ ∧
      (run .normal false 1 ⟨.on nopRam, ⟨.powerOn, 0, true⟩, .empty, true⟩).state.cpu.cycles
        = 2) := by
  obtain ⟨hhistory, hrun⟩ := @clock_reads_history Probe _
  have hcalls : ∀ call ∈ nopCalls, call.request.rewinds = false := by decide
  have hreading : Cpu.reading (Cpu.history nopCalls ⟨.powerOn, 0, true⟩) = 16 := by decide +kernel
  have hran : (run .normal false 1 ⟨.on nopRam, ⟨.powerOn, 0, true⟩, .empty, true⟩).result
      = .ok ⟨1, 2, false⟩ := rfl
  refine ⟨⟨rfl, hcalls, hreading, ?_⟩, by decide, hran, ?_⟩
  · exact (hhistory .off ⟨.powerOn, .ofRam nopRam⟩ nopCalls rfl hcalls).1.trans
      (congrArg (· % 4294967296) hreading)
  · exact (hrun .normal false 1 _ _ (by decide) hran).2.2.2.2

end Console

end NesMachine
