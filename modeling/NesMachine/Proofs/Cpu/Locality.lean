import NesMachine.Proofs.Cpu.Series
import NesMachine.Proofs.Exchange.Locality

/-!
# `NesMachine/Proofs/Cpu/Locality.lean` — what a running program depends on

A program that runs on its own memory reads its instructions, its addresses and its return addresses
from there, so a byte that differs can lead anywhere. But a byte that is never read and never written
makes no difference, however long the program runs and whatever signals come in between
(`series_of_avoids`).

The accesses of a series are those of its requests, each made with the memory that the requests
before it have left. A probe that refuses nothing and sees the whole series has recorded just these
(`afterSeries_probe`).
-/

set_option autoImplicit false

namespace NesMachine

open Access (Avoid avoid_append)

namespace Cpu

/-! ## The accesses of a series -/

/-- The accesses that the requests of a series make with bare memory, in order. -/
def seriesAccesses : List Request → Cpu × Ram → List Access
  | [], _ => []
  | request :: requests, state =>
    (request.routine state.1).accesses state.2
      ++ seriesAccesses requests (request.routine.run state).state

/-- What the first requests of a series do, they do in the whole series. -/
theorem seriesAccesses_take (requests : List Request) (n : Nat) (state : Cpu × Ram) :
    seriesAccesses (requests.take n) state <+: seriesAccesses requests state := by
  induction requests generalizing n state with
  | nil => simp
  | cons request requests ih =>
    cases n with
    | zero => exact List.nil_prefix
    | succ n => exact (List.prefix_append_right_inj _).mpr (ih n _)

theorem ram_afterSeries (requests : List Request) (state : Cpu × Ram) :
    (afterSeries requests state).2 = state.2.replay (seriesAccesses requests state) := by
  induction requests generalizing state with
  | nil => rfl
  | cons request requests ih =>
    rw [afterSeries, ih, seriesAccesses, Ram.replay_append]
    congr 1
    exact (request.routine state.1).state_run_ram state.2

/-- **A probe records the series.** What it answers is what its memory holds. -/
theorem afterSeries_probe (requests : List Request) (cpu : Cpu) (ram : Ram) (seen : Array Access) :
    let start : Cpu × Probe := (cpu, ⟨ram, [], [], seen⟩)
    let later := afterSeries requests (cpu, ram)
    results requests start = results requests (cpu, ram) ∧
    afterSeries requests start
      = (later.1, ⟨later.2, [], [], seen.appendList (seriesAccesses requests (cpu, ram))⟩) := by
  induction requests generalizing cpu ram seen with
  | nil => exact ⟨rfl, rfl⟩
  | cons request requests ih =>
    intro start later
    have hrun : request.routine.run start
        = (request.routine.run (cpu, ram)).within fun state => (state.1, (⟨state.2, [], [],
            seen.appendList ((request.routine cpu).accesses ram)⟩ : Probe)) := by
      apply Exchange.run_unbarred
      intro access _
      cases access <;> rfl
    obtain ⟨hresults, hlater⟩ := ih (request.routine.run (cpu, ram)).state.1
      (request.routine.run (cpu, ram)).state.2
      (seen.appendList ((request.routine cpu).accesses ram))
    refine ⟨?_, ?_⟩
    · rw [results, results, hrun]
      exact congrArg (List.cons _) hresults
    · rw [afterSeries, hrun, seriesAccesses]
      refine hlater.trans ?_
      simp only [Array.appendList, List.foldl_append]
      rfl

/-! ## Two memories -/

variable {cells : Set UInt16} {first second : Ram}

/-- **A series depends on the cells that it touches.** One request leaves the same processor with
either memory, and the memories differ as before; so the next request finds what it needs. -/
theorem series_of_avoids (requests : List Request) (cpu : Cpu)
    (hagree : first.AgreeOutside cells second)
    (havoid : Avoid cells (seriesAccesses requests (cpu, first))) :
    seriesAccesses requests (cpu, second) = seriesAccesses requests (cpu, first) ∧
    results requests (cpu, second) = results requests (cpu, first) ∧
    (afterSeries requests (cpu, second)).1 = (afterSeries requests (cpu, first)).1 := by
  induction requests generalizing cpu first second with
  | nil => exact ⟨rfl, rfl, rfl⟩
  | cons request requests ih =>
    obtain ⟨hfirst, hrest⟩ := avoid_append.mp havoid
    obtain ⟨haccesses, hrun⟩ := (request.routine cpu).run_of_avoids hagree hfirst
    have hram := (request.routine cpu).state_run_ram first
    have hsame : request.routine.run (cpu, second)
        = (request.routine.run (cpu, first)).within fun state =>
            (state.1, second.replay ((request.routine cpu).accesses first)) := hrun
    have hlater : (request.routine.run (cpu, first)).state.2.AgreeOutside cells
        (second.replay ((request.routine cpu).accesses first)) := by
      rw [show (request.routine.run (cpu, first)).state.2 = _ from hram]
      exact hagree.replay _
    obtain ⟨haccesses', hresults, hcpu⟩ := ih _ hlater hrest
    refine ⟨?_, ?_, ?_⟩
    · rw [seriesAccesses, hsame]
      exact (congrArg (_ ++ ·) haccesses').trans (congrArg (· ++ _) haccesses)
    · rw [results, hsame]
      exact congrArg (List.cons _) hresults
    · rw [afterSeries, hsame]
      exact hcpu

/-- **Cells that are not touched do not matter.**

Two memories hold the same but for some cells, and a probe that watches a series of requests on the
first memory, steps and signals among them, sees none of these cells touched. Then the series comes
to the same on the second memory: every request has the same result, and after each of them the
processor is the same, registers and count of cycles, and the same accesses have been made. The
memories still hold the same but for those cells, and those are as they were in each. -/
theorem untouched_cells_do_not_matter (cells : Set UInt16) (requests : List Request) (cpu : Cpu)
    (first second : Ram) (hagree : ∀ address ∉ cells, second.read address = first.read address)
    (havoid : ∀ access ∈ (afterSeries requests (cpu, Probe.ofRam first)).2.accesses,
      access.address ∉ cells) :
    results requests (cpu, Probe.ofRam second) = results requests (cpu, Probe.ofRam first) ∧
    ∀ n,
      let one := afterSeries (requests.take n) (cpu, Probe.ofRam first)
      let other := afterSeries (requests.take n) (cpu, Probe.ofRam second)
      other.1 = one.1 ∧ other.2.accesses = one.2.accesses ∧
      (∀ address ∉ cells, other.2.ram.read address = one.2.ram.read address) ∧
      ∀ address ∈ cells, one.2.ram.read address = first.read address ∧
        other.2.ram.read address = second.read address := by
  have hprobe (requests : List Request) (ram : Ram) :=
    afterSeries_probe requests cpu ram #[]
  have hwhole : Avoid cells (seriesAccesses requests (cpu, first)) := by
    rw [Probe.ofRam, (hprobe requests first).2] at havoid
    intro access ha
    exact havoid access (by simpa [← Array.mem_toList_iff, Array.toList_appendList] using ha)
  refine ⟨?_, ?_⟩
  · rw [Probe.ofRam, Probe.ofRam, (hprobe requests first).1, (hprobe requests second).1]
    exact (series_of_avoids requests cpu hagree hwhole).2.1
  · intro n one other
    have hpart : Avoid cells (seriesAccesses (requests.take n) (cpu, first)) := by
      intro access ha
      exact hwhole access ((seriesAccesses_take requests n _).subset ha)
    obtain ⟨haccesses, -, hcpu⟩ := series_of_avoids (requests.take n) cpu hagree hpart
    have hone : one = _ := (hprobe (requests.take n) first).2
    have hother : other = _ := (hprobe (requests.take n) second).2
    rw [hone, hother, ram_afterSeries, ram_afterSeries, haccesses]
    refine ⟨hcpu, rfl, ?_, ?_⟩
    · exact Ram.AgreeOutside.replay hagree _
    · intro address ha
      exact ⟨Ram.read_replay_of_avoids hpart ha, Ram.read_replay_of_avoids hpart ha⟩

/-- `LDA $10` and `PHA`. -/
def pushingRam : Ram := ((Ram.zeros.write 0x0000 0xA5).write 0x0001 0x10).write 0x0002 0x48

/-- The same program, and a byte where it has no business. -/
def markedRam : Ram := pushingRam.write 0x0300 0x99

/-- The program runs to its end and is then interrupted. -/
def pushingRequests : List Request := [.step, .step, .nmi]

/-- The cells between the stack page and the upper half. -/
def dataCells : Set UInt16 := fun address => 0x0200 ≤ address ∧ address < 0x8000

instance (address : UInt16) : Decidable (address ∈ dataCells) :=
  inferInstanceAs (Decidable (0x0200 ≤ address ∧ address < 0x8000))

/-- Code, zero page, stack and a vector are touched, and the marked cell is not. -/
theorem untouched_cells_of_pushes :
    let one := afterSeries pushingRequests (⟨.powerOn, 0, true⟩, Probe.ofRam pushingRam)
    let other := afterSeries pushingRequests (⟨.powerOn, 0, true⟩, Probe.ofRam markedRam)
    (∀ address ∉ dataCells, markedRam.read address = pushingRam.read address) ∧
    (∀ access ∈ one.2.accesses, access.address ∉ dataCells) ∧ one.2.accesses.size = 10 ∧
    other.1 = one.1 ∧ other.2.accesses = one.2.accesses ∧
    one.2.ram.read 0x0300 = 0x00 ∧ other.2.ram.read 0x0300 = 0x99 := by
  have hagree : ∀ address ∉ dataCells, markedRam.read address = pushingRam.read address := by
    intro address ha
    apply Ram.read_write_other
    rintro rfl
    exact ha (by decide)
  have havoid : ∀ access ∈ (afterSeries pushingRequests
      (⟨.powerOn, 0, true⟩, Probe.ofRam pushingRam)).2.accesses, access.address ∉ dataCells := by
    decide +kernel
  have hcount : (afterSeries pushingRequests
      (⟨.powerOn, 0, true⟩, Probe.ofRam pushingRam)).2.accesses.size = 10 := by
    decide +kernel
  have hlast := (untouched_cells_do_not_matter dataCells pushingRequests ⟨.powerOn, 0, true⟩
    pushingRam markedRam hagree havoid).2 3
  rw [show pushingRequests.take 3 = pushingRequests from rfl] at hlast
  obtain ⟨hcpu, haccesses, -, hkept⟩ := hlast
  obtain ⟨hone, hother⟩ := hkept 0x0300 (by decide)
  exact ⟨hagree, havoid, hcount, hcpu, haccesses, hone.trans (by decide +kernel),
    hother.trans (by decide +kernel)⟩

end Cpu

end NesMachine
