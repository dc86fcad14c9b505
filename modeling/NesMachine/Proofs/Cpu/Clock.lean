import NesMachine.Proofs.Cpu.Tentative

/-!
# `NesMachine/Proofs/Cpu/Clock.lean` — who moves the count of cycles

Nearly everything the processor does leaves its count of cycles alone. Only three routines move it:
a step, by what it answers, and the two signals, by seven. And they move it **last**, after their
last access, so an access that is refused half way finds the count as it was, and the data registers
with it.

The routines that do not move it are tentative or deferred, and nothing else has to be known about
them here. What is left are the bounds of the table, and the three routines themselves
(`fulfils_step`, `fulfils_nmi`, `fulfils_irq`).
-/

set_option autoImplicit false

namespace NesMachine

/-- `later` is the processor `cpu` after it has spent `count` cycles, whatever became of its
registers. -/
structure Cpu.Spends (cpu : Cpu) (count : Nat) (later : Cpu) : Prop where
  cycles : later.cycles = cpu.cycles + UInt32.ofNat count
  isOn : later.isOn = cpu.isOn

namespace Cpu.Spends

theorem refl (cpu : Cpu) : cpu.Spends 0 cpu := ⟨by simp, rfl⟩

theorem trans {a b c : Cpu} {m n : Nat} (h : a.Spends m b) (h' : b.Spends n c) :
    a.Spends (m + n) c := by
  refine ⟨?_, h'.isOn.trans h.isOn⟩
  rw [h'.cycles, h.cycles, UInt32.ofNat_add, UInt32.add_assoc]

theorem of_registers (cpu : Cpu) (r : Registers) : cpu.Spends 0 { cpu with registers := r } :=
  ⟨by simp, rfl⟩

theorem of_spend {a b : Cpu} (hc : b.cycles = a.cycles) (hi : b.isOn = a.isOn) (count : Nat) :
    a.Spends count { b with cycles := b.cycles + UInt32.ofNat count } :=
  ⟨congrArg (· + UInt32.ofNat count) hc, hi⟩

theorem on {a b : Cpu} {n : Nat} (h : a.Spends n b) (ha : a.isOn = true) : b.isOn = true :=
  h.isOn.trans ha

end Cpu.Spends

theorem Cpu.Retains.spends {a b : Cpu} (h : a.Retains b) : a.Spends 0 b :=
  ⟨by rw [h.cycles]; simp, h.isOn⟩

/-- The contract of work that spends `cost value` cycles if it ends with `value` and none
otherwise. Values satisfy `good`, and the processor refuses only for reasons in `own`. -/
def Contract.timed {α : Type} (cpu : Cpu) (cost : α → Nat) (good : α → Prop)
    (own : Fault → Prop) : Contract α where
  returns value later := good value ∧ cpu.Spends (cost value) later
  refuses fault later := own fault ∧ cpu.Spends 0 later
  cut later := cpu.Spends 0 later

/-- Work that leaves the data alone when it is cut off has spent nothing then. -/
theorem Exchange.Fulfils.timed {α : Type} {e : Exchange α} {cpu : Cpu} {cost : α → Nat}
    {good : α → Prop} {own : Fault → Prop} {ends : α → Cpu → Prop}
    (h : e.Fulfils (.retaining cpu ends))
    (hends : ∀ value later, ends value later → good value ∧ cpu.Spends (cost value) later) :
    e.Fulfils (.timed cpu cost good own) := by
  refine h.mono hends ?_ ?_
  · exact fun _ _ hf => False.elim hf
  · exact fun later hc => Cpu.Retains.spends hc

namespace Routine

variable {α : Type}

theorem requireOn_bind {cpu : Cpu} (hon : cpu.isOn = true) (next : Unit → Routine α) :
    (alone Cpu.requireOn >>= next) cpu = next () cpu := by
  show (alone Cpu.requireOn cpu).andThen next = next () cpu
  rw [alone_requireOn hon]
  rfl

/-! ## The table

Two cycles are the least that a row costs. The rows that can cost more than they say stay within
seven, because the dearest rows are not among them. -/

theorem cycles_documented : ∀ i ∈ Instruction.documented,
    2 ≤ i.cycles ∧ i.cycles + i.pageCycle.toNat + i.operation.mostExtra ≤ 7 := by
  decide +kernel

/-! ## The routines that spend cycles -/

/-- Reading the instruction either finds a row of the table or refuses with the processor as it
was. -/
theorem fulfils_fetchInstruction {cpu : Cpu} (hon : cpu.isOn = true) :
    (fetchInstruction cpu).Fulfils ⟨fun i later => i ∈ Instruction.documented ∧ cpu.Retains later,
      fun fault later => (∃ opcode, fault = .invalidOpcode opcode cpu.registers.pc) ∧ later = cpu,
      fun later => later = cpu⟩ := by
  refine (fulfils_bind _ _ _).mpr ((fulfils_bind _ _ _).mpr ?_)
  rw [load, if_pos hon]
  refine ⟨rfl, fun opcode => ?_⟩
  show Exchange.Fulfils _ (passOpcode cpu.registers.pc opcode cpu)
  rw [passOpcode]
  cases hd : Instruction.decode opcode with
  | none => exact ⟨⟨opcode, rfl⟩, rfl⟩
  | some i => exact ⟨(Instruction.decode_eq_some_iff.mp hd).1, rfl, rfl, rfl⟩

theorem fulfils_finishStep {cpu fetched : Cpu} {i : Instruction}
    (hi : i ∈ Instruction.documented) (hf : cpu.Retains fetched) (hon : fetched.isOn = true) :
    (finishStep i fetched).Fulfils
      (.retaining cpu fun count later => (2 ≤ count ∧ count ≤ 7) ∧ cpu.Spends count later) := by
  -- The bounds of the answer are those of the row and the most that its operation adds.
  obtain ⟨hlo, hhi⟩ := cycles_documented i hi
  refine fulfils_bind_retaining ((tentative_fetchOperand i.mode).fulfils hf hon) (fun _ hc => hc) ?_
  rintro operand found ⟨-, hfound⟩
  refine fulfils_bind_retaining ((deferred_execute i.operation operand).fulfils hfound
    (hfound.on (hf.isOn.symm.trans hon))) (fun _ hc => hc) ?_
  rintro extra later ⟨hextra, hcycles, hison⟩
  refine ⟨⟨?_, ?_⟩, .of_spend hcycles hison _⟩
  · omega
  · have hp : (i.pageCycle && operand.crossed).toNat ≤ i.pageCycle.toNat := by
      cases i.pageCycle <;> cases operand.crossed <;> decide
    omega

theorem step_off {cpu : Cpu} (hoff : cpu.isOn = false) :
    step cpu = .done cpu (.error (.uninitialized .cpu)) := by
  obtain ⟨r, cycles, _⟩ := cpu
  obtain rfl : _ = false := hoff
  rfl

/-- **A step spends what it answers**, and that is between two and seven. It refuses only an
undocumented opcode, and then the processor is as it was; a refused access leaves the data as they
were. -/
theorem fulfils_step {cpu : Cpu} (hon : cpu.isOn = true) :
    (step cpu).Fulfils ⟨fun count later => (2 ≤ count ∧ count ≤ 7) ∧ cpu.Spends count later,
      fun fault later => (∃ opcode, fault = .invalidOpcode opcode cpu.registers.pc) ∧ later = cpu,
      cpu.Retains⟩ := by
  rw [step_eq]
  refine (fulfils_bind _ _ _).mpr (Exchange.Fulfils.mono ?_ ?_ ?_ (fulfils_fetchInstruction hon))
  · rintro i fetched ⟨hi, hf⟩
    refine Exchange.Fulfils.mono ?_ ?_ ?_ (fulfils_finishStep hi hf (hf.on hon))
    · exact fun _ _ hv => hv
    · exact fun _ _ hf => False.elim hf
    · exact fun _ hc => hc
  · exact fun _ _ hf => hf
  · rintro later rfl
    exact .refl later

theorem fulfils_serve {cpu : Cpu} (hon : cpu.isOn = true) (vector : InterruptVector)
    (text : String) :
    ((log .trace text >>= fun _ => enterInterrupt vector false >>= fun _ =>
        spend interruptCycles) cpu).Fulfils
      (.retaining cpu fun _ later => cpu.Spends interruptCycles later) := by
  show ((enterInterrupt vector false >>= fun _ => spend interruptCycles) cpu).Fulfils _
  refine fulfils_bind_retaining ((tentative_enterInterrupt vector false).fulfils (.refl cpu) hon)
    (fun _ hc => hc) ?_
  rintro _ later ⟨-, hl⟩
  exact .of_spend hl.cycles hl.isOn interruptCycles

theorem fulfils_nmi {cpu : Cpu} (hon : cpu.isOn = true) :
    (nmi cpu).Fulfils (.retaining cpu fun _ later => cpu.Spends interruptCycles later) := by
  rw [nmi, requireOn_bind hon]
  exact fulfils_serve hon .nmi _

/-- The flag that decides is the one at the call. -/
theorem fulfils_irq {cpu : Cpu} (hon : cpu.isOn = true) :
    (irq cpu).Fulfils (.retaining cpu fun _ later =>
      cpu.Spends (if cpu.registers.p.interrupt then interruptCycles else 0) later) := by
  rw [irq, requireOn_bind hon]
  show Exchange.Fulfils _ ((if cpu.registers.p.interrupt = true then _ else _ : Routine Unit) cpu)
  by_cases hi : cpu.registers.p.interrupt = true
  · simp only [hi, if_true]
    exact fulfils_serve hon .irq _
  · simp only [hi]
    exact .refl cpu

/-- Starting over counts from a cleared processor, also when the vector cannot be read. -/
theorem fulfils_reset {cpu : Cpu} (hon : cpu.isOn = true) :
    (reset cpu).Fulfils (.retaining cpu.cleared fun _ later => cpu.cleared.Spends 0 later) := by
  have hclear : alone Cpu.clear cpu = .done cpu.cleared (.ok ()) := by
    rw [alone, Cpu.clear, Cpu.requireOn, Action.require_bind_of_true _ _ hon]
    rfl
  have hfollow : (follow .reset cpu.cleared).Fulfils
      (.retaining cpu.cleared fun _ later => cpu.cleared.Spends 0 later) := by
    refine Exchange.Fulfils.mono ?_ ?_ ?_
      ((tentative_follow .reset).fulfils (.refl cpu.cleared) hon)
    · exact fun _ _ hv => hv.2.spends
    · exact fun _ _ hf => hf
    · exact fun _ hc => hc
  refine (fulfils_bind _ _ _).mpr ?_
  rw [hclear]
  exact hfollow

end Routine

end NesMachine
