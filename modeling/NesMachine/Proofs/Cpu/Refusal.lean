import NesMachine.Proofs.Cpu.Accesses
import NesMachine.Proofs.Cpu.Request
import NesMachine.Proofs.Exchange.Refusal

/-!
# `NesMachine/Proofs/Cpu/Refusal.lean` — a processor on a bus that refuses

What an instruction has done when the bus refuses one of its accesses is what it would have done up
to there on a bus that refuses nothing. That holds of everything that can be asked of a processor,
because it holds of every exchange. What the processor itself keeps is another matter, and there the
requests that a running program meets are better than the rest: they have not touched the data
registers or the count of cycles yet, whichever access is refused.

There is one more way to fail. A step refuses an undocumented opcode by itself, and then it has read
the opcode and done nothing else (`run_step_undocumented`).
-/

set_option autoImplicit false

namespace NesMachine

/-- Bare memory refuses nothing. -/
theorem Ram.reliable : Exchange.Reliable fun _ : Ram => True where
  read ram _ address := ⟨ram.read address, ram, rfl, trivial⟩
  write ram _ address value := ⟨ram.write address value, rfl, trivial⟩

theorem Exchange.run_ofRam {α : Type} (e : Exchange α) (ram : Ram) :
    e.run (Probe.ofRam ram) = (e.run ram).within fun state =>
      (state.1, ⟨state.2, [], [], #[].appendList (e.accesses ram)⟩) :=
  e.run_unbarred ram #[] fun access _ => by cases access <;> rfl

namespace Routine

/-! ## A step with bare memory -/

/-- An undocumented opcode is read, and that is all. -/
theorem run_step_undocumented {bus : Type} [Bus bus] {cpu : Cpu} {start later : bus}
    {opcode : UInt8} (hon : cpu.isOn = true)
    (hread : Bus.read start cpu.registers.pc = (.ok opcode, later))
    (hd : Instruction.decode opcode = none) :
    step.run (cpu, start)
      = ⟨.error (.invalidOpcode opcode cpu.registers.pc), (cpu, later), []⟩ := by
  have hfetch : fetchInstruction.run (cpu, start)
      = ⟨.error (.invalidOpcode opcode cpu.registers.pc), (cpu, later), []⟩ := by
    show (load cpu.registers.pc >>= passOpcode cpu.registers.pc).run (cpu, start) = _
    rw [run_bind, Action.bind_apply, run_load _ hon, hread]
    show ((passOpcode cpu.registers.pc opcode).run (cpu, later)).after [] = _
    rw [passOpcode, hd]
    rfl
  rw [step_eq, run_bind, Action.bind_apply, hfetch]
  rfl

theorem run_step_documented {cpu : Cpu} {ram : Ram} {i : Instruction} (hon : cpu.isOn = true)
    (hi : Instruction.decode (ram.read cpu.registers.pc) = some i) :
    ∃ count, (step.run (cpu, ram)).result = .ok count := by
  obtain ⟨r, c, _⟩ := cpu
  obtain rfl : _ = true := hon
  obtain ⟨count, later, ram', hrec, -⟩ := records_step ram r c hi
  have hresult := hrec.run_ofRam.1
  rw [run, Exchange.run_ofRam] at hresult
  exact ⟨count, hresult⟩

end Routine

namespace Cpu

/-! ## What a failed request leaves of the processor -/

/-- What a running program meets: its own steps, the two signals, and the way back. -/
def Request.IsService (request : Request) : Prop :=
  request = .step ∨ request = .irq ∨ request = .nmi ∨ request = .returnFromInterrupt

theorem fulfils_service {request : Request} (h : request.IsService) {cpu : Cpu}
    (hon : cpu.isOn = true) :
    (request.routine cpu).Fulfils ⟨fun _ _ => True, fun _ later => later = cpu, cpu.Retains⟩ := by
  have hwork {α : Type} {r : Routine α} {ends : α → Cpu → Prop} {answer : α → Answer}
      (hr : (r cpu).Fulfils (.retaining cpu ends)) :
      ((r >>= fun value => pure (answer value)) cpu).Fulfils
        ⟨fun _ _ => True, fun _ later => later = cpu, cpu.Retains⟩ :=
    Routine.fulfils_bind_retaining hr (fun _ hc => hc) fun _ _ _ => trivial
  obtain rfl | rfl | rfl | rfl := h
  · refine (Routine.fulfils_bind _ _ _).mpr
      (Exchange.Fulfils.mono ?_ ?_ ?_ (Routine.fulfils_step hon))
    · exact fun _ _ _ => trivial
    · exact fun _ _ hf => hf.2
    · exact fun _ hc => hc
  · exact hwork (Routine.fulfils_irq hon)
  · exact hwork (Routine.fulfils_nmi hon)
  · exact hwork (Routine.tentative_returnFromInterrupt.fulfils (.refl cpu) hon)

/-- A failure has touched no data, whoever refused. -/
theorem retains_of_service_error {bus : Type} [Bus bus] {request : Request} (h : request.IsService)
    {cpu : Cpu} {start : bus} (hon : cpu.isOn = true) {fault : Fault}
    (hf : (request.routine.run (cpu, start)).result = .error fault) :
    cpu.Retains (request.routine.run (cpu, start)).state.1 := by
  obtain hrefused | hcut := ((fulfils_service h hon).run start).of_error hf
  · exact Eq.symm hrefused ▸ Cpu.Retains.refl cpu
  · exact hcut

/-- With bare memory the only thing that can go wrong is an undocumented opcode, and that changes
nothing. -/
theorem state_of_service_error {request : Request} (h : request.IsService) {cpu : Cpu} {ram : Ram}
    (hon : cpu.isOn = true) {fault : Fault}
    (hf : (request.routine.run (cpu, ram)).result = .error fault) :
    (request.routine.run (cpu, ram)).state = (cpu, ram) := by
  -- Work that does not refuse by itself does not fail on a bus that refuses nothing.
  have hworks {α : Type} {r : Routine α} {ends : α → Cpu → Prop} {answer : α → Answer}
      (hr : (r cpu).Fulfils (.retaining cpu ends))
      (hfail : ((r >>= fun value => pure (answer value)).run (cpu, ram)).result = .error fault) :
      False := by
    have hall : ((r >>= fun value => pure (answer value)) cpu).Fulfils
        (.retaining cpu fun _ _ => True) :=
      Routine.fulfils_bind_retaining hr (fun _ hc => hc) fun _ _ _ => trivial
    exact ((hall.run_reliable Ram.reliable trivial).of_error hfail).1
  obtain rfl | rfl | rfl | rfl := h
  · have hstep : Request.step.routine.run (cpu, ram)
        = (Routine.step.run (cpu, ram)).andThen fun count state =>
            ⟨.ok (.cycles count), state, []⟩ :=
      congrFun (Routine.run_bind Routine.step fun count => pure (Answer.cycles count)) (cpu, ram)
    cases hd : Instruction.decode (ram.read cpu.registers.pc) with
    | none =>
      rw [hstep, Routine.run_step_undocumented hon rfl hd]
      rfl
    | some i =>
      obtain ⟨count, hok⟩ := Routine.run_step_documented hon hd
      rw [hstep] at hf
      generalize Routine.step.run (cpu, ram) = outcome at hok hf
      obtain ⟨_, later, log⟩ := outcome
      obtain rfl : _ = Except.ok count := hok
      exact absurd hf (by simp [Outcome.andThen, Outcome.after])
  · exact (hworks (Routine.fulfils_irq hon) hf).elim
  · exact (hworks (Routine.fulfils_nmi hon) hf).elim
  · exact (hworks (Routine.tentative_returnFromInterrupt.fulfils (.refl cpu) hon) hf).elim

/-! ## Two runs compared -/

/-- **A bus that refuses shows the same run, cut at the first refusal.**

The accesses made are those made on the same memory without refusals, up to and including the first
one that is refused. If there is none, everything is as it is without refusals, and that is as it is
in memory that is on. If there is one, the request fails for its address, and memory holds the
writes before it and no others.

A step, a signal or a return from an interrupt that fails leaves the data registers and the count of
cycles alone; and if it fails for its opcode, it has changed nothing at all. -/
theorem refusal_cuts_run (request : Request) (cpu : Cpu) (ram : Ram)
    (unreadable unwritable : List UInt16) (hon : cpu.isOn = true) :
    let free := request.routine.run (cpu, Probe.ofRam ram)
    let held := request.routine.run (cpu, (⟨ram, unreadable, unwritable, #[]⟩ : Probe))
    let home := request.routine.run (cpu, Memory.on ram)
    let accesses := free.state.2.accesses.toList
    (home.result = free.result ∧ home.state.1 = free.state.1 ∧
      home.state.2 = .on free.state.2.ram) ∧
    ((∀ access ∈ accesses, access.isBarred unreadable unwritable = false) →
      held.result = free.result ∧ held.state.1 = free.state.1 ∧
      held.state.2.ram = free.state.2.ram ∧ held.state.2.accesses.toList = accesses) ∧
    (∀ before access rest, accesses = before ++ access :: rest →
      (∀ other ∈ before, other.isBarred unreadable unwritable = false) →
      access.isBarred unreadable unwritable = true →
      held.result = .error (.invalidAddress access.address.toNat) ∧
      held.state.2.accesses.toList = before ++ [access.refused] ∧
      held.state.2.ram = ram.replay before) ∧
    (request.IsService → ∀ fault, held.result = .error fault →
      (held.state.1.registers.a = cpu.registers.a ∧ held.state.1.registers.x = cpu.registers.x ∧
        held.state.1.registers.y = cpu.registers.y ∧ held.state.1.cycles = cpu.cycles) ∧
      ∀ opcode address, fault = .invalidOpcode opcode address →
        held.state.1 = cpu ∧ held.state.2.ram = ram) := by
  intro free held home accesses
  let exchange := request.routine cpu
  have hfree : free = (exchange.run ram).within fun state =>
      (state.1, ⟨state.2, [], [], #[].appendList (exchange.accesses ram)⟩) :=
    Exchange.run_ofRam exchange ram
  have hhome : home = (exchange.run ram).within fun state => (state.1, .on state.2) :=
    Exchange.run_memory exchange ram
  have haccesses : accesses = exchange.accesses ram := by
    show free.state.2.accesses.toList = _
    rw [hfree]
    exact Array.toList_appendList
  have hheld (hnone : ∀ access ∈ accesses, access.isBarred unreadable unwritable = false) :
      held = (exchange.run ram).within fun state => (state.1,
        ⟨state.2, unreadable, unwritable, #[].appendList (exchange.accesses ram)⟩) := by
    rw [haccesses] at hnone
    exact exchange.run_unbarred ram #[] hnone
  have hcut {before rest : List Access} {access : Access}
      (hsplit : accesses = before ++ access :: rest)
      (hbefore : ∀ other ∈ before, other.isBarred unreadable unwritable = false)
      (hbarred : access.isBarred unreadable unwritable = true) :
      ∃ last log, held = ⟨.error (.invalidAddress access.address.toNat), (last, ⟨ram.replay before,
        unreadable, unwritable, #[].appendList (before ++ [access.refused])⟩), log⟩ :=
    exchange.run_barred ram #[] (haccesses.symm.trans hsplit) hbefore hbarred
  refine ⟨?_, ?_, ?_, ?_⟩
  · rw [hhome, hfree]
    exact ⟨rfl, rfl, rfl⟩
  · intro hnone
    rw [hheld hnone, hfree, haccesses]
    exact ⟨rfl, rfl, rfl, Array.toList_appendList⟩
  · intro before access rest hsplit hbefore hbarred
    obtain ⟨last, log, hrun⟩ := hcut hsplit hbefore hbarred
    rw [hrun]
    exact ⟨rfl, Array.toList_appendList, rfl⟩
  · intro hservice fault hf
    refine ⟨?_, ?_⟩
    · have hretains : cpu.Retains held.state.1 := retains_of_service_error hservice hon hf
      have hdata := hretains.data
      simp only [Registers.data, Prod.mk.injEq] at hdata
      exact ⟨hdata.1, hdata.2.1, hdata.2.2, hretains.cycles⟩
    · rintro opcode address rfl
      cases hfirst : accesses.find? (·.isBarred unreadable unwritable) with
      | none =>
        have hrun := hheld fun access ha => by
          simpa using List.find?_eq_none.mp hfirst access ha
        rw [hrun] at hf ⊢
        have hstate : (exchange.run ram).state = (cpu, ram) :=
          state_of_service_error hservice hon hf
        exact ⟨congrArg Prod.fst hstate, congrArg Prod.snd hstate⟩
      | some access =>
        obtain ⟨hbarred, before, rest, hsplit, hbefore⟩ := List.find?_eq_some_iff_append.mp hfirst
        obtain ⟨last, log, hrun⟩ := hcut hsplit (by simpa using hbefore) hbarred
        rw [hrun] at hf
        exact absurd hf (by simp)

/-- A processor about to run the `JSR` of `callRam`. -/
def callCpu : Cpu := ⟨.powerOn, 0, true⟩

def callRam : Ram := Ram.zeros.write 0 0x20

/-- A `JSR` whose second push is refused. The first one holds. -/
def callProbe : Probe := ⟨callRam, [0xFFFF], [0x01FE], #[]⟩

theorem refusal_cuts_call :
    callCpu.isOn = true ∧
    (Request.step.routine.run (callCpu, Probe.ofRam callRam)).state.2.accesses.toList
      = [.read 0x0000 0x20, .read 0x0001 0x00, .read 0x0002 0x00, .write 0x01FF 0x00]
        ++ .write 0x01FE 0x02 :: [] ∧
    Request.step.IsService ∧
    (Request.step.routine.run (callCpu, callProbe)).result = .error (.invalidAddress 0x01FE) ∧
    (Request.step.routine.run (callCpu, callProbe)).state.2.accesses.toList
      = [.read 0x0000 0x20, .read 0x0001 0x00, .read 0x0002 0x00, .write 0x01FF 0x00,
        .writeRefused 0x01FE 0x02] ∧
    (Request.step.routine.run (callCpu, callProbe)).state.1.cycles = 0 := by
  have haccesses :
      (Request.step.routine.run (callCpu, Probe.ofRam callRam)).state.2.accesses.toList
        = [.read 0x0000 0x20, .read 0x0001 0x00, .read 0x0002 0x00, .write 0x01FF 0x00]
          ++ .write 0x01FE 0x02 :: [] := by
    decide +kernel
  have hservice : Request.step.IsService := Or.inl rfl
  obtain ⟨-, -, hcut, hkept⟩ := refusal_cuts_run .step callCpu callRam [0xFFFF] [0x01FE] rfl
  obtain ⟨hresult, hheld, -⟩ := hcut _ _ _ haccesses (by decide) (by decide)
  exact ⟨rfl, haccesses, hservice, hresult, hheld, (hkept hservice _ hresult).1.2.2.2⟩

end Cpu

end NesMachine
