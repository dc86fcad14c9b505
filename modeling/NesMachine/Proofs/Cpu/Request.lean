import NesMachine.Proofs.Cpu.Clock

/-!
# `NesMachine/Proofs/Cpu/Request.lean` — a processor in somebody's hands

A `Request` is anything that can be asked of a processor from outside: switching it, setting its
registers, having it do an instruction, serving a signal, and the single accesses. A `Call` is a
request together with the bus it is made on. The bus belongs to the call and not to the processor,
because the caller may bring another one each time, or the same one after changing it.

A list of calls is then a whole history of the processor. `history` records what each call came to,
with the processor before and after it, so that what happened can be counted.

Two facts about single requests are proved here. A processor that is off refuses everything but
being switched on and having its registers set, and touches no bus (`request_off`); a processor
that is on spends cycles on three requests only (`fulfils_request`).
-/

set_option autoImplicit false

namespace NesMachine

namespace Cpu

/-- What can be asked of a processor from outside. -/
inductive Request where
  | powerOn
  | powerOff
  | clear
  | setRegisters (f : Registers → Registers)
  | reset
  | irq
  | nmi
  | returnFromInterrupt
  | load (address : UInt16)
  | loadWord (address : UInt16)
  | store (address : UInt16) (value : UInt8)
  | storeWord (address value : UInt16)
  | push (value : UInt8)
  | pop
  | pushWord (value : UInt16)
  | popWord
  | step

inductive Answer where
  | nothing
  | byte (value : UInt8)
  | word (value : UInt16)
  | cycles (count : Nat)

/-- The work that a request is. -/
def Request.routine : Request → Routine Answer
  | powerOn => do Routine.alone Cpu.powerOn; return .nothing
  | powerOff => do Routine.alone Cpu.powerOff; return .nothing
  | clear => do Routine.alone Cpu.clear; return .nothing
  | setRegisters f => do Routine.alone (Cpu.setRegisters f); return .nothing
  | reset => do Routine.reset; return .nothing
  | irq => do Routine.irq; return .nothing
  | nmi => do Routine.nmi; return .nothing
  | returnFromInterrupt => do Routine.returnFromInterrupt; return .nothing
  | load address => return .byte (← Routine.load address)
  | loadWord address => return .word (← Routine.loadWord address)
  | store address value => do Routine.store address value; return .nothing
  | storeWord address value => do Routine.storeWord address value; return .nothing
  | push value => do Routine.push value; return .nothing
  | pop => return .byte (← Routine.pop)
  | pushWord value => do Routine.pushWord value; return .nothing
  | popWord => return .word (← Routine.popWord)
  | step => return .cycles (← Routine.step)

def Request.switches : Request → Bool
  | powerOn => true
  | powerOff => true
  | _ => false

/-- The requests that set the count of cycles to zero. Switching on does so too, but only a
processor that is off. -/
def Request.rewinds : Request → Bool
  | powerOff => true
  | clear => true
  | reset => true
  | _ => false

structure Call (bus : Type) where
  request : Request
  on : bus

/-- What a call came to. -/
structure Event where
  request : Request
  before : Cpu
  result : Except Fault Answer
  after : Cpu

section

variable {bus : Type} [Bus bus]

/-- The call, made on a processor. -/
def Call.event (call : Call bus) (cpu : Cpu) : Event :=
  let outcome := call.request.routine.run (cpu, call.on)
  ⟨call.request, cpu, outcome.result, outcome.state.1⟩

def history : List (Call bus) → Cpu → List Event
  | [], _ => []
  | call :: calls, cpu => call.event cpu :: history calls (call.event cpu).after

def afterCalls : List (Call bus) → Cpu → Cpu
  | [], cpu => cpu
  | call :: calls, cpu => afterCalls calls (call.event cpu).after

end

/-! ## A processor that is off -/

/-- **A processor that is off is out of reach.** It refuses before its first access. -/
theorem request_off {cpu : Cpu} (hoff : cpu.isOn = false) {request : Request}
    (hp : request ≠ .powerOn) (hs : ∀ f, request ≠ .setRegisters f) :
    request.routine cpu = .done cpu (.error (.uninitialized .cpu)) := by
  obtain ⟨r, cycles, _⟩ := cpu
  subst hoff
  cases request with
  | powerOn => exact absurd rfl hp
  | setRegisters f => exact absurd rfl (hs f)
  | _ => rfl

/-! ## A processor that is on -/

def Request.cost (request : Request) (cpu : Cpu) (answer : Answer) : Nat :=
  match request, answer with
  | step, .cycles count => count
  | nmi, _ => interruptCycles
  | irq, _ => if cpu.registers.p.interrupt then interruptCycles else 0
  | _, _ => 0

/-- The answers that a request gives: a step answers a count between two and seven. -/
def Request.Admits (request : Request) (answer : Answer) : Prop :=
  match request with
  | step => ∃ count, answer = .cycles count ∧ 2 ≤ count ∧ count ≤ 7
  | _ => True

theorem fulfils_tentative {α : Type} {cpu : Cpu} (hon : cpu.isOn = true) {r : Routine α}
    (h : Routine.Tentative (fun _ => True) r) (f : α → Answer) {own : Fault → Prop} :
    ((r >>= fun value => pure (f value)) cpu).Fulfils
      (.timed cpu (fun _ => 0) (fun _ => True) own) := by
  have hall : Routine.Tentative (fun _ => True) (r >>= fun value => pure (f value)) :=
    .bind h fun _ _ => .pure trivial
  exact (hall.fulfils (.refl cpu) hon).timed fun _ _ hv => ⟨trivial, hv.2.spends⟩

theorem fulfils_silent {cpu start : Cpu} {cost : Nat} {r : Routine Unit} {own : Fault → Prop}
    (h : (r cpu).Fulfils (.retaining start fun _ later => start.Spends cost later)) :
    ((r >>= fun _ => pure Answer.nothing) cpu).Fulfils
      (.timed start (fun _ => cost) (fun _ => True) own) := by
  refine Routine.fulfils_bind_retaining h ?_ ?_
  · exact fun _ hc => hc.spends
  · exact fun _ _ hv => ⟨trivial, hv⟩

/-- **Three requests spend cycles.** A request that does not rewind the count moves it by its cost,
and not at all if it is refused, by the processor or by the bus. -/
theorem fulfils_request {cpu : Cpu} (hon : cpu.isOn = true) {request : Request}
    (hr : request.rewinds = false) :
    (request.routine cpu).Fulfils
      (.timed cpu (request.cost cpu) request.Admits fun _ => True) := by
  cases request with
  | powerOn =>
    have hrefuse : (Request.powerOn.routine cpu)
        = .done cpu (.error (.alreadyInitialized .cpu)) := by
      obtain ⟨r, cycles, _⟩ := cpu
      subst hon
      rfl
    rw [hrefuse]
    exact ⟨trivial, .refl cpu⟩
  | powerOff => exact absurd hr (by simp [Request.rewinds])
  | clear => exact absurd hr (by simp [Request.rewinds])
  | reset => exact absurd hr (by simp [Request.rewinds])
  | setRegisters f => exact ⟨trivial, .of_registers cpu (f cpu.registers)⟩
  | irq => exact fulfils_silent (Routine.fulfils_irq hon)
  | nmi => exact fulfils_silent (Routine.fulfils_nmi hon)
  | returnFromInterrupt => exact fulfils_tentative hon Routine.tentative_returnFromInterrupt _
  | load address => exact fulfils_tentative hon (.load address) _
  | loadWord address => exact fulfils_tentative hon (Routine.tentative_loadWord address) _
  | store address value => exact fulfils_tentative hon (.store address value) _
  | storeWord address value => exact fulfils_tentative hon (Routine.tentative_storeWord address value) _
  | push value => exact fulfils_tentative hon (Routine.tentative_push value) _
  | pop => exact fulfils_tentative hon Routine.tentative_pop _
  | pushWord value => exact fulfils_tentative hon (Routine.tentative_pushWord value) _
  | popWord => exact fulfils_tentative hon Routine.tentative_popWord _
  | step =>
    refine (Routine.fulfils_bind _ _ _).mpr
      (Exchange.Fulfils.mono ?_ ?_ ?_ (Routine.fulfils_step hon))
    · intro count later h
      exact ⟨⟨count, rfl, h.1⟩, h.2⟩
    · rintro fault later ⟨-, rfl⟩
      exact ⟨trivial, .refl later⟩
    · intro later h
      exact h.spends

end Cpu

end NesMachine
