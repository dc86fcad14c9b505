import NesMachine.Bus
import NesMachine.Cpu

/-!
# `NesMachine/Cpu/Routine.lean` — what the processor says to its bus

What the processor does is fixed by what its bus answers, and by nothing else about the bus. So a
piece of its work is written down once, without a bus, as an `Exchange`: a tree whose nodes are the
accesses it asks for, with one branch for every byte a read may answer. Connecting the tree to a bus
is `Exchange.run`.

Every access carries the processor as it is at that moment, because a bus may refuse, and then that
is the processor that remains.

A `Routine` is an exchange that depends on the processor it starts with. Routines are put together
with `do`, and `run_bind` says that a routine made of two runs the two one after the other on every
bus. The point of the tree is that facts about all buses at once are inductions on it.
-/

set_option autoImplicit false

namespace NesMachine

/-- A conversation between the processor and a bus, with the answer of type `α` at its end. -/
inductive Exchange (α : Type) where
  /-- The end: the processor, and a value or a refusal of its own. -/
  | done (cpu : Cpu) (result : Except Fault α)
  /-- Something worth logging. -/
  | report (entry : Log.Entry) (next : Exchange α)
  /-- A read; `next` goes on with the byte answered. -/
  | read (cpu : Cpu) (address : UInt16) (next : UInt8 → Exchange α)
  /-- A write. -/
  | write (cpu : Cpu) (address : UInt16) (value : UInt8) (next : Exchange α)

namespace Exchange

variable {α β γ : Type}

/-- Goes on after the end of an exchange that did not refuse. -/
def andThen : Exchange α → (α → Cpu → Exchange β) → Exchange β
  | done cpu (.ok value), next => next value cpu
  | done cpu (.error fault), _ => done cpu (.error fault)
  | report entry rest, next => report entry (rest.andThen next)
  | read cpu address rest, next => read cpu address fun byte => (rest byte).andThen next
  | write cpu address value rest, next => write cpu address value (rest.andThen next)

/-- Has the exchange with a bus. The first access that the bus refuses ends it. -/
def run {bus : Type} [Bus bus] : Exchange α → bus → Outcome (Cpu × bus) α
  | done cpu result, bus => ⟨result, (cpu, bus), []⟩
  | report entry next, bus => (next.run bus).after [entry]
  | read cpu address next, bus =>
    match Bus.read bus address with
    | (.ok value, bus) => (next value).run bus
    | (.error fault, bus) => ⟨.error fault, (cpu, bus), []⟩
  | write cpu address value next, bus =>
    match Bus.write bus address value with
    | (.ok (), bus) => next.run bus
    | (.error fault, bus) => ⟨.error fault, (cpu, bus), []⟩

theorem andThen_done (exchange : Exchange α) :
    (exchange.andThen fun value cpu => done cpu (.ok value)) = exchange := by
  induction exchange with
  | done cpu result => cases result <;> rfl
  | report entry next ih => simp [andThen, ih]
  | read cpu address next ih => simp [andThen, ih]
  | write cpu address value next ih => simp [andThen, ih]

theorem andThen_assoc (exchange : Exchange α) (next : α → Cpu → Exchange β)
    (last : β → Cpu → Exchange γ) :
    (exchange.andThen next).andThen last
      = exchange.andThen fun value cpu => (next value cpu).andThen last := by
  induction exchange with
  | done cpu result => cases result <;> rfl
  | report entry rest ih => simp [andThen, ih]
  | read cpu address rest ih => simp [andThen, ih]
  | write cpu address value rest ih => simp [andThen, ih]

/-- An exchange in two parts has the second with the processor and the bus that the first left. -/
theorem run_andThen {bus : Type} [Bus bus] (exchange : Exchange α)
    (next : α → Cpu → Exchange β) (start : bus) :
    (exchange.andThen next).run start
      = (exchange.run start).andThen fun value state => (next value state.1).run state.2 := by
  induction exchange generalizing start with
  | done cpu result => cases result <;> rfl
  | report entry rest ih => simp [andThen, run, ih, Outcome.andThen_after]
  | read cpu address rest ih =>
    simp only [andThen, run]
    rcases Bus.read start address with ⟨_ | value, later⟩
    · rfl
    · exact ih value later
  | write cpu address value rest ih =>
    simp only [andThen, run]
    rcases Bus.write start address value with ⟨_ | _, later⟩
    · rfl
    · exact ih later

end Exchange

/-- A piece of the processor's work. -/
def Routine (α : Type) : Type := Cpu → Exchange α

namespace Routine

variable {α β : Type}

instance : Monad Routine where
  pure value := fun cpu => .done cpu (.ok value)
  bind first next := fun cpu => (first cpu).andThen next

instance : LawfulMonad Routine :=
  LawfulMonad.mk' Routine
    (fun first => funext fun cpu => Exchange.andThen_done (first cpu))
    (fun _ _ => rfl)
    (fun first next last => funext fun cpu => Exchange.andThen_assoc (first cpu) next last)

/-- The routine at work on a processor and the bus it is connected to. -/
def run {bus : Type} [Bus bus] (routine : Routine α) : Action (Cpu × bus) α := fun state =>
  (routine state.1).run state.2

/-- Refuses for a reason of the processor's own. -/
def refuse (fault : Fault) : Routine α := fun cpu => .done cpu (.error fault)

/-- Logs one entry. -/
def log (level : Log.Level) (text : String) : Routine Unit := fun cpu =>
  .report ⟨level, text⟩ (.done cpu (.ok ()))

/-- The registers as they are. -/
def registers : Routine Registers := fun cpu => .done cpu (.ok cpu.registers)

/-- Changes the registers. -/
def change (f : Registers → Registers) : Routine Unit := fun cpu =>
  .done { cpu with registers := f cpu.registers } (.ok ())

/-- Counts cycles as spent. -/
def spend (cycles : Nat) : Routine Unit := fun cpu =>
  .done { cpu with cycles := cpu.cycles + UInt32.ofNat cycles } (.ok ())

/-- Does something to the processor alone. -/
def alone (action : Action Cpu α) : Routine α := fun cpu =>
  match action cpu with
  | ⟨result, cpu, log⟩ => log.foldr .report (.done cpu result)

/-! ## Routines at work

What the primitive routines do is the same on every bus, because they do not ask it anything. With
`run_bind` these equations take a routine apart down to its accesses. -/

section

variable {bus : Type} [Bus bus] (state : Cpu × bus)

@[simp] theorem run_pure (value : α) :
    (pure value : Routine α).run state = ⟨.ok value, state, []⟩ := rfl

@[simp] theorem run_refuse (fault : Fault) :
    (refuse fault : Routine α).run state = ⟨.error fault, state, []⟩ := rfl

@[simp] theorem run_log (level : Log.Level) (text : String) :
    (log level text).run state = ⟨.ok (), state, [⟨level, text⟩]⟩ := rfl

@[simp] theorem run_registers :
    registers.run state = ⟨.ok state.1.registers, state, []⟩ := rfl

@[simp] theorem run_change (f : Registers → Registers) :
    (change f).run state
      = ⟨.ok (), ({ state.1 with registers := f state.1.registers }, state.2), []⟩ := rfl

@[simp] theorem run_spend (cycles : Nat) :
    (spend cycles).run state
      = ⟨.ok (), ({ state.1 with cycles := state.1.cycles + .ofNat cycles }, state.2), []⟩ := rfl

end

/-- A routine in two parts does the second with the processor and the bus that the first left. -/
theorem run_bind {bus : Type} [Bus bus] (first : Routine α) (next : α → Routine β) :
    ((first >>= next).run : Action (Cpu × bus) β)
      = first.run >>= fun value => (next value).run := by
  funext state
  exact Exchange.run_andThen (first state.1) next state.2

end Routine

end NesMachine
