import NesMachine.Cpu.Step
import NesMachine.Proofs.Exchange.Contract

/-!
# `NesMachine/Proofs/Cpu/Tentative.lean` — work that can be broken off

Any access may be refused, and then the processor stays as it is at that moment. For a program it
matters that its data are not half changed then: the accumulator, the index registers, and the count
of cycles. They are not, because everything that the processor does on its way to the last access is
`Tentative`. Such work moves the program counter and the stack pointer and changes flags, and leaves
the data alone. What an operation does to the data it does after its last access, and so every
operation is `Deferred`.

Both are defined by what a routine is put together from and not by what it does. So each routine is
looked at once, here, and what follows from being tentative or deferred is one induction for each
consequence: how such work ends (`Tentative.fulfils`, `Deferred.fulfils`), and that it logs nothing
(`Tentative.quiet`, `Deferred.quiet`).
-/

set_option autoImplicit false

namespace NesMachine

/-- The registers that programs compute with. -/
def Registers.data (r : Registers) : UInt8 × UInt8 × UInt8 := (r.a, r.x, r.y)

/-- `later` is the processor `cpu` with its data registers and its count of cycles untouched. -/
structure Cpu.Retains (cpu later : Cpu) : Prop where
  data : later.registers.data = cpu.registers.data
  cycles : later.cycles = cpu.cycles
  isOn : later.isOn = cpu.isOn

namespace Cpu.Retains

theorem refl (cpu : Cpu) : cpu.Retains cpu := ⟨rfl, rfl, rfl⟩

theorem on {a b : Cpu} (h : a.Retains b) (ha : a.isOn = true) : b.isOn = true :=
  h.isOn.trans ha

theorem with_registers {a b : Cpu} (h : a.Retains b) {r : Registers}
    (hr : r.data = b.registers.data) : a.Retains { b with registers := r } :=
  ⟨hr.trans h.data, h.cycles, h.isOn⟩

end Cpu.Retains

/-- The contract of work that has no reason of its own to refuse, that ends as `ends` says, and that
leaves the data of `cpu` alone when it is cut off. -/
def Contract.retaining {α : Type} (cpu : Cpu) (ends : α → Cpu → Prop) : Contract α where
  returns := ends
  refuses _ _ := False
  cut := cpu.Retains

/-- The most that an operation adds to its row in the table: two, for a branch that is taken and
leaves its page. -/
def Operation.mostExtra : Operation → Nat
  | .branch _ => 2
  | _ => 0

namespace Routine

/-- The routine is made of accesses and of changes that leave the data registers alone. Its values
satisfy `good`. -/
inductive Tentative : {α : Type} → (α → Prop) → Routine α → Prop where
  | pure {α : Type} {good : α → Prop} {value : α} (h : good value) :
    Tentative good (pure value : Routine α)
  | bind {α β : Type} {good : α → Prop} {good' : β → Prop} {first : Routine α}
    {next : α → Routine β} (h : Tentative good first)
    (hn : ∀ value, good value → Tentative good' (next value)) : Tentative good' (first >>= next)
  | registers : Tentative (fun _ => True) registers
  | requireOn : Tentative (fun _ => True) (alone Cpu.requireOn)
  | load (address : UInt16) : Tentative (fun _ => True) (load address)
  | store (address : UInt16) (value : UInt8) : Tentative (fun _ => True) (store address value)
  | change {f : Registers → Registers} (h : ∀ r, (f r).data = r.data) :
    Tentative (fun _ => True) (change f)

/-- The routine changes data registers only when it has no access left to make. -/
inductive Deferred : {α : Type} → (α → Prop) → Routine α → Prop where
  | tentative {α : Type} {good : α → Prop} {r : Routine α} (h : Tentative good r) : Deferred good r
  | after {α β : Type} {good : α → Prop} {good' : β → Prop} {first : Routine α}
    {next : α → Routine β} (h : Tentative good first)
    (hn : ∀ value, good value → Deferred good' (next value)) : Deferred good' (first >>= next)
  | finish {α : Type} {good : α → Prop} (f : Registers → Registers) {value : α} (h : good value) :
    Deferred good (change f >>= fun _ => Pure.pure value)

/-! ## How such work ends -/

section

variable {α : Type} {good : α → Prop} {r : Routine α}

theorem alone_requireOn {cpu : Cpu} (hon : cpu.isOn = true) :
    alone Cpu.requireOn cpu = .done cpu (.ok ()) := by
  rw [alone, Cpu.requireOn, Action.require_of_true _ hon]
  rfl

theorem alone_requireOn_off {cpu : Cpu} (hoff : cpu.isOn = false) :
    alone Cpu.requireOn cpu = .done cpu (.error (.uninitialized .cpu)) := by
  rw [alone, Cpu.requireOn, Action.require_of_false _ hoff]
  rfl

/-- What follows work under a retaining contract has to start from what such work ends with, and may
be cut off with the data untouched. -/
theorem fulfils_bind_retaining {β : Type} {c : Contract β} {next : α → Routine β} {start cpu : Cpu}
    {ends : α → Cpu → Prop} (h : (r cpu).Fulfils (.retaining start ends))
    (hc : ∀ later, start.Retains later → c.cut later)
    (hn : ∀ value later, ends value later → (next value later).Fulfils c) :
    ((r >>= next) cpu).Fulfils c :=
  (fulfils_bind r next cpu).mpr (Exchange.Fulfils.mono hn (fun _ _ hf => False.elim hf) hc h)

/-- **Tentative work leaves the data alone**, done or cut off. `start` is the processor from which
the data are. -/
theorem Tentative.fulfils (h : Tentative good r) {start cpu : Cpu} (hs : start.Retains cpu)
    (hon : cpu.isOn = true) :
    (r cpu).Fulfils (.retaining start fun value later => good value ∧ start.Retains later) := by
  induction h generalizing cpu with
  | pure h => exact ⟨h, hs⟩
  | bind h hn ih ihn =>
    refine fulfils_bind_retaining (ih hs hon) (fun _ hc => hc) fun value later ⟨hv, hl⟩ => ?_
    exact ihn value hv hl (hl.on (hs.isOn.symm.trans hon))
  | registers => exact ⟨trivial, hs⟩
  | requireOn =>
    rw [alone_requireOn hon]
    exact ⟨trivial, hs⟩
  | load address =>
    rw [Routine.load, if_pos hon]
    exact ⟨hs, fun _ => ⟨trivial, hs⟩⟩
  | store address value =>
    rw [Routine.store, if_pos hon]
    exact ⟨hs, trivial, hs⟩
  | change h => exact ⟨trivial, hs.with_registers (h _)⟩

/-- **Deferred work leaves the data alone when it is cut off.** Done, it has spent no cycles. -/
theorem Deferred.fulfils (h : Deferred good r) {start cpu : Cpu} (hs : start.Retains cpu)
    (hon : cpu.isOn = true) :
    (r cpu).Fulfils (.retaining start fun value later =>
      good value ∧ later.cycles = start.cycles ∧ later.isOn = start.isOn) := by
  induction h generalizing cpu with
  | tentative h =>
    refine (h.fulfils hs hon).mono ?_ ?_ ?_
    · exact fun _ _ hv => ⟨hv.1, hv.2.cycles, hv.2.isOn⟩
    · exact fun _ _ hf => hf
    · exact fun _ hc => hc
  | after h hn ih =>
    refine fulfils_bind_retaining (h.fulfils hs hon) (fun _ hc => hc) fun value later ⟨hv, hl⟩ => ?_
    exact ih value hv hl (hl.on (hs.isOn.symm.trans hon))
  | finish f h => exact ⟨h, hs.cycles, hs.isOn⟩

end

/-! ## Nothing is logged -/

section

variable {α β : Type} {good : α → Prop} {r : Routine α}

/-- The routine logs nothing, whatever the bus, and its values satisfy `good`. -/
def Quiet (good : α → Prop) (r : Routine α) : Prop :=
  ∀ (bus : Type) [Bus bus] (state : Cpu × bus),
    (r.run state).log = [] ∧ ∀ value, (r.run state).result = .ok value → good value

theorem Quiet.bind {good' : β → Prop} {first : Routine α} {next : α → Routine β}
    (h : Quiet good first) (hn : ∀ value, good value → Quiet good' (next value)) :
    Quiet good' (first >>= next) := by
  intro bus _ state
  rw [run_bind, Action.bind_apply]
  obtain ⟨hlog, hgood⟩ := h bus state
  generalize first.run state = outcome at hlog hgood ⊢
  obtain ⟨fault | value, later, log⟩ := outcome
  · refine ⟨hlog, ?_⟩
    rintro value ⟨⟩
  · obtain rfl : log = [] := hlog
    exact hn value (hgood value rfl) bus later

theorem quiet_of_done {f : Cpu → Cpu} {value : α}
    (h : ∀ cpu, r cpu = .done (f cpu) (.ok value)) (hgood : good value) : Quiet good r := by
  intro bus _ state
  rw [run, h]
  refine ⟨rfl, ?_⟩
  rintro _ ⟨⟩
  exact hgood

theorem Tentative.quiet (h : Tentative good r) : Quiet good r := by
  induction h with
  | pure h => exact quiet_of_done (fun _ => rfl) h
  | bind h hn ih ihn => exact ih.bind ihn
  | registers => exact fun _ _ _ => ⟨rfl, fun _ _ => trivial⟩
  | requireOn =>
    intro bus _ state
    refine ⟨?_, fun _ _ => trivial⟩
    cases hon : state.1.isOn with
    | false => rw [Routine.run, alone_requireOn_off hon, Exchange.run]
    | true => rw [Routine.run, alone_requireOn hon, Exchange.run]
  | load address =>
    intro bus _ state
    refine ⟨?_, fun _ _ => trivial⟩
    cases hon : state.1.isOn with
    | false => rw [run_load_off address hon]
    | true => rw [run_load address hon]
  | store address value =>
    intro bus _ state
    refine ⟨?_, fun _ _ => trivial⟩
    cases hon : state.1.isOn with
    | false => rw [run_store_off address value hon]
    | true => rw [run_store address value hon]
  | change h => exact quiet_of_done (fun _ => rfl) trivial

theorem Deferred.quiet (h : Deferred good r) : Quiet good r := by
  induction h with
  | tentative h => exact h.quiet
  | after h hn ih => exact Quiet.bind h.quiet ih
  | finish f h => exact quiet_of_done (fun _ => rfl) h

end

/-! ## Tentative routines -/

section

variable {α : Type}

theorem tentative_registers {f : Registers → α} :
    Tentative (fun _ => True) (registers >>= fun r => pure (f r)) :=
  .bind .registers fun _ _ => .pure trivial

theorem tentative_jump (address : UInt16) : Tentative (fun _ => True) (jump address) :=
  .change fun _ => rfl

theorem tentative_loadSplit (low high : UInt16) :
    Tentative (fun _ => True) (loadSplit low high) :=
  .bind (.load low) fun _ _ => .bind (.load high) fun _ _ => .pure trivial

theorem tentative_loadWord (address : UInt16) : Tentative (fun _ => True) (loadWord address) :=
  tentative_loadSplit address (address + 1)

theorem tentative_storeWord (address value : UInt16) :
    Tentative (fun _ => True) (storeWord address value) :=
  .bind (.store _ _) fun _ _ => .store _ _

theorem tentative_push (value : UInt8) : Tentative (fun _ => True) (push value) :=
  .bind .registers fun _ _ => .bind (.store _ _) fun _ _ => .change fun _ => rfl

theorem tentative_pop : Tentative (fun _ => True) pop :=
  .bind .requireOn fun _ _ => .bind (.change fun _ => rfl) fun _ _ =>
    .bind .registers fun _ _ => .load _

theorem tentative_pushWord (value : UInt16) : Tentative (fun _ => True) (pushWord value) :=
  .bind (tentative_push _) fun _ _ => tentative_push _

theorem tentative_popWord : Tentative (fun _ => True) popWord :=
  .bind tentative_pop fun _ _ => .bind tentative_pop fun _ _ => .pure trivial

theorem tentative_follow (vector : InterruptVector) : Tentative (fun _ => True) (follow vector) :=
  .bind (tentative_loadWord _) fun _ _ => tentative_jump _

theorem tentative_enterInterrupt (vector : InterruptVector) (brk : Bool) :
    Tentative (fun _ => True) (enterInterrupt vector brk) :=
  .bind .registers fun _ _ => .bind (tentative_pushWord _) fun _ _ =>
    .bind .registers fun _ _ => .bind (tentative_push _) fun _ _ => tentative_follow vector

theorem tentative_returnFromInterrupt : Tentative (fun _ => True) returnFromInterrupt :=
  .bind tentative_pop fun _ _ => .bind (.change fun _ => rfl) fun _ _ =>
    .bind tentative_popWord fun _ _ => tentative_jump _

theorem tentative_fetch : Tentative (fun _ => True) fetch :=
  .bind .registers fun _ _ => .bind (.load _) fun _ _ =>
    .bind (.change fun _ => rfl) fun _ _ => .pure trivial

theorem tentative_fetchWord : Tentative (fun _ => True) fetchWord :=
  .bind .registers fun _ _ => .bind (tentative_loadWord _) fun _ _ =>
    .bind (.change fun _ => rfl) fun _ _ => .pure trivial

theorem tentative_fetchOperand (mode : AddressingMode) :
    Tentative (fun _ => True) (fetchOperand mode) := by
  have byte {next : UInt8 → Routine Operand} (h : ∀ b, Tentative (fun _ => True) (next b)) :
      Tentative (fun _ => True) (fetch >>= next) := .bind tentative_fetch fun b _ => h b
  have word {next : UInt16 → Routine Operand} (h : ∀ w, Tentative (fun _ => True) (next w)) :
      Tentative (fun _ => True) (fetchWord >>= next) := .bind tentative_fetchWord fun w _ => h w
  cases mode with
  | implied => exact .pure trivial
  | accumulator => exact .pure trivial
  | immediate => exact byte fun _ => .pure trivial
  | zeroPage => exact byte fun _ => .pure trivial
  | zeroPageX => exact byte fun _ => tentative_registers
  | zeroPageY => exact byte fun _ => tentative_registers
  | absolute => exact word fun _ => .pure trivial
  | absoluteX => exact word fun _ => tentative_registers
  | absoluteY => exact word fun _ => tentative_registers
  | indirect =>
    exact word fun _ => .bind (tentative_loadSplit _ _) fun _ _ => .pure trivial
  | indirectX =>
    exact byte fun _ => .bind .registers fun _ _ =>
      .bind (tentative_loadSplit _ _) fun _ _ => .pure trivial
  | indirectY =>
    exact byte fun _ => .bind (tentative_loadSplit _ _) fun _ _ => tentative_registers
  | relative => exact byte fun _ => tentative_registers

theorem tentative_operandValue (operand : Operand) :
    Tentative (fun _ => True) (operandValue operand) := by
  cases operand with
  | nothing => exact .pure trivial
  | accumulator => exact tentative_registers
  | value v => exact .pure trivial
  | place address crossed => exact .load address
  | target address => exact .pure trivial

/-! ## Operations -/

theorem tentative_extra {op : Operation} {first : Routine α}
    (h : Tentative (fun _ => True) first) :
    Tentative (fun extra => extra ≤ op.mostExtra) (first >>= fun _ => pure 0) :=
  .bind h fun _ _ => .pure (Nat.zero_le _)

theorem deferred_putBack {op : Operation} (operand : Operand) (result : UInt8) :
    Deferred (fun extra => extra ≤ op.mostExtra) (putBack operand result >>= fun _ => pure 0) := by
  cases operand with
  | accumulator => exact .finish (fun r => { r with a := result }) (Nat.zero_le _)
  | place address crossed => exact .tentative (tentative_extra (.store address result))
  | _ => exact .tentative (tentative_extra (.pure trivial))

theorem tentative_branch (op : BranchOp) (target : UInt16) :
    Tentative (fun extra => extra ≤ (Operation.branch op).mostExtra)
      (execute (.branch op) (.target target)) := by
  refine .bind .registers fun before _ => ?_
  by_cases ht : op.taken before.p = true
  · simp only [ht, if_true]
    refine .bind (tentative_jump _) fun _ _ => .pure ?_
    split
    · exact Nat.le_succ 1
    · exact Nat.le_refl 2
  · simp only [ht]
    exact .pure (Nat.zero_le _)

theorem tentative_jumpOp (op : JumpOp) (operand : Operand) :
    Tentative (fun extra => extra ≤ (Operation.jump op).mostExtra)
      (execute (.jump op) operand) := by
  cases op with
  | jmp =>
    cases operand with
    | place address crossed => exact tentative_extra (tentative_jump _)
    | _ => exact .pure (Nat.zero_le _)
  | jsr =>
    cases operand with
    | place address crossed =>
      exact .bind .registers fun _ _ => .bind (tentative_pushWord _) fun _ _ =>
        tentative_extra (tentative_jump _)
    | _ => exact .pure (Nat.zero_le _)
  | rts => exact .bind tentative_popWord fun _ _ => tentative_extra (tentative_jump _)
  | rti => exact tentative_extra tentative_returnFromInterrupt
  | brk =>
    exact .bind (.change fun _ => rfl) fun _ _ => tentative_extra (tentative_enterInterrupt _ _)

/-- **An operation changes the data last.** -/
theorem deferred_execute (op : Operation) (operand : Operand) :
    Deferred (fun extra => extra ≤ op.mostExtra) (execute op operand) := by
  cases op with
  | read op =>
    exact .after (tentative_operandValue operand) fun value _ =>
      .finish (op.apply value) (Nat.zero_le _)
  | store op =>
    cases operand with
    | place address crossed =>
      exact .tentative (.bind .registers fun _ _ => tentative_extra (.store _ _))
    | _ => exact .tentative (.pure (Nat.zero_le _))
  | modify op =>
    exact .after (tentative_operandValue operand) fun _ _ => .after .registers fun _ _ =>
      .after (.change fun _ => rfl) fun _ _ => deferred_putBack operand _
  | register op => exact .finish op.apply (Nat.zero_le _)
  | branch op =>
    cases operand with
    | target address => exact .tentative (tentative_branch op address)
    | _ => exact .tentative (.pure (Nat.zero_le _))
  | jump op => exact .tentative (tentative_jumpOp op operand)
  | stack op =>
    cases op with
    | pha => exact .tentative (.bind .registers fun _ _ => tentative_extra (tentative_push _))
    | php => exact .tentative (.bind .registers fun _ _ => tentative_extra (tentative_push _))
    | pla => exact .after tentative_pop fun value _ => .finish (·.setA value) (Nat.zero_le _)
    | plp =>
      exact .after tentative_pop fun flags _ =>
        .finish (fun r => { r with p := { Status.ofByte flags with brk := false } })
          (Nat.zero_le _)

end

/-! ## A step in two parts -/

/-- The part of a step after its instruction is known: the operand, the operation, the cycles. -/
def finishStep (i : Instruction) : Routine Nat := do
  let operand ← fetchOperand i.mode
  let extra ← execute i.operation operand
  let cycles := i.cycles + (i.pageCycle && operand.crossed).toNat + extra
  spend cycles
  return cycles

theorem step_eq : step = fetchInstruction >>= finishStep := rfl

theorem quiet_step : Quiet (fun _ => True) step := by
  have hpass (pc : UInt16) (opcode : UInt8) : Quiet (fun _ => True) (passOpcode pc opcode) := by
    rw [passOpcode]
    cases Instruction.decode opcode with
    | none => exact fun _ _ _ => ⟨rfl, fun _ _ => trivial⟩
    | some i =>
      have htentative : Tentative (fun _ => True) (jump (pc + 1) >>= fun _ => pure i) :=
        .bind (tentative_jump _) fun _ _ => .pure trivial
      exact htentative.quiet
  have hfetch : Quiet (fun _ => True) fetchInstruction :=
    Quiet.bind Tentative.registers.quiet fun before _ =>
      Quiet.bind (Tentative.load before.pc).quiet fun opcode _ => hpass before.pc opcode
  refine Quiet.bind hfetch fun i _ => ?_
  refine Quiet.bind (tentative_fetchOperand i.mode).quiet fun operand _ => ?_
  exact Quiet.bind (deferred_execute i.operation operand).quiet fun _ _ =>
    fun _ _ _ => ⟨rfl, fun _ _ => trivial⟩

end Routine

end NesMachine
