import NesMachine.Memory
import NesMachine.Proofs.Exchange.Contract

/-!
# `NesMachine/Proofs/Memory/Request.lean` — a memory in somebody's hands

A `Request` is anything that can be asked of a memory from outside, by number or, as the processor
asks, by word. Requests differ in what they do to cells, and most readers of a memory want to know
something coarser first: is it still on? Only the two requests that switch it change that
(`isOn_request`), and while it is off, only being switched on changes anything (`request_off`).

What the processor asks by word can also be asked by number, and a question about bits is one about
the byte that they are in, so there are fewer kinds of work than requests. To the processor a memory
that is on is a bus that refuses nothing (`reliable`).
-/

set_option autoImplicit false

namespace NesMachine

namespace Memory

/-- What can be asked of a memory from outside. -/
inductive Request where
  | powerOn
  | powerOff
  | clear
  | peek (address : Nat)
  | poke (address : Nat) (value : UInt8)
  | hasFlags (address : Nat) (mask : UInt8)
  | setFlags (address : Nat) (mask : UInt8)
  | clearFlags (address : Nat) (mask : UInt8)
  | write (address : Nat) (bytes : List UInt8)
  | readByte (address : UInt16)
  | writeByte (address : UInt16) (value : UInt8)

inductive Answer where
  | nothing
  | byte (value : UInt8)
  | flag (value : Bool)

def Request.action : Request → Action Memory Answer
  | powerOn => do Memory.powerOn; return .nothing
  | powerOff => do Memory.powerOff; return .nothing
  | clear => do Memory.clear; return .nothing
  | peek address => return .byte (← .ask (·.peek address))
  | poke address value => do Memory.poke address value; return .nothing
  | hasFlags address mask => return .flag (← .ask (·.hasFlags address mask))
  | setFlags address mask => do Memory.setFlags address mask; return .nothing
  | clearFlags address mask => do Memory.clearFlags address mask; return .nothing
  | write address bytes => do Memory.write address bytes; return .nothing
  | readByte address => fun memory =>
    let (result, later) := Bus.read memory address
    ⟨Answer.byte <$> result, later, []⟩
  | writeByte address value => fun memory =>
    let (result, later) := Bus.write memory address value
    ⟨(fun _ => Answer.nothing) <$> result, later, []⟩

/-- The memory after some requests, granted or refused. -/
def afterRequests : List Request → Memory → Memory
  | [], memory => memory
  | request :: requests, memory => afterRequests requests (request.action memory).state

def Request.switches : Request → Bool
  | powerOn => true
  | powerOff => true
  | _ => false

theorem size_eq (memory : Memory) : memory.size = if memory.isOn then 65536 else 0 := by
  cases memory with
  | off => rfl
  | on ram => rfl

/-- **A memory that is off has nothing to give.** -/
theorem request_off {request : Request} (hp : request ≠ .powerOn) :
    request.action off = ⟨.error (.uninitialized .memory), off, []⟩ := by
  cases request with
  | powerOn => exact absurd rfl hp
  | _ => rfl

theorem isOn_alter (ram : Ram) (address : Nat) (change : UInt8 → UInt8) :
    ((alter address change >>= fun _ => pure Answer.nothing) (on ram)).state.isOn = true := by
  rw [Action.bind_apply, alter]
  by_cases hin : address < Ram.size
  · rw [if_pos hin]
    rfl
  · rw [if_neg hin]
    rfl

theorem state_question {α : Type} (question : Memory → Except Fault α) (answer : α → Answer)
    (memory : Memory) :
    ((Action.ask question >>= fun value => pure (answer value)) memory).state = memory := by
  rw [Action.bind_apply, Action.ask_apply]
  cases question memory with
  | error fault => rfl
  | ok value => rfl

/-- **Only the two requests that switch the memory change whether it is on.** -/
theorem isOn_request {request : Request} (hs : request.switches = false) (memory : Memory) :
    (request.action memory).state.isOn = memory.isOn := by
  cases memory with
  | off =>
    rw [request_off]
    rintro rfl
    exact absurd hs (by decide)
  | on ram =>
    cases request with
    | powerOn => exact absurd hs (by decide)
    | powerOff => exact absurd hs (by decide)
    | clear => rfl
    | peek address => rw [Request.action, state_question]
    | poke address value => exact isOn_alter ram address _
    | hasFlags address mask => rw [Request.action, state_question]
    | setFlags address mask => exact isOn_alter ram address _
    | clearFlags address mask => exact isOn_alter ram address _
    | write address bytes =>
      rw [Request.action, Action.bind_apply, Memory.write]
      cases blockFault address bytes.length with
      | none => rfl
      | some fault => rfl
    | readByte address => rfl
    | writeByte address value => rfl

/-! ## Requests that come to the same -/

/-- To read by word is to ask for the word's number, which no word is too large for. -/
theorem action_readByte (address : UInt16) :
    (Request.readByte address).action = (Request.peek address.toNat).action := by
  funext memory
  cases memory with
  | off => rfl
  | on ram =>
    rw [Request.action, Request.action, Action.bind_apply, Action.ask_apply, peek_on]
    rfl

theorem action_writeByte (address : UInt16) (value : UInt8) :
    (Request.writeByte address value).action = (Request.poke address.toNat value).action := by
  funext memory
  cases memory with
  | off => rfl
  | on ram =>
    have hin : address.toNat < Ram.size := address.toNat_lt
    rw [Request.action, Request.action, Action.bind_apply, poke, alter, if_pos hin,
      UInt16.ofNat_toNat]
    rfl

theorem action_hasFlags (address : Nat) (mask : UInt8) :
    (Request.hasFlags address mask).action
      = (Action.ask fun memory => peek memory address) >>= fun byte =>
          pure (.flag (byte &&& mask == mask)) := by
  funext memory
  rw [Request.action, Action.bind_apply, Action.bind_apply, Action.ask_apply, Action.ask_apply,
    hasFlags]
  cases memory.peek address with
  | error fault => rfl
  | ok byte => rfl

/-! ## As a bus -/

/-- To the processor, a memory that is on refuses nothing. -/
theorem reliable : Exchange.Reliable fun memory : Memory => memory.isOn = true := by
  refine ⟨?_, ?_⟩
  · intro memory hon address
    cases memory with
    | off => exact absurd hon (by decide)
    | on ram => exact ⟨ram.read address, on ram, rfl, rfl⟩
  · intro memory hon address value
    cases memory with
    | off => exact absurd hon (by decide)
    | on ram => exact ⟨on (ram.write address value), rfl, rfl⟩

end Memory

end NesMachine
