import NesMachine.Cpu.Routine
import NesMachine.Word

/-!
# `NesMachine/Cpu/Access.lean` — bytes, words and the stack

The processor's accesses to its bus, from single bytes up to pushed words. A word is two accesses,
low byte first, except that a push stores the high byte first: the stack grows downwards, so a
pushed word lies in memory as any other word does.

The stack is the 256 cells of page one. The stack pointer is a byte and so goes round within them.
-/

set_option autoImplicit false

namespace NesMachine

/-- The cell that a stack pointer means. -/
def stackCell (pointer : UInt8) : UInt16 := word pointer 0x01

namespace Routine

/-- Reads the byte at an address. -/
def load (address : UInt16) : Routine UInt8 := fun cpu =>
  if cpu.isOn then .read cpu address fun value => .done cpu (.ok value)
  else .done cpu (.error (.uninitialized .cpu))

/-- Stores a byte at an address. -/
def store (address : UInt16) (value : UInt8) : Routine Unit := fun cpu =>
  if cpu.isOn then .write cpu address value (.done cpu (.ok ()))
  else .done cpu (.error (.uninitialized .cpu))

/-- Reads a word whose two bytes need not be neighbours. -/
def loadSplit (low high : UInt16) : Routine UInt16 := do
  let lowByte ← load low
  let highByte ← load high
  return word lowByte highByte

/-- Reads the word at an address. -/
def loadWord (address : UInt16) : Routine UInt16 := loadSplit address (address + 1)

/-- Stores a word at an address. -/
def storeWord (address value : UInt16) : Routine Unit := do
  store address (lowByte value)
  store (address + 1) (highByte value)

/-- Stores a byte on the stack, and then moves the stack pointer. -/
def push (value : UInt8) : Routine Unit := do
  store (stackCell (← registers).sp) value
  change fun r => { r with sp := r.sp - 1 }

/-- Moves the stack pointer back, and then reads the byte there. -/
def pop : Routine UInt8 := do
  alone Cpu.requireOn
  change fun r => { r with sp := r.sp + 1 }
  load (stackCell (← registers).sp)

/-- Pushes a word, high byte first. -/
def pushWord (value : UInt16) : Routine Unit := do
  push (highByte value)
  push (lowByte value)

/-- Pops a word, low byte first. -/
def popWord : Routine UInt16 := do
  let lowByte ← pop
  let highByte ← pop
  return word lowByte highByte

/-- Sets the program counter. -/
def jump (address : UInt16) : Routine Unit := change fun r => { r with pc := address }

/-! ## Accesses at work -/

section

variable {bus : Type} [Bus bus] {state : Cpu × bus}

/-- A read is the bus's answer. -/
theorem run_load (address : UInt16) (on : state.1.isOn = true) :
    (load address).run state =
      ⟨(Bus.read state.2 address).1, (state.1, (Bus.read state.2 address).2), []⟩ := by
  simp only [run, load, on, if_true, Exchange.run]
  rcases Bus.read state.2 address with ⟨_ | _, _⟩ <;> rfl

/-- A write is the bus's answer. -/
theorem run_store (address : UInt16) (value : UInt8) (on : state.1.isOn = true) :
    (store address value).run state =
      ⟨(Bus.write state.2 address value).1,
        (state.1, (Bus.write state.2 address value).2), []⟩ := by
  simp only [run, store, on, if_true, Exchange.run]
  rcases Bus.write state.2 address value with ⟨_ | _, _⟩ <;> rfl

/-- A processor that is off does not touch the bus. -/
theorem run_load_off (address : UInt16) (off : state.1.isOn = false) :
    (load address).run state = ⟨.error (.uninitialized .cpu), state, []⟩ := by
  simp [run, load, off, Exchange.run]

/-- A processor that is off does not touch the bus. -/
theorem run_store_off (address : UInt16) (value : UInt8) (off : state.1.isOn = false) :
    (store address value).run state = ⟨.error (.uninitialized .cpu), state, []⟩ := by
  simp [run, store, off, Exchange.run]

end

end Routine

end NesMachine
