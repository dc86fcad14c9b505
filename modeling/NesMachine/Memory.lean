import NesMachine.Action
import NesMachine.Bus

/-!
# `NesMachine/Memory.lean` — memory that can be switched on and off

A console's memory is off, and then it has no cells at all, or on, and then it has all 65536. Every
operation but switching it on refuses while it is off. Addresses are natural numbers here, because
a caller from outside can name any number; one past the last cell is refused with the number that
was asked for.

The processor's own accesses are words, so they can be refused only because the memory is off.
-/

set_option autoImplicit false

namespace NesMachine

/-- A console's memory. -/
inductive Memory where
  | off
  | on (ram : Ram)

namespace Memory

instance : Inhabited Memory := ⟨off⟩

/-- Holds while the memory is on. -/
def isOn : Memory → Bool
  | off => false
  | on _ => true

/-- The cells, which are all zero while the memory is off. -/
def ram : Memory → Ram
  | off => .zeros
  | on ram => ram

/-- The count of addressable cells. -/
def size : Memory → Nat
  | off => 0
  | on _ => Ram.size

/-! ## Switching on and off -/

/-- Switches the memory on, with all cells zero. -/
def powerOn : Action Memory Unit
  | on ram => ⟨.error (.alreadyInitialized .memory), on ram, []⟩
  | off => ⟨.ok (), on .zeros, [⟨.info, "memory initialized (65536 bytes)"⟩]⟩

/-- Switches the memory off; its contents are lost. -/
def powerOff : Action Memory Unit
  | off => ⟨.error (.uninitialized .memory), off, []⟩
  | on _ => ⟨.ok (), off, [⟨.info, "memory uninitialized"⟩]⟩

/-- Sets all cells to zero. -/
def clear : Action Memory Unit
  | off => ⟨.error (.uninitialized .memory), off, []⟩
  | on _ => ⟨.ok (), on .zeros, []⟩

/-! ## Cells -/

/-- The cell at an address. -/
def peek : Memory → Nat → Except Fault UInt8
  | off, _ => .error (.uninitialized .memory)
  | on ram, address =>
    if address < Ram.size then .ok (ram.read (UInt16.ofNat address))
    else .error (.invalidAddress address)

/-- Replaces the cell at an address by what `change` makes of it. -/
def alter (address : Nat) (change : UInt8 → UInt8) : Action Memory Unit
  | off => ⟨.error (.uninitialized .memory), off, []⟩
  | on ram =>
    if address < Ram.size then
      let cell := UInt16.ofNat address
      let value := change (ram.read cell)
      ⟨.ok (), on (ram.write cell value), []⟩
    else ⟨.error (.invalidAddress address), on ram, []⟩

/-- Sets the cell at an address. -/
def poke (address : Nat) (value : UInt8) : Action Memory Unit := alter address fun _ => value

/-- Holds if every bit of the mask is set in the cell at an address. -/
def hasFlags (memory : Memory) (address : Nat) (mask : UInt8) : Except Fault Bool :=
  return (← memory.peek address) &&& mask == mask

/-- Sets the bits of the mask in the cell at an address. -/
def setFlags (address : Nat) (mask : UInt8) : Action Memory Unit := alter address (· ||| mask)

/-- Clears the bits of the mask in the cell at an address. -/
def clearFlags (address : Nat) (mask : UInt8) : Action Memory Unit :=
  alter address (· &&& ~~~mask)

/-! ## Blocks -/

/-- The largest number that a caller can name, which has sixty-four bits. -/
def maxNumber : Nat := 0xFFFFFFFFFFFFFFFF

/-- The address after a block, cut at the largest number that a caller can name. -/
def blockEnd (address length : Nat) : Nat := min (address + length) maxNumber

/-- Why there is no block of `length` cells from `address` on, if there is none: it starts outside
the memory, or its last cell is outside. -/
def blockFault (address length : Nat) : Option Fault :=
  if Ram.size ≤ address then some (.invalidAddress address)
  else if Ram.size < blockEnd address length then
    some (.invalidAddress (blockEnd address length - 1))
  else none

/-- The cells of a block. -/
def peekBlock : Memory → Nat → Nat → Except Fault (List UInt8)
  | off, _, _ => .error (.uninitialized .memory)
  | on ram, address, length =>
    match blockFault address length with
    | some fault => .error fault
    | none => .ok (ram.readBlock (UInt16.ofNat address) length)

/-- Replaces the cells of a block, all of them or, where the block does not fit, none. -/
def write (address : Nat) (bytes : List UInt8) : Action Memory Unit
  | off => ⟨.error (.uninitialized .memory), off, []⟩
  | on ram =>
    match blockFault address bytes.length with
    | some fault => ⟨.error fault, on ram, []⟩
    | none => ⟨.ok (), on (ram.writeBlock (UInt16.ofNat address) bytes), []⟩

/-- Memory that is on behaves as its cells; memory that is off refuses every access. -/
instance : Bus Memory where
  read
    | off, _ => (.error (.uninitialized .memory), off)
    | on ram, address =>
      let value := ram.read address
      (.ok value, on ram)
  write
    | off, _, _ => (.error (.uninitialized .memory), off)
    | on ram, address, value => (.ok (), on (ram.write address value))

/-! ## Laws -/

theorem peek_on (ram : Ram) (address : UInt16) :
    (on ram).peek address.toNat = .ok (ram.read address) := by
  have inside : address.toNat < Ram.size := address.toNat_lt
  simp [peek, inside]

/-- A block is refused exactly if it reaches beyond the last cell or starts there. -/
theorem blockFault_eq_none_iff {address length : Nat} :
    blockFault address length = none ↔ address < Ram.size ∧ address + length ≤ Ram.size := by
  by_cases outside : Ram.size ≤ address
  · simp only [blockFault, outside]
    simp; omega
  · by_cases beyond : Ram.size < blockEnd address length
    · simp only [blockFault, outside, beyond]
      simp only [blockEnd, maxNumber, Ram.size] at *
      simp; omega
    · simp only [blockFault, outside, beyond]
      simp only [blockEnd, maxNumber, Ram.size] at *
      simp; omega

/-- A block is refused with an address that is not that of a cell, also where its end is cut. -/
theorem blockFault_of_outside {address length : Nat}
    (outside : ¬ (address < Ram.size ∧ address + length ≤ Ram.size)) :
    ∃ a, Ram.size ≤ a ∧ blockFault address length = some (.invalidAddress a) := by
  rw [blockFault]
  by_cases first : Ram.size ≤ address
  · exact ⟨address, first, if_pos first⟩
  · have beyond : Ram.size < blockEnd address length := by
      simp only [blockEnd, maxNumber, Ram.size] at *
      omega
    rw [if_neg first, if_pos beyond]
    exact ⟨_, Nat.le_sub_one_of_lt beyond, rfl⟩

end Memory

end NesMachine
