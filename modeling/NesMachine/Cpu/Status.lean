import NesMachine.Text.Numeral

/-!
# `NesMachine/Cpu/Status.lean` — the processor's flags

The status register is a byte, and the instructions see it as flags. It is kept as eight flags,
because nearly every rule of the processor is about one flag and leaves the others alone;
`toByte` and `ofByte` go to the byte and back, and `ofByte_toByte` and `toByte_ofByte` say that
nothing is lost on either way.

Masks are bytes whose set bits name flags. `contains` and `assign` read and write the named flags
together.
-/

set_option autoImplicit false

namespace NesMachine

open Text

/-- The processor's flags, from the lowest bit of the status byte to the highest. -/
structure Status where
  carry : Bool
  zero : Bool
  /-- A maskable interrupt is served only while this flag is set. -/
  interrupt : Bool
  decimal : Bool
  /-- Set in a pushed status byte when the push came from a program and not from a signal. -/
  brk : Bool
  /-- Bit five has no meaning of its own; it is kept as it was loaded. -/
  unused : Bool
  overflow : Bool
  negative : Bool
  deriving DecidableEq

namespace Status

/-- The flags of a status byte. -/
def ofByte (byte : UInt8) : Status where
  carry := byte &&& 0x01 != 0
  zero := byte &&& 0x02 != 0
  interrupt := byte &&& 0x04 != 0
  decimal := byte &&& 0x08 != 0
  brk := byte &&& 0x10 != 0
  unused := byte &&& 0x20 != 0
  overflow := byte &&& 0x40 != 0
  negative := byte &&& 0x80 != 0

/-- The status byte of the flags. -/
def toByte (status : Status) : UInt8 :=
  (if status.carry then 0x01 else 0) ||| (if status.zero then 0x02 else 0)
    ||| (if status.interrupt then 0x04 else 0) ||| (if status.decimal then 0x08 else 0)
    ||| (if status.brk then 0x10 else 0) ||| (if status.unused then 0x20 else 0)
    ||| (if status.overflow then 0x40 else 0) ||| (if status.negative then 0x80 else 0)

/-- The flags when the processor is switched on: zero and interrupt. -/
def powerOn : Status := ofByte 0x06

instance : Inhabited Status := ⟨powerOn⟩

/-- Holds if every flag of the mask is set. -/
def contains (status : Status) (mask : UInt8) : Bool := status.toByte &&& mask == mask

/-- Gives every flag of the mask the value `value`. -/
def assign (status : Status) (mask : UInt8) (value : Bool) : Status :=
  ofByte (if value then status.toByte ||| mask else status.toByte &&& ~~~mask)

/-- The flags after an operation with the given result, which sets zero and negative. -/
def withResult (status : Status) (result : UInt8) : Status :=
  { status with zero := result == 0, negative := result &&& 0x80 != 0 }

/-- The flags by letter. Bit five is not shown. -/
def render (status : Status) : String :=
  "C:" ++ bit status.carry ++ " Z:" ++ bit status.zero ++ " I:" ++ bit status.interrupt
    ++ " D:" ++ bit status.decimal ++ " B:" ++ bit status.brk ++ " V:" ++ bit status.overflow
    ++ " N:" ++ bit status.negative

/-! ## Flags and byte agree -/

@[simp] theorem ofByte_toByte (status : Status) : ofByte status.toByte = status := by
  rcases status with ⟨_ | _, _ | _, _ | _, _ | _, _ | _, _ | _, _ | _, _ | _⟩ <;> rfl

theorem toByte_ofByte_of_lt : ∀ n < 256, (ofByte (UInt8.ofNat n)).toByte = UInt8.ofNat n := by
  decide +kernel

@[simp] theorem toByte_ofByte (byte : UInt8) : (ofByte byte).toByte = byte := by
  simpa using toByte_ofByte_of_lt byte.toNat byte.toNat_lt

/-- Two sets of flags are the same if their status bytes are. -/
theorem toByte_inj {s t : Status} (same : s.toByte = t.toByte) : s = t := by
  rw [← ofByte_toByte s, same, ofByte_toByte]

end Status

end NesMachine
