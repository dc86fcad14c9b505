import NesMachine.Bus
import NesMachine.Text.Numeral

/-!
# `NesMachine/Probe.lean` — a bus that watches

A probe is bare memory that records every access and can be told to refuse some. It is what one
connects to the processor to see in which order an instruction touches memory, or what is left of
it when an access fails.
-/

set_option autoImplicit false

namespace NesMachine

open Text

/-- An access to the bus. A refused one was asked for and had no effect. -/
inductive Access where
  | read (address : UInt16) (value : UInt8)
  | write (address : UInt16) (value : UInt8)
  | readRefused (address : UInt16)
  | writeRefused (address : UInt16) (value : UInt8)
  deriving DecidableEq

/-- The access in short: kind, address, value, and an exclamation mark if it was refused. -/
def Access.text : Access → String
  | read address value => "r" ++ hexWord address ++ "=" ++ hexByte value
  | write address value => "w" ++ hexWord address ++ "=" ++ hexByte value
  | readRefused address => "r" ++ hexWord address ++ "!"
  | writeRefused address value => "w" ++ hexWord address ++ "=" ++ hexByte value ++ "!"

/-- Memory with a record of its accesses. -/
structure Probe where
  ram : Ram
  /-- The addresses that refuse to be read. -/
  unreadable : List UInt16
  /-- The addresses that refuse to be written. -/
  unwritable : List UInt16
  /-- The accesses, oldest first. -/
  accesses : Array Access

namespace Probe

/-- A probe that refuses nothing and has seen nothing. -/
def ofRam (ram : Ram) : Probe := ⟨ram, [], [], #[]⟩

/-- The probe with an access added to its record. -/
def record : Probe → Access → Probe
  | ⟨ram, unreadable, unwritable, accesses⟩, access =>
    ⟨ram, unreadable, unwritable, accesses.push access⟩

/-- The probe with an empty record. -/
def forget (probe : Probe) : Probe := { probe with accesses := #[] }

instance : Bus Probe where
  read probe address :=
    if probe.unreadable.contains address then
      (.error (.invalidAddress address.toNat), probe.record (.readRefused address))
    else
      let value := probe.ram.read address
      (.ok value, probe.record (.read address value))
  write probe address value :=
    if probe.unwritable.contains address then
      (.error (.invalidAddress address.toNat), probe.record (.writeRefused address value))
    else
      match probe with
      | ⟨ram, unreadable, unwritable, accesses⟩ =>
        (.ok (), ⟨ram.write address value, unreadable, unwritable,
          accesses.push (.write address value)⟩)

end Probe

end NesMachine
