import NesMachine.Fault
import NesMachine.Ram

/-!
# `NesMachine/Bus.lean` — what the processor is connected to

The processor owns no memory. It is connected to something that answers reads and writes of single
bytes, or refuses them, and that may change with every access; that is all it can observe.
-/

set_option autoImplicit false

namespace NesMachine

/-- Something that answers the processor's accesses to the address space. -/
class Bus (β : Type) where
  /-- The byte at an address, and the bus after the access. -/
  read : β → UInt16 → Except Fault UInt8 × β
  /-- Stores a byte at an address. -/
  write : β → UInt16 → UInt8 → Except Fault Unit × β

/-- Bare memory refuses nothing. -/
instance : Bus Ram where
  read ram address := (.ok (ram.read address), ram)
  write ram address value := (.ok (), ram.write address value)

end NesMachine
