import NesMachine.Console
import NesMachine.Memory.Dump

/-!
# `NesMachine/Console/Render.lean` — the state of a console as text

The text shows the registers, the flags by letter, the cartridge, and the two pages of memory that
programs use most: the zero page and the stack.
-/

set_option autoImplicit false

namespace NesMachine

namespace Console

/-- The cartridge in the slot, as far as its header tells. -/
def cartridgeText (console : Console) : String :=
  match console.cartridge.header with
  | .ok header => header.render
  | .error _ => "none"

/-- The zero page and the stack, or why they cannot be shown. -/
def pagesText (console : Console) : String :=
  let pages : Except Fault String := do
    let zero ← console.memory.blockText 0 0x100
    let stack ← console.memory.blockText 0x100 0x100
    return "Zero page:\n" ++ zero ++ "\nStack page:\n" ++ stack
  match pages with
  | .ok text => text
  | .error fault => "Memory: " ++ fault.message

/-- The console in words. -/
def render (console : Console) : String :=
  if console.isOn then
    "System: initialized\nCPU: " ++ console.cpu.render
      ++ "\nFlags: " ++ console.cpu.registers.p.render
      ++ "\nCartridge: " ++ console.cartridgeText
      ++ "\n" ++ console.pagesText
  else "System: uninitialized"

end Console

end NesMachine
