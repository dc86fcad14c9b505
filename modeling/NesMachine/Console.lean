import NesMachine.Cartridge
import NesMachine.Cpu.Step
import NesMachine.Memory

/-!
# `NesMachine/Console.lean` — memory, processor and cartridge slot as one machine

The console owns its parts and switches them on together, so that a caller who works with the
console alone never sees one part on and another off. Its parts can be reached from outside all the
same, and then they can be in any state; every operation says what it refuses and in which order it
looks.

Loading a cartridge copies its first two program banks into the upper half of memory and starts the
processor over. A cartridge that cannot be copied does not stay in the slot.
-/

set_option autoImplicit false

namespace NesMachine

/-- A console. -/
structure Console where
  memory : Memory
  cpu : Cpu
  cartridge : Cartridge
  isOn : Bool

namespace Console

variable {α : Type}

/-- A console that has never been switched on. -/
def off : Console := ⟨.off, .off, .off, false⟩

instance : Inhabited Console := ⟨off⟩

/-! ## Working on a part -/

/-- Does something to the memory. -/
def onMemory (action : Action Memory α) : Action Console α
  | ⟨memory, cpu, cartridge, isOn⟩ =>
    (action memory).within fun memory => ⟨memory, cpu, cartridge, isOn⟩

/-- Does something to the processor alone. -/
def onCpu (action : Action Cpu α) : Action Console α
  | ⟨memory, cpu, cartridge, isOn⟩ =>
    (action cpu).within fun cpu => ⟨memory, cpu, cartridge, isOn⟩

/-- Does something to the cartridge slot. -/
def onCartridge (action : Action Cartridge α) : Action Console α
  | ⟨memory, cpu, cartridge, isOn⟩ =>
    (action cartridge).within fun cartridge => ⟨memory, cpu, cartridge, isOn⟩

/-- Lets the processor work, with the memory as its bus. -/
def work (routine : Routine α) : Action Console α
  | ⟨memory, cpu, cartridge, isOn⟩ =>
    (routine.run (cpu, memory)).within fun state => ⟨state.2, state.1, cartridge, isOn⟩

/-! ## Switching on and off -/

/-- Refuses while the console is off. -/
def requireOn : Action Console Unit := .require isOn (.uninitialized .system)

/-- Switches memory, processor and cartridge slot on, in this order. If a later one refuses, the
earlier ones are switched off again. -/
def powerOn : Action Console Unit := do
  .require (!·.isOn) (.alreadyInitialized .system)
  onMemory Memory.powerOn
  (onCpu Cpu.powerOn).orElseUndo fun _ => onMemory Memory.powerOff
  (onCartridge Cartridge.powerOn).orElseUndo fun _ => do
    onCpu Cpu.powerOff
    onMemory Memory.powerOff
  .update fun console => { console with isOn := true }
  .log .info "system initialized"

/-- Switches cartridge slot, processor and memory off, in this order. A part that refuses ends the
sequence, and the parts before it stay off. -/
def powerOff : Action Console Unit := do
  requireOn
  onCartridge Cartridge.powerOff
  onCpu Cpu.powerOff
  onMemory Memory.powerOff
  .update fun console => { console with isOn := false }
  .log .info "system uninitialized"

/-! ## The processor -/

/-- Starts the processor over. -/
def reset : Action Console Unit := do
  requireOn
  work .reset
  let pc ← .ask fun console => .ok console.cpu.registers.pc
  .log .info ("reset, PC=" ++ Text.hexWord pc)

/-- Does one instruction. Answers the cycles that it took. -/
def step : Action Console Nat := do
  requireOn
  work .step

/-- Signals the processor by the line that it may ignore. -/
def irq : Action Console Unit := do
  requireOn
  work .irq

/-- Signals the processor by the line that it may not ignore. -/
def nmi : Action Console Unit := do
  requireOn
  work .nmi

/-! ## Loading a cartridge -/

/-- Where the first program bank is copied to. -/
def lowerBank : Nat := 0x8000

/-- Where the second program bank is copied to, or the first one again if it is the only one. -/
def upperBank : Nat := 0xC000

/-- Copies the first two program banks into memory and starts the processor over. -/
def mapCartridge : Action Console Unit := do
  let header ← .ask (·.cartridge.header)
  let banks := header.programBanks.toNat
  if banks == 0 then .refuse (.malformed .noProgramBanks)
  if 2 < banks then
    .log .warn (toString banks ++ " program banks, only the first two are mapped")
  let lower ← .ask (·.cartridge.programBank 0)
  let upper ← if 1 < banks then .ask (·.cartridge.programBank 1) else pure lower
  onMemory (Memory.write lowerBank lower.toList)
  onMemory (Memory.write upperBank upper.toList)
  .log .debug ("mapped " ++ toString (2 * bankSizes.program) ++ " bytes of program data")
  reset

/-- Copies the program banks, or takes the cartridge out again. -/
def mapOrUnload : Action Console Unit :=
  mapCartridge.orElseUndo fun fault => do
    .log .warn ("unmappable cartridge: " ++ fault.message)
    onCartridge Cartridge.unload

/-- Loads an image and starts it. -/
def load (image : Array UInt8) : Action Console Unit := do
  requireOn
  onCartridge (Cartridge.load image)
  mapOrUnload

/-- Loads the image that was read from the file at `path` and starts it. -/
def loadFile (path : String) (read : FileRead) : Action Console Unit := do
  requireOn
  onCartridge (Cartridge.loadFile path read)
  mapOrUnload

end Console

end NesMachine
