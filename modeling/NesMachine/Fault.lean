import NesMachine.Text.Numeral

/-!
# `NesMachine/Fault.lean` — why an operation refuses

A fault is a cause, not a text: it names the component, the address, the opcode or the defect of a
cartridge image. `Fault.message` is the only place where a cause becomes words, so two parts of the
library that refuse for the same reason say the same thing.

The defects of an image that the library itself finds have constructors of their own. `described`
is for a reader of images outside the library that found something else.
-/

set_option autoImplicit false

namespace NesMachine

open Text

/-- The parts of a console that are switched on and off by themselves. -/
inductive Component where
  | memory
  | cpu
  | rom
  | system
  deriving DecidableEq

/-- The component's name in messages. -/
def Component.name : Component → String
  | .memory => "memory"
  | .cpu => "cpu"
  | .rom => "rom"
  | .system => "system"

/-- What is wrong with a cartridge image that does not follow its format. -/
inductive Defect where
  /-- The image ends before its sixteen header bytes do. -/
  | shortImage (size : Nat)
  /-- The image does not start with the four bytes of the format. -/
  | badMagic (magic : List UInt8)
  /-- The header counts no program bank, so there is nothing to run. -/
  | noProgramBanks
  /-- A bank that the header counts is not wholly inside the image. -/
  | bankOutside (first past size : Nat)
  /-- A defect found elsewhere. -/
  | described (text : String)
  deriving DecidableEq

/-- What a well-formed cartridge asks for that the console does not have. -/
inductive Feature where
  /-- The second revision of the header layout. -/
  | ines2
  /-- A feature named elsewhere. -/
  | described (text : String)
  deriving DecidableEq

/-- Why an operation refuses. -/
inductive Fault where
  | allocationFailed
  | alreadyInitialized (component : Component)
  | uninitialized (component : Component)
  | invalidAddress (address : Nat)
  | invalidIndex (index : Nat)
  | invalidOpcode (opcode : UInt8) (address : UInt16)
  | malformed (defect : Defect)
  | unsupported (feature : Feature)
  | unloaded
  | fileNotFound (path : String)
  | io (detail : String)
  deriving DecidableEq

/-- The defect in words. -/
def Defect.text : Defect → String
  | .shortImage size => "image is " ++ toString size ++ " bytes, header needs 16"
  | .badMagic magic => "bad magic [" ++ ", ".intercalate (magic.map hexByte) ++ "]"
  | .noProgramBanks => "no program banks"
  | .bankOutside first past size =>
    "bank at 0x" ++ hex 1 first ++ "..0x" ++ hex 1 past ++ " exceeds image of "
      ++ toString size ++ " bytes"
  | .described text => text

/-- The feature in words. -/
def Feature.text : Feature → String
  | .ines2 => "iNES 2.0 images"
  | .described text => text

namespace Fault

/-- The fault in words. -/
def message : Fault → String
  | .allocationFailed => "Allocation failed"
  | .alreadyInitialized component => component.name ++ " is already initialized"
  | .uninitialized component => component.name ++ " is not initialized"
  | .invalidAddress address => "Invalid address: 0x" ++ hex 4 address
  | .invalidIndex index => "Invalid index: " ++ toString index
  | .invalidOpcode opcode address =>
    "Invalid opcode: 0x" ++ hexByte opcode ++ " at 0x" ++ hexWord address
  | .malformed defect => "Malformed cartridge: " ++ defect.text
  | .unsupported feature => "Unsupported cartridge: " ++ feature.text
  | .unloaded => "No cartridge loaded"
  | .fileNotFound path => "File not found: " ++ path
  | .io detail => "I/O error: " ++ detail

/-- Holds for the two faults of calling an operation at the wrong time of a component's life. -/
def isLifecycle : Fault → Bool
  | .alreadyInitialized _ => true
  | .uninitialized _ => true
  | _ => false

end Fault

end NesMachine
