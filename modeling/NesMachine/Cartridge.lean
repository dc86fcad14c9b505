import NesMachine.Action
import NesMachine.Cartridge.Image

/-!
# `NesMachine/Cartridge.lean` — the cartridge slot

The slot is off, or on and empty, or on and holds an image. An image gets in only if its header is
accepted, so an image that is refused leaves the one before it in place. That its banks are all
there is not asked on the way in; a bank that is missing is refused when somebody wants it.
-/

set_option autoImplicit false

namespace NesMachine

/-- What came of reading a file. The file itself is read outside the library. -/
inductive FileRead where
  | contents (image : Array UInt8)
  | missing
  | failed (detail : String)

/-- The cartridge slot of a console. -/
inductive Cartridge where
  | off
  | empty
  | loaded (image : Array UInt8)
  deriving DecidableEq

namespace Cartridge

instance : Inhabited Cartridge := ⟨off⟩

/-- Holds while the slot is on. -/
def isOn : Cartridge → Bool
  | off => false
  | _ => true

/-- Holds while there is an image in the slot. -/
def isLoaded : Cartridge → Bool
  | loaded _ => true
  | _ => false

/-! ## Switching on and off -/

/-- Switches the slot on, with nothing in it. -/
def powerOn : Action Cartridge Unit
  | off => ⟨.ok (), empty, []⟩
  | cartridge => ⟨.error (.alreadyInitialized .rom), cartridge, []⟩

/-- Takes the image out. -/
def unload : Action Cartridge Unit
  | off => ⟨.error (.uninitialized .rom), off, []⟩
  | empty => ⟨.error .unloaded, empty, []⟩
  | loaded _ => ⟨.ok (), empty, [⟨.info, "cartridge unloaded"⟩]⟩

/-- Switches the slot off, and takes the image out before if there is one. -/
def powerOff : Action Cartridge Unit
  | off => ⟨.error (.uninitialized .rom), off, []⟩
  | empty => ⟨.ok (), off, []⟩
  | loaded _ => ⟨.ok (), off, [⟨.info, "cartridge unloaded"⟩]⟩

/-! ## Loading -/

/-- Refuses while the slot is off. -/
def requireOn : Action Cartridge Unit := .require isOn (.uninitialized .rom)

/-- Puts an image into the slot, in the place of the one that may be there. -/
def load (image : Array UInt8) : Action Cartridge Unit := do
  requireOn
  let header ← .ask fun _ => Header.parse image
  match header.accept with
  | .error fault =>
    .log .warn ("rejected cartridge: " ++ fault.message)
    .refuse fault
  | .ok () =>
    .update fun _ => loaded image
    .log .info ("cartridge loaded: " ++ header.render)

/-- Puts an image into the slot that was read from the file at `path`. -/
def loadFile (path : String) (read : FileRead) : Action Cartridge Unit := do
  requireOn
  match read with
  | .missing => .refuse (.fileNotFound path)
  | .failed detail => .refuse (.io detail)
  | .contents image =>
    .log .info ("read " ++ toString image.size ++ " bytes from " ++ path)
    load image

/-! ## Looking inside -/

/-- The image in the slot. -/
def image : Cartridge → Except Fault (Array UInt8)
  | off => .error (.uninitialized .rom)
  | empty => .error .unloaded
  | loaded image => .ok image

/-- The header of the image in the slot. -/
def header (cartridge : Cartridge) : Except Fault Header := do
  Header.parse (← cartridge.image)

/-- A program bank by its number. -/
def programBank (cartridge : Cartridge) (index : Nat) : Except Fault (Array UInt8) := do
  Image.programBank (← cartridge.image) index

/-- A character bank by its number. -/
def characterBank (cartridge : Cartridge) (index : Nat) : Except Fault (Array UInt8) := do
  Image.characterBank (← cartridge.image) index

/-- The count of bytes in the slot. -/
def size : Cartridge → Except Fault Nat
  | off => .error (.uninitialized .rom)
  | empty => .ok 0
  | loaded image => .ok image.size

end Cartridge

end NesMachine
