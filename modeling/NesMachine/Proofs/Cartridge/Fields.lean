import NesMachine.Proofs.Cartridge.Acceptance
import NesMachine.Proofs.Simulation

/-!
# `NesMachine/Proofs/Cartridge/Fields.lean` — a slot as a buffer and two flags

A slot with an image in it is on, and one without has no bytes: a `Cartridge` cannot be otherwise.
A record of a buffer and two flags can, and then it is the operations that keep the three in step.
Here they are, each on a record in any state (`Fields`): what is looked at is looked at in the order
in which the faults are told, and what is changed is changed field by field.

A slot, shown as a record (`Cartridge.fields`), is seen to do what the record does, operation by
operation. The one that needs a word is `seen_load`: it looks at the image that is brought, not at
the one in the slot, so both ways look at the same header.
-/

set_option autoImplicit false

namespace NesMachine

namespace Cartridge

/-- A buffer and two flags, each in any state. -/
structure Fields where
  image : Array UInt8
  isOn : Bool
  isLoaded : Bool

namespace Fields

/-- No bytes, and both flags down. -/
def fresh : Fields := ⟨#[], false, false⟩

/-! ## Operations -/

def requireOn : Action Fields Unit := .require isOn (.uninitialized .rom)

/-- Refuses while one of the flags is down. -/
def requireLoaded : Action Fields Unit := do
  requireOn
  .require isLoaded .unloaded

def powerOn : Action Fields Unit := do
  .require (!·.isOn) (.alreadyInitialized .rom)
  .update fun fields => { fields with isOn := true }

def unload : Action Fields Unit := do
  requireLoaded
  .update fun fields => { fields with image := #[], isLoaded := false }
  .log .info "cartridge unloaded"

def powerOff : Action Fields Unit := do
  requireOn
  if ← .ask fun fields => .ok fields.isLoaded then unload
  .update fun fields => { fields with isOn := false }

def load (image : Array UInt8) : Action Fields Unit := do
  requireOn
  let header ← .ask fun _ => Header.parse image
  match header.accept with
  | .error fault =>
    .log .warn ("rejected cartridge: " ++ fault.message)
    .refuse fault
  | .ok () =>
    .update fun fields => { fields with image := image, isLoaded := true }
    .log .info ("cartridge loaded: " ++ header.render)

def loadFile (path : String) (read : FileRead) : Action Fields Unit := do
  requireOn
  match read with
  | .missing => .refuse (.fileNotFound path)
  | .failed detail => .refuse (.io detail)
  | .contents image =>
    .log .info ("read " ++ toString image.size ++ " bytes from " ++ path)
    load image

def header : Action Fields Header := do
  requireLoaded
  .ask fun fields => Header.parse fields.image

def programBank (index : Nat) : Action Fields (Array UInt8) := do
  requireLoaded
  .ask fun fields => Image.programBank fields.image index

def characterBank (index : Nat) : Action Fields (Array UInt8) := do
  requireLoaded
  .ask fun fields => Image.characterBank fields.image index

/-- The length of the buffer, whether or not it counts as loaded. -/
def size : Action Fields Nat := do
  requireOn
  .ask fun fields => .ok fields.image.size

end Fields

/-- The record that a slot shows. -/
def fields : Cartridge → Fields
  | off => ⟨#[], false, false⟩
  | empty => ⟨#[], true, false⟩
  | loaded image => ⟨image, true, true⟩

theorem isOn_fields (cartridge : Cartridge) : cartridge.fields.isOn = cartridge.isOn := by
  cases cartridge with
  | off | empty | loaded image => rfl

theorem isLoaded_fields (cartridge : Cartridge) :
    cartridge.fields.isLoaded = cartridge.isLoaded := by
  cases cartridge with
  | off | empty | loaded image => rfl

theorem image_fields (cartridge : Cartridge) : cartridge.fields.image = cartridge.bytes := by
  cases cartridge with
  | off | empty | loaded image => rfl

theorem fields_loaded {cartridge : Cartridge} (hon : cartridge.isOn = true) (image : Array UInt8) :
    { cartridge.fields with image := image, isLoaded := true } = (loaded image).fields := by
  cases cartridge with
  | off => cases hon
  | empty | loaded before => rfl

/-! ## The simulation -/

theorem seen_requireOn : requireOn.SeenAs fields Fields.requireOn := by
  intro cartridge
  cases cartridge with
  | off | empty | loaded image => rfl

theorem seen_powerOn : powerOn.SeenAs fields Fields.powerOn := by
  intro cartridge
  cases cartridge with
  | off | empty | loaded image => rfl

theorem seen_unload : unload.SeenAs fields Fields.unload := by
  intro cartridge
  cases cartridge with
  | off | empty | loaded image => rfl

theorem seen_powerOff : powerOff.SeenAs fields Fields.powerOff := by
  intro cartridge
  cases cartridge with
  | off | empty | loaded image => rfl

theorem seen_load (image : Array UInt8) : (load image).SeenAs fields (Fields.load image) := by
  intro cartridge
  unfold load Fields.load
  cases hon : cartridge.isOn with
  | false =>
    rw [requireOn, Fields.requireOn, Action.require_bind_of_false _ _ hon,
      Action.require_bind_of_false _ _ ((isOn_fields cartridge).trans hon)]
    rfl
  | true =>
    rw [requireOn, Fields.requireOn, Action.require_bind_of_true _ _ hon,
      Action.require_bind_of_true _ _ ((isOn_fields cartridge).trans hon),
      Action.bind_apply, Action.bind_apply, Action.ask_apply, Action.ask_apply]
    cases Header.parse image with
    | error fault => rfl
    | ok header =>
      simp only [Outcome.andThen]
      cases header.accept with
      | error fault => rfl
      | ok accepted =>
        exact congrArg (fun record => (⟨.ok (), record, _⟩ : Outcome Fields Unit))
          (fields_loaded hon image)

theorem seen_loadFile (path : String) (read : FileRead) :
    (loadFile path read).SeenAs fields (Fields.loadFile path read) := by
  unfold loadFile Fields.loadFile
  refine seen_requireOn.bind fun _ => ?_
  cases read with
  | missing => exact Action.seenAs_refuse _
  | failed detail => exact Action.seenAs_refuse _
  | contents image => exact (Action.seenAs_log _ _).bind fun _ => seen_load image

theorem seen_header : (Action.ask header).SeenAs fields Fields.header := by
  intro cartridge
  cases cartridge with
  | off | empty | loaded image => rfl

theorem seen_programBank (index : Nat) :
    (Action.ask fun cartridge => programBank cartridge index).SeenAs fields
      (Fields.programBank index) := by
  intro cartridge
  cases cartridge with
  | off | empty | loaded image => rfl

theorem seen_characterBank (index : Nat) :
    (Action.ask fun cartridge => characterBank cartridge index).SeenAs fields
      (Fields.characterBank index) := by
  intro cartridge
  cases cartridge with
  | off | empty | loaded image => rfl

theorem seen_size : (Action.ask size).SeenAs fields Fields.size := by
  intro cartridge
  cases cartridge with
  | off | empty | loaded image => rfl

end Cartridge

end NesMachine
