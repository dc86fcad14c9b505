import NesMachine.Cartridge.Header

/-!
# `NesMachine/Cartridge/Image.lean` — where the banks are in an image

After the header comes a trainer, if the header says so, then all program banks, then all character
banks. A bank that the header counts may be missing from the image; such a bank is refused, and
banks before it are not.
-/

set_option autoImplicit false

namespace NesMachine

/-- The sizes of the parts of an image. -/
structure BankSizes where
  trainer : Nat
  program : Nat
  character : Nat

/-- Half a kilobyte of trainer, sixteen of program, eight of character data. -/
def bankSizes : BankSizes := ⟨512, 16384, 8192⟩

namespace Header

/-- The place of the first program bank. -/
def programStart (header : Header) : Nat :=
  size + if header.hasTrainer then bankSizes.trainer else 0

/-- The place of a program bank. -/
def programBankStart (header : Header) (index : Nat) : Nat :=
  header.programStart + index * bankSizes.program

/-- The place of a character bank. -/
def characterBankStart (header : Header) (index : Nat) : Nat :=
  header.programBankStart header.programBanks.toNat + index * bankSizes.character

end Header

namespace Image

/-- The part of an image that starts at `first`, which has to lie wholly inside. -/
def slice (image : Array UInt8) (first length : Nat) : Except Fault (Array UInt8) :=
  if first + length ≤ image.size then .ok (image.extract first (first + length))
  else .error (.malformed (.bankOutside first (first + length) image.size))

/-- A program bank by its number. -/
def programBank (image : Array UInt8) (index : Nat) : Except Fault (Array UInt8) := do
  let header ← Header.parse image
  if index < header.programBanks.toNat then
    slice image (header.programBankStart index) bankSizes.program
  else .error (.invalidIndex index)

/-- A character bank by its number. -/
def characterBank (image : Array UInt8) (index : Nat) : Except Fault (Array UInt8) := do
  let header ← Header.parse image
  if index < header.characterBanks.toNat then
    slice image (header.characterBankStart index) bankSizes.character
  else .error (.invalidIndex index)

/-- The image with bytes replaced from a place on. Bytes beyond its end are dropped. -/
def patch : Array UInt8 → Nat → List UInt8 → Array UInt8
  | image, _, [] => image
  | image, first, byte :: bytes => patch (image.setIfInBounds first byte) (first + 1) bytes

end Image

end NesMachine
