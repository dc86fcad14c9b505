import NesMachine.Fault

/-!
# `NesMachine/Cartridge/Header.lean` — the sixteen bytes before a cartridge's banks

A header is kept as its bytes, and everything it says is read off them by a function of its own:
nothing is decoded twice and nothing is lost. The first four bytes are fixed, the next two count
banks, and two more hold flags in which the mapper number lies in two halves.

Two bits of the second flag byte tell which of two layouts the remaining bytes have; `Extension`
shows them under either.
-/

set_option autoImplicit false

namespace NesMachine

open Text

/-- Which way the two name tables are laid out. -/
inductive Mirroring where
  | horizontal
  | vertical
  deriving DecidableEq

/-- The layout's name for the orientation. -/
def Mirroring.name : Mirroring → String
  | horizontal => "Horizontal"
  | vertical => "Vertical"

/-- The two revisions of the header layout. -/
inductive Layout where
  | ines
  | ines2
  deriving DecidableEq

/-- The name of a revision. -/
def Layout.name : Layout → String
  | ines => "Ines"
  | ines2 => "Ines2"

/-- What the first revision keeps after the flags. -/
structure InesFields where
  /-- The size of the program's own memory, in units of eight kilobytes. -/
  programRamSize : UInt8
  /-- Zero for sixty pictures a second, one for fifty. -/
  tvSystem : UInt8
  flags10 : UInt8
  deriving DecidableEq

/-- What the second revision keeps after the flags. -/
structure Ines2Fields where
  /-- Bits eight to eleven of the mapper number. -/
  mapperHigh : UInt8
  submapper : UInt8
  programBanksHigh : UInt8
  characterBanksHigh : UInt8
  programRamShift : UInt8
  programSavedRamShift : UInt8
  characterRamShift : UInt8
  characterSavedRamShift : UInt8
  tvMode : UInt8
  vsPicture : UInt8
  vsMode : UInt8
  deriving DecidableEq

/-- The bytes after the flags, as the header's own revision has them. -/
inductive Extension where
  | ines (fields : InesFields)
  | ines2 (fields : Ines2Fields)
  deriving DecidableEq

/-- A cartridge header. -/
structure Header where
  bytes : Vector UInt8 16
  deriving DecidableEq

namespace Header

/-- The count of header bytes. -/
def size : Nat := 16

/-- The four bytes that every image starts with. -/
def signature : Vector UInt8 4 := #v[0x4E, 0x45, 0x53, 0x1A]

/-- The header of an image, which has to be long enough for one. -/
def parse (image : Array UInt8) : Except Fault Header :=
  if long : size ≤ image.size then
    .ok ⟨Vector.ofFn fun index : Fin 16 =>
      have inside : index.val < image.size := Nat.lt_of_lt_of_le index.isLt long
      image[index.val]⟩
  else .error (.malformed (.shortImage image.size))

/-- The first four bytes. -/
def magic (header : Header) : Vector UInt8 4 :=
  #v[header.bytes[0], header.bytes[1], header.bytes[2], header.bytes[3]]

/-- Holds if the first four bytes are those of the format. -/
def hasSignature (header : Header) : Bool := header.magic == signature

/-- The count of program banks. -/
def programBanks (header : Header) : UInt8 := header.bytes[4]

/-- The count of character banks. -/
def characterBanks (header : Header) : UInt8 := header.bytes[5]

/-- The first flag byte. -/
def flags6 (header : Header) : UInt8 := header.bytes[6]

/-- The second flag byte. -/
def flags7 (header : Header) : UInt8 := header.bytes[7]

/-- How the name tables are laid out. -/
def mirroring (header : Header) : Mirroring :=
  if header.flags6 &&& 0x01 != 0 then .vertical else .horizontal

/-- Whether the cartridge keeps memory while it is switched off. -/
def hasSavedRam (header : Header) : Bool := header.flags6 &&& 0x02 != 0

/-- Whether a trainer stands between the header and the banks. -/
def hasTrainer (header : Header) : Bool := header.flags6 &&& 0x04 != 0

/-- Whether the cartridge has name tables of its own. -/
def hasFourScreens (header : Header) : Bool := header.flags6 &&& 0x08 != 0

/-- The mapper number: its low half stands in the first flag byte, its high half in the second. -/
def mapper (header : Header) : UInt8 := header.flags6 >>> 4 ||| (header.flags7 &&& 0xF0)

/-- Whether the cartridge is for a coin-operated console. -/
def isVsSystem (header : Header) : Bool := header.flags7 &&& 0x01 != 0

/-- Whether the cartridge is for a coin-operated console with hints. -/
def isPlayChoice (header : Header) : Bool := header.flags7 &&& 0x02 != 0

/-- The revision that the header follows. -/
def layout (header : Header) : Layout :=
  if header.flags7 >>> 2 &&& 0x03 == 2 then .ines2 else .ines

/-- The lower half of a byte. -/
def lowNibble (byte : UInt8) : UInt8 := byte &&& 0x0F

/-- The upper half of a byte. -/
def highNibble (byte : UInt8) : UInt8 := byte >>> 4

/-- The bytes after the flags, as the header's revision has them. -/
def extension (header : Header) : Extension :=
  match header.layout with
  | .ines => .ines {
      programRamSize := header.bytes[8]
      tvSystem := header.bytes[9] &&& 0x01
      flags10 := header.bytes[10] }
  | .ines2 => .ines2 {
      mapperHigh := lowNibble header.bytes[8]
      submapper := highNibble header.bytes[8]
      programBanksHigh := lowNibble header.bytes[9]
      characterBanksHigh := highNibble header.bytes[9]
      programRamShift := lowNibble header.bytes[10]
      programSavedRamShift := highNibble header.bytes[10]
      characterRamShift := lowNibble header.bytes[11]
      characterSavedRamShift := highNibble header.bytes[11]
      tvMode := header.bytes[12] &&& 0x03
      vsPicture := lowNibble header.bytes[13]
      vsMode := highNibble header.bytes[13] }

/-- Whether a console takes cartridges with this header: the signature has to be there before
anything else in the header is believed, and the second revision is not taken. -/
def accept (header : Header) : Except Fault Unit :=
  if header.hasSignature then
    match header.layout with
    | .ines => .ok ()
    | .ines2 => .error (.unsupported .ines2)
  else .error (.malformed (.badMagic header.magic.toList))

/-- What the header says, in one line. -/
def render (header : Header) : String :=
  header.layout.name ++ " PRG:" ++ toString header.programBanks.toNat ++ "x16KB CHR:"
    ++ toString header.characterBanks.toNat ++ "x8KB mapper:" ++ toString header.mapper.toNat
    ++ " mirroring:" ++ header.mirroring.name ++ " sram:" ++ bit header.hasSavedRam
    ++ " trainer:" ++ bit header.hasTrainer ++ " four-screen:" ++ bit header.hasFourScreens

end Header

end NesMachine
