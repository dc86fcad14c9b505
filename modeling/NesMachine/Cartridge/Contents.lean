import NesMachine.Cartridge.Image

/-!
# `NesMachine/Cartridge/Contents.lean` — making an image

`Contents` has everything that an image holds as parts of their own, and `toImage` puts them one
after another. The counts in the header are the counts of the banks, so they cannot disagree; what
the two flag bytes say about the parts is up to the caller.

`counted` is the plainest cartridge with given counts. Its banks are filled with their own number,
so a bank found in memory can be told by any of its bytes. `countedImage` is the same cartridge put
together as bytes, from the front to the back and without parts.
-/

set_option autoImplicit false

namespace NesMachine

/-- The parts of a cartridge image. -/
structure Contents where
  flags6 : UInt8
  flags7 : UInt8
  /-- The header bytes after the flags. -/
  rest : Vector UInt8 8
  trainer : Array UInt8
  programBanks : Array (Array UInt8)
  characterBanks : Array (Array UInt8)
  /-- What stands after the last bank. -/
  trailing : Array UInt8

namespace Contents

/-- The header of the image. -/
def header (contents : Contents) : Header where
  bytes := Header.signature
    ++ #v[UInt8.ofNat contents.programBanks.size, UInt8.ofNat contents.characterBanks.size,
      contents.flags6, contents.flags7]
    ++ contents.rest

/-- The parts in the order of the format. -/
def toImage (contents : Contents) : Array UInt8 :=
  contents.header.bytes.toArray ++ contents.trainer ++ contents.programBanks.flatten
    ++ contents.characterBanks.flatten ++ contents.trailing

/-- Banks of one size, each filled with its number counted from `first`. -/
def countedBanks (size : Nat) (first : UInt8) (count : Nat) : Array (Array UInt8) :=
  (Array.range count).map fun index => Array.replicate size (first + UInt8.ofNat index)

/-- The cartridge with the given counts of banks and nothing else. Program banks are numbered from
one and character banks from 128, modulo 256. -/
def counted (program character : UInt8) : Contents where
  flags6 := 0
  flags7 := 0
  rest := Vector.replicate 8 0
  trainer := #[]
  programBanks := countedBanks bankSizes.program 1 program.toNat
  characterBanks := countedBanks bankSizes.character 0x80 character.toNat
  trailing := #[]

/-- The image with `count` banks behind it, each filled with its number counted from `first`. -/
def appendBanks (size : Nat) (first : UInt8) (count : Nat) (image : Array UInt8) : Array UInt8 :=
  (List.range count).foldl
    (fun image bank => image ++ Array.replicate size (first + UInt8.ofNat bank)) image

/-- The image of the counted cartridge: the signature, the two counts, ten more bytes of header that
are zero, the program banks and the character banks. -/
def countedImage (program character : UInt8) : Array UInt8 :=
  let header := ((Header.signature.toArray.push program).push character) ++ Array.replicate 10 0
  appendBanks bankSizes.character 0x80 character.toNat
    (appendBanks bankSizes.program 1 program.toNat header)

theorem size_countedBanks (size : Nat) (first : UInt8) (count : Nat) :
    (countedBanks size first count).size = count := by
  simp [countedBanks]

end Contents

end NesMachine
