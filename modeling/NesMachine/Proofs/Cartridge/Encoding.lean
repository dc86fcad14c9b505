import Mathlib.Data.Nat.Bitwise
import NesMachine.Proofs.Cartridge.Acceptance

/-!
# `NesMachine/Proofs/Cartridge/Encoding.lean` — a header says what was put into it

A header is sixteen bytes, and what it says lies in pieces of them: single bits, half bytes, and a
mapper number in two halves that are in different bytes. The accessors cut the pieces out with masks
and shifts, each on its own. Here the same layout is written down the other way round, as what to put
where (`HeaderFields.bytes`), for both revisions, and every accessor gives back what was put in
(`HeaderFields.says_bytes`).

The layout of a byte is a list of numbers with their widths, lowest bits first, and the one lemma that
all fields need is that each number is found behind the widths of those before it
(`BitField.bits_byte`). What a mask or a shift cuts out is said in the same terms, by the place and the
width of the piece. So the fields of a byte cannot get into each other's way, and neither can the bits
that nothing reads.
-/

set_option autoImplicit false

namespace NesMachine

/-! ## Numbers side by side in a byte -/

/-- A number of so many bits. -/
structure BitField where
  width : Nat
  value : Fin (2 ^ width)

/-- The number in some bits of a byte. -/
def bits (byte : UInt8) (first width : Nat) : Nat := byte.toNat / 2 ^ first % 2 ^ width

namespace BitField

/-- A single bit. -/
def flag (set : Bool) : BitField := ⟨1, if set then 1 else 0⟩

def totalWidth : List BitField → Nat
  | [] => 0
  | field :: rest => field.width + totalWidth rest

/-- The numbers side by side, the first one in the lowest bits. -/
def pack : List BitField → Nat
  | [] => 0
  | field :: rest => field.value + 2 ^ field.width * pack rest

/-- The byte that the numbers make; they have to be eight bits together. -/
def byte (fields : List BitField) : UInt8 := .ofNat (pack fields)

theorem totalWidth_append (before after : List BitField) :
    totalWidth (before ++ after) = totalWidth before + totalWidth after := by
  induction before with
  | nil => exact (Nat.zero_add _).symm
  | cons field rest ih =>
    rw [List.cons_append, totalWidth, totalWidth, ih, Nat.add_assoc]

theorem pack_lt (fields : List BitField) : pack fields < 2 ^ totalWidth fields := by
  induction fields with
  | nil => exact Nat.one_pos
  | cons field rest ih =>
    have hvalue := field.value.isLt
    calc field.value + 2 ^ field.width * pack rest
        < 2 ^ field.width + 2 ^ field.width * pack rest := Nat.add_lt_add_right hvalue _
      _ = 2 ^ field.width * (pack rest + 1) := by rw [Nat.mul_succ, Nat.add_comm]
      _ ≤ 2 ^ field.width * 2 ^ totalWidth rest := Nat.mul_le_mul_left _ ih
      _ = 2 ^ totalWidth (field :: rest) := (Nat.pow_add 2 _ _).symm

/-- What is behind the first numbers is the packing of the others. -/
theorem pack_append (before after : List BitField) :
    pack (before ++ after) / 2 ^ totalWidth before = pack after := by
  induction before with
  | nil => exact Nat.div_one _
  | cons field rest ih =>
    have hwidth : 0 < 2 ^ field.width := Nat.two_pow_pos _
    rw [List.cons_append, pack, totalWidth, Nat.pow_add, ← Nat.div_div_eq_div_mul,
      Nat.add_mul_div_left _ _ hwidth, Nat.div_eq_of_lt field.value.isLt, Nat.zero_add]
    exact ih

/-- **A number is found behind the widths of those before it.** -/
theorem bits_byte (before : List BitField) (field : BitField) (after : List BitField)
    (h : totalWidth (before ++ field :: after) = 8) :
    bits (byte (before ++ field :: after)) (totalWidth before) field.width = field.value := by
  have hlt := pack_lt (before ++ field :: after)
  rw [h] at hlt
  rw [bits, byte, UInt8.toNat_ofNat', Nat.mod_eq_of_lt hlt, pack_append, pack,
    Nat.add_mul_mod_self_left, Nat.mod_eq_of_lt field.value.isLt]

end BitField

/-! ## What masks and shifts cut out -/

section

variable (byte : UInt8)

theorem bits_zero (width : Nat) : bits byte 0 width = byte.toNat % 2 ^ width := by
  rw [bits, Nat.pow_zero, Nat.div_one]

/-- A mask of so many ones cuts out the lowest bits. -/
theorem toNat_and_mask (width : Nat) (h : width ≤ 8) :
    (byte &&& .ofNat (2 ^ width - 1)).toNat = bits byte 0 width := by
  have hle : 2 ^ width ≤ 2 ^ 8 := Nat.pow_le_pow_right (by decide) h
  have hmask : (UInt8.ofNat (2 ^ width - 1)).toNat = 2 ^ width - 1 := by
    rw [UInt8.toNat_ofNat', Nat.mod_eq_of_lt]
    exact Nat.lt_of_lt_of_le (Nat.sub_lt (Nat.two_pow_pos width) Nat.one_pos) hle
  rw [UInt8.toNat_and, hmask, Nat.and_two_pow_sub_one_eq_mod, bits_zero]

theorem toNat_lowNibble : (Header.lowNibble byte).toNat = bits byte 0 4 :=
  toNat_and_mask byte 4 (by decide)

theorem toNat_highNibble : (Header.highNibble byte).toNat = bits byte 4 4 := by
  have hlt : byte.toNat / 2 ^ 4 < 2 ^ 4 := Nat.div_lt_of_lt_mul byte.toNat_lt
  rw [Header.highNibble, bits, Nat.mod_eq_of_lt hlt, UInt8.toNat_shiftRight]
  exact Nat.shiftRight_eq_div_pow _ _

/-- The two bits above the lowest two. -/
theorem toNat_middle : (byte >>> 2 &&& 0x03).toNat = bits byte 2 2 := by
  have hmasked : (byte >>> 2 &&& 0x03).toNat = bits (byte >>> 2) 0 2 :=
    toNat_and_mask (byte >>> 2) 2 (by decide)
  rw [hmasked, bits_zero, UInt8.toNat_shiftRight]
  exact congrArg (· % 2 ^ 2) (Nat.shiftRight_eq_div_pow _ _)

/-- The upper half of a byte, left where it is. -/
theorem toNat_and_upper : (byte &&& 0xF0).toNat = 2 ^ 4 * bits byte 4 4 := by
  have hall : ∀ n < 256, (UInt8.ofNat n &&& 0xF0).toNat = 2 ^ 4 * bits (.ofNat n) 4 4 := by
    decide +kernel
  have hbyte := hall byte.toNat byte.toNat_lt
  rw [UInt8.ofNat_toNat] at hbyte
  exact hbyte

/-- A byte's upper half moved down, and another one's upper half left where it is. -/
theorem toNat_halves (other : UInt8) :
    (byte >>> 4 ||| (other &&& 0xF0)).toNat = bits byte 4 4 + 2 ^ 4 * bits other 4 4 := by
  have hlow : (byte >>> 4).toNat = bits byte 4 4 := toNat_highNibble byte
  have hlt : bits byte 4 4 < 2 ^ 4 := Nat.mod_lt _ (Nat.two_pow_pos 4)
  rw [UInt8.toNat_or, hlow, toNat_and_upper, Nat.or_comm, ← Nat.two_pow_add_eq_or_of_lt hlt,
    Nat.add_comm]

/-- A mask of a single one tells whether the bit is set. -/
theorem and_two_pow_ne_zero {i : Nat} (hi : i < 8) :
    (byte &&& .ofNat (2 ^ i) != 0) = decide (bits byte i 1 = 1) := by
  have hmask : (UInt8.ofNat (2 ^ i)).toNat = 2 ^ i := by
    rw [UInt8.toNat_ofNat', Nat.mod_eq_of_lt (Nat.pow_lt_pow_right (by decide) hi)]
  have hmasked : (byte &&& .ofNat (2 ^ i)).toNat = (byte.toNat.testBit i).toNat * 2 ^ i := by
    rw [UInt8.toNat_and, hmask, Nat.and_two_pow]
  have hbit : byte.toNat.testBit i = decide (bits byte i 1 = 1) := Nat.testBit_eq_decide_div_mod_eq
  rw [← hbit]
  cases hset : byte.toNat.testBit i with
  | true =>
    rw [hset, Bool.toNat_true, Nat.one_mul] at hmasked
    refine bne_iff_ne.mpr fun hzero => ?_
    rw [hzero] at hmasked
    exact Nat.ne_of_lt (Nat.two_pow_pos i) hmasked
  | false =>
    rw [hset, Bool.toNat_false, Nat.zero_mul] at hmasked
    have hzero : byte &&& .ofNat (2 ^ i) = 0 := UInt8.toNat_inj.mp hmasked
    rw [hzero]
    rfl

end

/-! ## The layout of a header -/

/-- What the first revision has behind the flags, and the bits that it does not use. -/
structure InesTail where
  /-- The two bits that tell the revision. -/
  format : { format : Fin 4 // format ≠ 2 }
  programRamSize : UInt8
  tvSystem : Fin 2
  unused9 : Fin 128
  flags10 : UInt8
  unused : Vector UInt8 5

/-- What the second revision has behind the flags, and the bits that it does not use. -/
structure Ines2Tail where
  mapperHigh : Fin 16
  submapper : Fin 16
  programBanksHigh : Fin 16
  characterBanksHigh : Fin 16
  programRamShift : Fin 16
  programSavedRamShift : Fin 16
  characterRamShift : Fin 16
  characterSavedRamShift : Fin 16
  tvMode : Fin 4
  unused12 : Fin 64
  vsPicture : Fin 16
  vsMode : Fin 16
  unused : Vector UInt8 2

inductive HeaderTail where
  | ines (tail : InesTail)
  | ines2 (tail : Ines2Tail)

/-- Everything that goes into a header. -/
structure HeaderFields where
  magic : Vector UInt8 4
  programBanks : UInt8
  characterBanks : UInt8
  mirroring : Mirroring
  savedRam : Bool
  trainer : Bool
  fourScreens : Bool
  mapper : UInt8
  vsSystem : Bool
  playChoice : Bool
  tail : HeaderTail

/-- A byte of two halves. -/
def nibbles (low high : Fin 16) : UInt8 := BitField.byte [⟨4, low⟩, ⟨4, high⟩]

namespace HeaderTail

def format : HeaderTail → Fin 4
  | ines tail => tail.format
  | ines2 _ => 2

/-- The eight bytes behind the flags. -/
def bytes : HeaderTail → Vector UInt8 8
  | ines tail =>
    #v[tail.programRamSize, BitField.byte [⟨1, tail.tvSystem⟩, ⟨7, tail.unused9⟩], tail.flags10,
      tail.unused[0], tail.unused[1], tail.unused[2], tail.unused[3], tail.unused[4]]
  | ines2 tail =>
    #v[nibbles tail.mapperHigh tail.submapper,
      nibbles tail.programBanksHigh tail.characterBanksHigh,
      nibbles tail.programRamShift tail.programSavedRamShift,
      nibbles tail.characterRamShift tail.characterSavedRamShift,
      BitField.byte [⟨2, tail.tvMode⟩, ⟨6, tail.unused12⟩],
      nibbles tail.vsPicture tail.vsMode,
      tail.unused[0], tail.unused[1]]

/-- The same in the form in which a header tells it. -/
def extension : HeaderTail → Extension
  | ines tail => .ines {
      programRamSize := tail.programRamSize
      tvSystem := .ofNat tail.tvSystem
      flags10 := tail.flags10 }
  | ines2 tail => .ines2 {
      mapperHigh := .ofNat tail.mapperHigh
      submapper := .ofNat tail.submapper
      programBanksHigh := .ofNat tail.programBanksHigh
      characterBanksHigh := .ofNat tail.characterBanksHigh
      programRamShift := .ofNat tail.programRamShift
      programSavedRamShift := .ofNat tail.programSavedRamShift
      characterRamShift := .ofNat tail.characterRamShift
      characterSavedRamShift := .ofNat tail.characterSavedRamShift
      tvMode := .ofNat tail.tvMode
      vsPicture := .ofNat tail.vsPicture
      vsMode := .ofNat tail.vsMode }

end HeaderTail

namespace HeaderFields

def mapperLow (fields : HeaderFields) : Fin 16 :=
  ⟨fields.mapper.toNat % 16, Nat.mod_lt _ (by decide)⟩

def mapperHigh (fields : HeaderFields) : Fin 16 :=
  ⟨fields.mapper.toNat / 16, Nat.div_lt_of_lt_mul fields.mapper.toNat_lt⟩

/-- The first flag byte, with the lower half of the mapper number. -/
def flags6 (fields : HeaderFields) : UInt8 :=
  BitField.byte [.flag (fields.mirroring = .vertical), .flag fields.savedRam, .flag fields.trainer,
    .flag fields.fourScreens, ⟨4, fields.mapperLow⟩]

/-- The second flag byte, with the upper half of the mapper number. -/
def flags7 (fields : HeaderFields) : UInt8 :=
  BitField.byte [.flag fields.vsSystem, .flag fields.playChoice, ⟨2, fields.tail.format⟩,
    ⟨4, fields.mapperHigh⟩]

/-- The sixteen bytes. -/
def bytes (fields : HeaderFields) : Vector UInt8 16 :=
  #v[fields.magic[0], fields.magic[1], fields.magic[2], fields.magic[3],
    fields.programBanks, fields.characterBanks, fields.flags6, fields.flags7,
    fields.tail.bytes[0], fields.tail.bytes[1], fields.tail.bytes[2], fields.tail.bytes[3],
    fields.tail.bytes[4], fields.tail.bytes[5], fields.tail.bytes[6], fields.tail.bytes[7]]

end HeaderFields

/-! ## What a header says -/

/-- The header says what was put into it, whichever of its accessors is asked. -/
structure Header.Says (header : Header) (fields : HeaderFields) : Prop where
  magic : header.magic = fields.magic
  programBanks : header.programBanks = fields.programBanks
  characterBanks : header.characterBanks = fields.characterBanks
  flags6 : header.flags6 = fields.flags6
  flags7 : header.flags7 = fields.flags7
  mirroring : header.mirroring = fields.mirroring
  savedRam : header.hasSavedRam = fields.savedRam
  trainer : header.hasTrainer = fields.trainer
  fourScreens : header.hasFourScreens = fields.fourScreens
  mapper : header.mapper = fields.mapper
  vsSystem : header.isVsSystem = fields.vsSystem
  playChoice : header.isPlayChoice = fields.playChoice
  layout : header.layout = .ines2 ↔ fields.tail.format = 2
  signature : header.hasSignature = true ↔ fields.magic = #v[0x4E, 0x45, 0x53, 0x1A]
  extension : header.extension = fields.tail.extension

/-- A bit behind others is read by its mask. -/
theorem BitField.mask_flag (before : List BitField) (set : Bool) (after : List BitField)
    (h : totalWidth (before ++ flag set :: after) = 8) :
    (byte (before ++ flag set :: after) &&& .ofNat (2 ^ totalWidth before) != 0) = set := by
  have hbefore : totalWidth before < 8 := by
    rw [← h, totalWidth_append]
    exact Nat.lt_add_of_pos_right (Nat.lt_add_right _ Nat.one_pos)
  have hbit : bits (byte (before ++ flag set :: after)) (totalWidth before) 1
      = (flag set).value := bits_byte before (flag set) after h
  rw [and_two_pow_ne_zero _ hbefore, hbit]
  cases set <;> rfl

theorem eq_ofNat {byte : UInt8} {n : Nat} (h : byte.toNat = n) : byte = .ofNat n := by
  rw [← h, UInt8.ofNat_toNat]

section

variable (low high : Fin 16)

theorem lowNibble_nibbles : Header.lowNibble (nibbles low high) = .ofNat low :=
  eq_ofNat ((toNat_lowNibble _).trans (BitField.bits_byte [] _ _ rfl))

theorem highNibble_nibbles : Header.highNibble (nibbles low high) = .ofNat high :=
  eq_ofNat ((toNat_highNibble _).trans (BitField.bits_byte [_] _ [] rfl))

end

/-- The lowest bits of a byte, under a mask of their width. -/
theorem BitField.mask_byte (field : BitField) (after : List BitField)
    (h : totalWidth (field :: after) = 8) :
    byte (field :: after) &&& .ofNat (2 ^ field.width - 1) = .ofNat field.value :=
  have hwidth : field.width ≤ 8 := Nat.le.intro h
  eq_ofNat ((toNat_and_mask _ field.width hwidth).trans (bits_byte [] field after h))

namespace HeaderFields

variable (fields : HeaderFields)

theorem mirroring_flags6 :
    (if fields.flags6 &&& 0x01 != 0 then Mirroring.vertical else .horizontal) = fields.mirroring := by
  have hflag : (fields.flags6 &&& 0x01 != 0) = decide (fields.mirroring = .vertical) :=
    BitField.mask_flag [] _ _ rfl
  rw [hflag]
  cases fields.mirroring <;> rfl

theorem mapper_flags :
    fields.flags6 >>> 4 ||| (fields.flags7 &&& 0xF0) = fields.mapper := by
  have hlow : bits fields.flags6 4 4 = fields.mapper.toNat % 16 :=
    BitField.bits_byte [_, _, _, _] ⟨4, fields.mapperLow⟩ [] rfl
  have hhigh : bits fields.flags7 4 4 = fields.mapper.toNat / 16 :=
    BitField.bits_byte [_, _, _] ⟨4, fields.mapperHigh⟩ [] rfl
  apply UInt8.toNat_inj.mp
  rw [toNat_halves, hlow, hhigh]
  exact Nat.mod_add_div fields.mapper.toNat 16

theorem format_flags7 : fields.flags7 >>> 2 &&& 0x03 = .ofNat fields.tail.format :=
  eq_ofNat ((toNat_middle _).trans (BitField.bits_byte [_, _] ⟨2, fields.tail.format⟩ [_] rfl))

/-- The header with the bytes of the fields is of the second revision if the two bits say so. -/
theorem layout_bytes : Header.layout ⟨fields.bytes⟩ = .ines2 ↔ fields.tail.format = 2 := by
  have hformat : (fields.flags7 >>> 2 &&& 0x03 == 2) = decide (fields.tail.format = 2) := by
    rw [format_flags7]
    generalize fields.tail.format = format
    revert format
    decide
  rw [Header.layout, show Header.flags7 ⟨fields.bytes⟩ = fields.flags7 from rfl, hformat]
  by_cases h : fields.tail.format = 2 <;> simp [h]

theorem extension_bytes : Header.extension ⟨fields.bytes⟩ = fields.tail.extension := by
  have hlayout := fields.layout_bytes
  obtain ⟨magic, programBanks, characterBanks, mirroring, savedRam, trainer, fourScreens, mapper,
    vsSystem, playChoice, tail⟩ := fields
  cases tail with
  | ines tail =>
    rw [Header.extension]
    split
    · refine congrArg Extension.ines ?_
      congr 1
      exact BitField.mask_byte ⟨1, tail.tvSystem⟩ [_] rfl
    · rename_i h
      exact absurd (hlayout.mp h) tail.format.property
  | ines2 tail =>
    rw [Header.extension, hlayout.mpr rfl]
    refine congrArg Extension.ines2 ?_
    congr 1
    · exact lowNibble_nibbles _ _
    · exact highNibble_nibbles _ _
    · exact lowNibble_nibbles _ _
    · exact highNibble_nibbles _ _
    · exact lowNibble_nibbles _ _
    · exact highNibble_nibbles _ _
    · exact lowNibble_nibbles _ _
    · exact highNibble_nibbles _ _
    · exact BitField.mask_byte ⟨2, tail.tvMode⟩ [_] rfl
    · exact lowNibble_nibbles _ _
    · exact highNibble_nibbles _ _

theorem magic_bytes : Header.magic ⟨fields.bytes⟩ = fields.magic := by
  refine Vector.ext fun i hi => ?_
  obtain rfl | rfl | rfl | rfl : i = 0 ∨ i = 1 ∨ i = 2 ∨ i = 3 := by omega
  all_goals rfl

/-- **Every accessor gives back what was put in.** -/
theorem says_bytes : Header.Says ⟨fields.bytes⟩ fields where
  magic := fields.magic_bytes
  programBanks := rfl
  characterBanks := rfl
  flags6 := rfl
  flags7 := rfl
  mirroring := fields.mirroring_flags6
  savedRam := BitField.mask_flag [_] fields.savedRam _ rfl
  trainer := BitField.mask_flag [_, _] fields.trainer _ rfl
  fourScreens := BitField.mask_flag [_, _, _] fields.fourScreens _ rfl
  mapper := fields.mapper_flags
  vsSystem := BitField.mask_flag [] fields.vsSystem _ rfl
  playChoice := BitField.mask_flag [_] fields.playChoice _ rfl
  layout := fields.layout_bytes
  signature := by
    rw [Header.hasSignature, beq_iff_eq, fields.magic_bytes]
    rfl
  extension := fields.extension_bytes

example :
    bytes ⟨Header.signature, 1, 1, .vertical, true, false, false, 0x21, false, false,
        .ines ⟨⟨0, by decide⟩, 0, 0, 0, 0, #v[0, 0, 0, 0, 0]⟩⟩
      = #v[0x4E, 0x45, 0x53, 0x1A, 1, 1, 0x13, 0x20, 0, 0, 0, 0, 0, 0, 0, 0] := by
  decide

end HeaderFields

namespace Header

/-- A header in front of anything is found. -/
theorem parse_append (bytes : Vector UInt8 16) (after : Array UInt8) :
    parse (bytes.toArray ++ after) = .ok ⟨bytes⟩ := by
  have hlong : 16 ≤ (bytes.toArray ++ after).size := by
    rw [Array.size_append, Vector.size_toArray]
    exact Nat.le_add_right 16 _
  have hbytes : (ofImage (bytes.toArray ++ after)).bytes = bytes := by
    refine Vector.ext fun i hi => ?_
    have hin : i < bytes.toArray.size := by rwa [Vector.size_toArray]
    have hlt : i < (bytes.toArray ++ after).size := Nat.lt_of_lt_of_le hi hlong
    have hcell : (bytes.toArray ++ after).getD i 0 = (bytes.toArray ++ after)[i] :=
      (Array.getElem_eq_getD 0).symm
    rw [getElem_ofImage hi, hcell, Array.getElem_append_left hin, Vector.getElem_toArray]
  rw [parse_of_long hlong]
  exact congrArg (fun bytes => Except.ok (Header.mk bytes)) hbytes

/-- **A header says what was put into it, and there is one in sixteen bytes and no fewer.**

What an accessor answers is the part of its own, so it depends on no other part, on no bit that the
revision does not use, and on nothing behind the header. An image is refused if it is too short for a
header, and this is the only way to be refused: whether the parts make sense is not asked here. -/
theorem parse_readsBack :
    (∀ (fields : HeaderFields) (after : Array UInt8), ∃ header,
      parse (fields.bytes.toArray ++ after) = .ok header ∧ header.Says fields) ∧
    ∀ (image : Array UInt8) (fault : Fault),
      parse image = .error fault
        ↔ image.size < 16 ∧ fault = .malformed (.shortImage image.size) := by
  refine ⟨fun fields after => ⟨_, parse_append _ after, fields.says_bytes⟩, ?_⟩
  intro image fault
  by_cases hshort : image.size < 16
  · rw [parse_of_short hshort, Except.error.injEq, and_iff_right hshort]
    exact eq_comm
  · rw [parse_of_long (Nat.le_of_not_lt hshort)]
    constructor
    · intro h
      cases h
    · intro h
      exact absurd h.1 hshort

end Header

end NesMachine
