import NesMachine.Cartridge.Contents
import NesMachine.Proofs.Cartridge.Acceptance

/-!
# `NesMachine/Proofs/Cartridge/Layout.lean` — what was laid out is found again

`Contents.toImage` puts the parts of a cartridge one after another, and the slot finds them by
computing where they begin. The two agree as long as the parts are what the header says they are:
every bank has the size of its kind, and there is a trainer exactly if the header counts one. That is
`Contents.WellFormed`, and nothing else is asked of the parts, so any bytes may stand in the banks,
in the header after the flags, and after the last bank.

The arithmetic of it is in one lemma on blocks of one size in a row (`Image.slice_flatten`). Both
kinds of banks are such blocks, with everything that stands before them as the part that is skipped.

An image can also be put together from the front, bank by bank. The counted image is, and it is the
image of its parts (`Contents.countedImage_eq`).
-/

set_option autoImplicit false

namespace NesMachine

/-! ## Blocks in a row -/

theorem size_flatten_of_uniform {blocks : Array (Array UInt8)} {size : Nat}
    (h : ∀ block ∈ blocks, block.size = size) : blocks.flatten.size = blocks.size * size := by
  rw [Array.size_flatten, Array.map_eq_replicate_iff.mpr h, Array.sum_replicate_nat]

/-- A block has the blocks before it in front of it, and nothing else. -/
theorem exists_flatten_eq {blocks : Array (Array UInt8)} {size i : Nat} {block : Array UInt8}
    (h : ∀ block ∈ blocks, block.size = size) (hi : blocks[i]? = some block) :
    ∃ before after, blocks.flatten = before ++ block ++ after ∧ before.size = i * size := by
  obtain ⟨hlt, rfl⟩ := Array.getElem?_eq_some_iff.mp hi
  have hsplit : blocks.extract 0 i ++ #[blocks[i]] ++ blocks.extract (i + 1) = blocks := by
    simp [Nat.max_eq_right hlt]
  have hbefore : ∀ block ∈ blocks.extract 0 i, block.size = size := by
    intro block hblock
    obtain ⟨k, hk, rfl⟩ := Array.mem_iff_getElem.mp hblock
    rw [Array.getElem_extract]
    exact h _ (Array.getElem_mem _)
  refine ⟨(blocks.extract 0 i).flatten, (blocks.extract (i + 1)).flatten, ?_, ?_⟩
  · conv => lhs; rw [← hsplit]
    rw [Array.flatten_append, Array.flatten_append, Array.flatten_singleton]
  · rw [size_flatten_of_uniform hbefore, Array.size_extract, Nat.min_eq_left (Nat.le_of_lt hlt),
      Nat.sub_zero]

namespace Image

theorem slice_append (before part after : Array UInt8) :
    slice (before ++ part ++ after) before.size part.size = .ok part := by
  rw [slice, if_pos (by simp)]
  simp [Array.extract_append]

/-- **A block is found by its number**, wherever the row of blocks begins. -/
theorem slice_flatten {blocks : Array (Array UInt8)} {size i : Nat} {block : Array UInt8}
    (before after : Array UInt8) (h : ∀ block ∈ blocks, block.size = size)
    (hi : blocks[i]? = some block) :
    slice (before ++ blocks.flatten ++ after) (before.size + i * size) size = .ok block := by
  obtain ⟨front, back, hflatten, hfront⟩ := exists_flatten_eq h hi
  have hsize : block.size = size := h block (Array.mem_of_getElem? hi)
  have hrow : before ++ blocks.flatten ++ after = (before ++ front) ++ block ++ (back ++ after) := by
    simp only [hflatten, Array.append_assoc]
  have hplace : before.size + i * size = (before ++ front).size := by
    rw [Array.size_append, hfront]
  rw [hrow, hplace, ← hsize]
  exact slice_append _ _ _

/-! ## Banks by number -/

variable {image : Array UInt8} {index : Nat}

theorem programBank_of_le (hlong : 16 ≤ image.size) (h : (image.getD 4 0).toNat ≤ index) :
    programBank image index = .error (.invalidIndex index) := by
  rw [programBank, Header.parse_of_long hlong, Fault.ok_bind, Header.programBanks_ofImage,
    if_neg (Nat.not_lt_of_le h)]

theorem characterBank_eq (hlong : 16 ≤ image.size) (h : index < (image.getD 5 0).toNat) :
    characterBank image index
      = slice image ((Header.ofImage image).characterBankStart index) 8192 := by
  rw [characterBank, Header.parse_of_long hlong, Fault.ok_bind, Header.characterBanks,
    Header.getElem_ofImage (by decide), if_pos h, show bankSizes.character = 8192 from rfl]

theorem characterBank_of_le (hlong : 16 ≤ image.size) (h : (image.getD 5 0).toNat ≤ index) :
    characterBank image index = .error (.invalidIndex index) := by
  rw [characterBank, Header.parse_of_long hlong, Fault.ok_bind, Header.characterBanks,
    Header.getElem_ofImage (by decide), if_neg (Nat.not_lt_of_le h)]

end Image

namespace Contents

/-! ## The image of well-formed contents -/

/-- The parts are what the header says they are, in a layout that the slot takes. -/
structure WellFormed (contents : Contents) : Prop where
  programCount : contents.programBanks.size ≤ 255
  characterCount : contents.characterBanks.size ≤ 255
  programSize : ∀ bank ∈ contents.programBanks, bank.size = 16384
  characterSize : ∀ bank ∈ contents.characterBanks, bank.size = 8192
  trainerSize : contents.trainer.size = if contents.flags6 &&& 0x04 = 0 then 0 else 512
  layout : contents.flags7 >>> 2 &&& 0x03 ≠ 2

/-- The header bytes up to the flags. -/
def lead (contents : Contents) : Array UInt8 :=
  #[0x4E, 0x45, 0x53, 0x1A, .ofNat contents.programBanks.size,
    .ofNat contents.characterBanks.size, contents.flags6, contents.flags7]

/-- Everything before the program banks. -/
def front (contents : Contents) : Array UInt8 :=
  contents.lead ++ contents.rest.toArray ++ contents.trainer

theorem toImage_eq (contents : Contents) :
    contents.toImage = contents.front ++ contents.programBanks.flatten
      ++ contents.characterBanks.flatten ++ contents.trailing := by
  have hheader : contents.header.bytes.toArray = contents.lead ++ contents.rest.toArray := by
    show #[_, _, _, _] ++ #[_, _, _, _] ++ contents.rest.toArray = _
    simp [lead]
  rw [toImage, hheader, front]

theorem getD_toImage (contents : Contents) {i : Nat} (hi : i < 8) :
    contents.toImage.getD i 0 = contents.lead.getD i 0 := by
  have hlead : i < contents.lead.size := hi
  rw [toImage_eq, front]
  simp [Array.getD_eq_getD_getElem?, Array.getElem?_append, hlead]

theorem size_front (contents : Contents) : contents.front.size = 16 + contents.trainer.size := by
  simp only [front, lead, Array.size_append, Vector.size_toArray]
  rfl

theorem long_toImage (contents : Contents) : 16 ≤ contents.toImage.size := by
  simp only [toImage_eq, Array.size_append, size_front]
  omega

variable {contents : Contents} (h : contents.WellFormed)
include h

theorem WellFormed.accepted : Image.Accepted contents.toImage where
  long := contents.long_toImage
  magic := by
    rw [toImage_eq, front]
    simp [Array.extract_append, lead]
  layout := by
    rw [contents.getD_toImage (by decide)]
    exact h.layout

theorem WellFormed.programBanks :
    (contents.toImage.getD 4 0).toNat = contents.programBanks.size := by
  rw [contents.getD_toImage (by decide)]
  exact UInt8.toNat_ofNat_of_lt' (Nat.lt_succ_of_le h.programCount)

theorem WellFormed.characterBanks :
    (contents.toImage.getD 5 0).toNat = contents.characterBanks.size := by
  rw [contents.getD_toImage (by decide)]
  exact UInt8.toNat_ofNat_of_lt' (Nat.lt_succ_of_le h.characterCount)

/-- The slot skips the trainer exactly if there is one. -/
theorem WellFormed.programStart :
    (Header.ofImage contents.toImage).programStart = contents.front.size := by
  rw [Header.programStart_ofImage, contents.getD_toImage (by decide), size_front, h.trainerSize]
  rfl

theorem WellFormed.programBank {i : Nat} {bank : Array UInt8}
    (hi : contents.programBanks[i]? = some bank) :
    Image.programBank contents.toImage i = .ok bank := by
  have hlt : i < (contents.toImage.getD 4 0).toNat := by
    rw [h.programBanks]
    exact (Array.getElem?_eq_some_iff.mp hi).1
  rw [Image.programBank_eq contents.long_toImage hlt, Header.programBankStart, h.programStart,
    toImage_eq, Array.append_assoc]
  exact Image.slice_flatten _ _ h.programSize hi

/-- The character banks come after as many program banks as the header counts. -/
theorem WellFormed.characterBank {j : Nat} {bank : Array UInt8}
    (hj : contents.characterBanks[j]? = some bank) :
    Image.characterBank contents.toImage j = .ok bank := by
  have hlt : j < (contents.toImage.getD 5 0).toNat := by
    rw [h.characterBanks]
    exact (Array.getElem?_eq_some_iff.mp hj).1
  have hstart : (Header.ofImage contents.toImage).characterBankStart j
      = (contents.front ++ contents.programBanks.flatten).size + j * 8192 := by
    rw [Header.characterBankStart, Header.programBankStart, h.programStart,
      Header.programBanks_ofImage, h.programBanks, Array.size_append,
      size_flatten_of_uniform h.programSize]
    rfl
  rw [Image.characterBank_eq contents.long_toImage hlt, hstart, toImage_eq]
  exact Image.slice_flatten _ _ h.characterSize hj

omit h

/-! ## Counted banks -/

theorem getElem?_countedBanks (size : Nat) (first : UInt8) {count i : Nat} (hi : i < count) :
    (countedBanks size first count)[i]? = some (Array.replicate size (first + .ofNat i)) := by
  simp [countedBanks, hi]

theorem size_of_mem_countedBanks {size count : Nat} {first : UInt8} {bank : Array UInt8}
    (h : bank ∈ countedBanks size first count) : bank.size = size := by
  obtain ⟨i, -, rfl⟩ := Array.mem_map.mp h
  exact Array.size_replicate

theorem appendBanks_eq (size : Nat) (first : UInt8) (count : Nat) (image : Array UInt8) :
    appendBanks size first count image = image ++ (countedBanks size first count).flatten := by
  induction count with
  | zero => simp [appendBanks, countedBanks]
  | succ count ih =>
    have hbanks : countedBanks size first (count + 1)
        = countedBanks size first count ++ #[Array.replicate size (first + .ofNat count)] := by
      rw [countedBanks, countedBanks, Array.range_succ, Array.map_append, Array.map_singleton]
    have happended : appendBanks size first (count + 1) image
        = appendBanks size first count image ++ Array.replicate size (first + .ofNat count) := by
      rw [appendBanks, appendBanks, List.range_succ, List.foldl_append]
      rfl
    rw [happended, ih, hbanks, Array.flatten_append, Array.flatten_singleton, Array.append_assoc]

/-- **The bytes put together from the front are the parts one after another.** -/
theorem countedImage_eq (program character : UInt8) :
    countedImage program character = (counted program character).toImage := by
  have hheader : (counted program character).header.bytes.toArray
      = ((Header.signature.toArray.push program).push character) ++ Array.replicate 10 0 := by
    show #[_, _, _, _] ++ #[UInt8.ofNat (countedBanks _ _ _).size,
      UInt8.ofNat (countedBanks _ _ _).size, 0, 0] ++ Array.replicate 8 (0 : UInt8) = _
    rw [size_countedBanks, size_countedBanks, UInt8.ofNat_toNat, UInt8.ofNat_toNat]
    rfl
  rw [countedImage, appendBanks_eq, appendBanks_eq, ← hheader, toImage]
  simp [counted]

theorem wellFormed_counted (program character : UInt8) : (counted program character).WellFormed where
  programCount := by
    rw [counted, size_countedBanks]
    exact Nat.le_of_lt_succ program.toNat_lt
  characterCount := by
    rw [counted, size_countedBanks]
    exact Nat.le_of_lt_succ character.toNat_lt
  programSize _ := size_of_mem_countedBanks
  characterSize _ := size_of_mem_countedBanks
  trainerSize := by
    show 0 = if (0 : UInt8) &&& 0x04 = 0 then 0 else 512
    decide
  layout := by
    show (0 : UInt8) >>> 2 &&& 0x03 ≠ 2
    decide

/-! ## The round trip -/

/-- **Every part that was laid out is found again.**

An image is the signature, the two counts, the flags, the other header bytes, the trainer, the
program banks, the character banks and whatever follows, in this order. If the parts are well-formed,
a slot that is on takes the image, whatever is in the slot. Afterwards its size is that of the image,
its header has the counts and the flags, each bank is found by its number among those of its kind,
and any other number is refused by that number.

The counted image, which is put together from the front, is such an image, and its parts are the
counted contents. Their program banks are filled with their numbers from one on, and their character
banks from 128 on, modulo 256; and there is nothing else in them. -/
theorem load_finds_every_part :
    (∀ (contents : Contents) (cartridge : Cartridge), contents.WellFormed →
      cartridge.isOn = true →
      let image := contents.toImage
      let outcome := Cartridge.load image cartridge
      let later := outcome.state
      image = #[0x4E, 0x45, 0x53, 0x1A, .ofNat contents.programBanks.size,
          .ofNat contents.characterBanks.size, contents.flags6, contents.flags7]
        ++ contents.rest.toArray ++ contents.trainer ++ contents.programBanks.flatten
        ++ contents.characterBanks.flatten ++ contents.trailing ∧
      outcome.result = .ok () ∧ later = .loaded image ∧ later.size = .ok image.size ∧
      (∃ header, later.header = .ok header ∧
        header.programBanks.toNat = contents.programBanks.size ∧
        header.characterBanks.toNat = contents.characterBanks.size ∧
        header.flags6 = contents.flags6 ∧ header.flags7 = contents.flags7) ∧
      (∀ i, later.programBank i = match contents.programBanks[i]? with
        | some bank => .ok bank
        | none => .error (.invalidIndex i)) ∧
      ∀ j, later.characterBank j = match contents.characterBanks[j]? with
        | some bank => .ok bank
        | none => .error (.invalidIndex j)) ∧
    ∀ program character : UInt8,
      let made := counted program character
      countedImage program character = made.toImage ∧
      made.WellFormed ∧ made.programBanks.size = program.toNat ∧
      made.characterBanks.size = character.toNat ∧
      (∀ i < program.toNat,
        made.programBanks[i]? = some (Array.replicate 16384 (.ofNat ((i + 1) % 256)))) ∧
      (∀ j < character.toNat,
        made.characterBanks[j]? = some (Array.replicate 8192 (.ofNat ((0x80 + j) % 256)))) ∧
      made.flags6 = 0 ∧ made.flags7 = 0 ∧ made.rest = Vector.replicate 8 0 ∧
      made.trainer = #[] ∧ made.trailing = #[] := by
  refine ⟨?_, ?_⟩
  · intro contents cartridge h hon image outcome later
    obtain ⟨hresult, hlater⟩ := Cartridge.load_of_accepted hon h.accepted
    have hlater : later = .loaded image := hlater
    rw [hlater]
    refine ⟨contents.toImage_eq, hresult, rfl, rfl, ?_, ?_, ?_⟩
    · refine ⟨.ofImage image, Header.parse_of_long contents.long_toImage, ?_, ?_, ?_, ?_⟩
      · rw [Header.programBanks_ofImage, h.programBanks]
      · rw [Header.characterBanks, Header.getElem_ofImage (by decide), h.characterBanks]
      · rw [Header.flags6, Header.getElem_ofImage (by decide), contents.getD_toImage (by decide)]
        rfl
      · rw [Header.flags7, Header.getElem_ofImage (by decide), contents.getD_toImage (by decide)]
        rfl
    · intro i
      cases hi : contents.programBanks[i]? with
      | some bank => exact h.programBank hi
      | none =>
        apply Image.programBank_of_le contents.long_toImage
        rw [h.programBanks]
        exact Array.getElem?_eq_none_iff.mp hi
    · intro j
      cases hj : contents.characterBanks[j]? with
      | some bank => exact h.characterBank hj
      | none =>
        apply Image.characterBank_of_le contents.long_toImage
        rw [h.characterBanks]
        exact Array.getElem?_eq_none_iff.mp hj
  · intro program character made
    refine ⟨countedImage_eq program character, wellFormed_counted program character,
      size_countedBanks _ _ _, size_countedBanks _ _ _, ?_, ?_, rfl, rfl, rfl, rfl, rfl⟩
    · intro i hi
      have hfill : (1 : UInt8) + .ofNat i = .ofNat ((i + 1) % 256) := by
        apply UInt8.toNat_inj.mp
        simp [UInt8.toNat_add, Nat.add_comm]
      rw [← hfill]
      exact getElem?_countedBanks 16384 1 hi
    · intro j hj
      have hfill : (0x80 : UInt8) + .ofNat j = .ofNat ((0x80 + j) % 256) := by
        apply UInt8.toNat_inj.mp
        simp [UInt8.toNat_add]
      rw [← hfill]
      exact getElem?_countedBanks 8192 0x80 hj

/-- Two program banks behind a trainer, one character bank, and a byte after it. -/
def trained : Contents where
  flags6 := 0x05
  flags7 := 0x01
  rest := #v[1, 2, 3, 4, 5, 6, 7, 8]
  trainer := Array.replicate 512 0xEE
  programBanks := #[Array.replicate 16384 0x11, Array.replicate 16384 0x22]
  characterBanks := #[Array.replicate 8192 0x33]
  trailing := #[0xFF]

theorem wellFormed_trained : trained.WellFormed where
  programCount := by decide
  characterCount := by decide
  programSize := by simp [trained]
  characterSize := by simp [trained]
  trainerSize := by
    rw [show trained.trainer.size = 512 from Array.size_replicate]
    rfl
  layout := by decide

/-- A trained cartridge in an empty slot: the second program bank and the only character bank are
found behind the trainer, and there is no third program bank. -/
theorem load_of_trained :
    trained.WellFormed ∧ Cartridge.empty.isOn = true ∧
    (Cartridge.load trained.toImage .empty).result = .ok () ∧
    (Cartridge.load trained.toImage .empty).state.programBank 1
      = .ok (Array.replicate 16384 0x22) ∧
    (Cartridge.load trained.toImage .empty).state.programBank 2 = .error (.invalidIndex 2) ∧
    (Cartridge.load trained.toImage .empty).state.characterBank 0
      = .ok (Array.replicate 8192 0x33) := by
  obtain ⟨-, hresult, -, -, -, hprogram, hcharacter⟩ :=
    load_finds_every_part.1 trained .empty wellFormed_trained rfl
  exact ⟨wellFormed_trained, rfl, hresult, hprogram 1, hprogram 2, hcharacter 0⟩

end Contents

end NesMachine
