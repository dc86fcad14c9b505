import Mathlib.Algebra.Group.Nat.Defs
import NesMachine.Proofs.Cartridge.Layout
import NesMachine.Proofs.Cartridge.Request

/-!
# `NesMachine/Proofs/Cartridge/Banks.lean` — banks of an image that may be cut short

The slot takes an image by its header, so the image may end anywhere behind it. Whether a bank is
there is asked when somebody wants it, and the answer depends on three numbers only: how many banks of
its kind the header counts, where the bank begins, and where the image ends.

Both kinds of banks get the same answer, from other numbers. `BankKind` has the numbers, and
`bankOf_loaded` is the one place where the two functions of the slot are looked into. Banks stand in
the order of their numbers, and program banks before character banks, so what the end of an image cuts
off is always the last of them.

The place of a bank is a multiple of an index that somebody made up. `bankWithin` computes it in
numbers below a limit, as a machine does, and has no answer at all where a number is too large. That
the index is compared before anything is computed is what keeps it from getting there.
-/

set_option autoImplicit false

namespace NesMachine

/-! ## An image with more behind it -/

namespace Image

variable {image : Array UInt8} (more : Array UInt8)

theorem getD_append {i : Nat} (h : i < image.size) : (image ++ more).getD i 0 = image.getD i 0 := by
  rw [Array.getD_eq_getD_getElem?, Array.getD_eq_getD_getElem?, Array.getElem?_append_left h]

theorem extract_append {first last : Nat} (h : last ≤ image.size) :
    (image ++ more).extract first last = image.extract first last := by
  simp [Array.extract_append, Nat.sub_eq_zero_of_le h]

theorem Accepted.append (h : Accepted image) : Accepted (image ++ more) where
  long := by
    have hlong := h.long
    rw [Array.size_append]
    omega
  magic := by
    have hlong := h.long
    rw [extract_append more (by omega)]
    exact h.magic
  layout := by
    have hlong := h.long
    rw [getD_append more (by omega)]
    exact h.layout

end Image

/-- The two kinds of banks. -/
inductive BankKind where
  | program
  | character

namespace BankKind

/-! ## Where banks are -/

/-- The bytes of a bank. -/
def size : BankKind → Nat
  | program => 16384
  | character => 8192

/-- As many banks of the kind as the header counts. -/
def count (image : Array UInt8) : BankKind → Nat
  | program => (image.getD 4 0).toNat
  | character => (image.getD 5 0).toNat

/-- The bytes of the header, and of the trainer if there is one. -/
def front (image : Array UInt8) : Nat := 16 + if image.getD 6 0 &&& 0x04 = 0 then 0 else 512

/-- The place of the first bank of the kind. Character banks come behind as many program banks as the
header counts. -/
def start (image : Array UInt8) : BankKind → Nat
  | program => front image
  | character => front image + 16384 * (image.getD 4 0).toNat

/-- The place of a bank. -/
def place (kind : BankKind) (image : Array UInt8) (index : Nat) : Nat :=
  kind.start image + kind.size * index

/-- What a slot answers that is asked for a bank. -/
def bankOf (cartridge : Cartridge) (index : Nat) : BankKind → Except Fault (Array UInt8)
  | program => cartridge.programBank index
  | character => cartridge.characterBank index

variable {image : Array UInt8} {index : Nat} {kind : BankKind}

theorem place_le_place {lower : Nat} (h : lower ≤ index) :
    kind.place image lower ≤ kind.place image index :=
  Nat.add_le_add_left (Nat.mul_le_mul_left _ h) _

/-- Program banks end before character banks begin. -/
theorem program_place_le (h : index < program.count image) (other : Nat) :
    program.place image index + program.size ≤ character.place image other := by
  have hcounted : index < (image.getD 4 0).toNat := h
  show front image + 16384 * index + 16384
    ≤ front image + 16384 * (image.getD 4 0).toNat + 8192 * other
  omega

/-! ## The three answers -/

/-- **A bank is a part of the image, or it is refused**, because it has no such number or because the
image ends before it does. -/
theorem bankOf_loaded (hlong : 16 ≤ image.size) (kind : BankKind) (index : Nat) :
    kind.bankOf (.loaded image) index
      = if index < kind.count image then Image.slice image (kind.place image index) kind.size
        else .error (.invalidIndex index) := by
  have hfront : (Header.ofImage image).programStart = front image := Header.programStart_ofImage
  cases kind with
  | program =>
    show Image.programBank image index = _
    by_cases h : index < program.count image
    · rw [if_pos h, Image.programBank_eq hlong h, Header.programBankStart, hfront, Nat.mul_comm]
      rfl
    · rw [if_neg h, Image.programBank_of_le hlong (Nat.le_of_not_lt h)]
  | character =>
    show Image.characterBank image index = _
    by_cases h : index < character.count image
    · rw [if_pos h, Image.characterBank_eq hlong h, Header.characterBankStart,
        Header.programBankStart, hfront, Header.programBanks_ofImage, Nat.mul_comm,
        Nat.mul_comm index]
      rfl
    · rw [if_neg h, Image.characterBank_of_le hlong (Nat.le_of_not_lt h)]

theorem bankOf_eq_invalidIndex_iff (hlong : 16 ≤ image.size) :
    kind.bankOf (.loaded image) index = .error (.invalidIndex index)
      ↔ kind.count image ≤ index := by
  rw [bankOf_loaded hlong]
  by_cases h : index < kind.count image
  · rw [if_pos h, Image.slice]
    constructor
    · intro herror
      split at herror <;> cases herror
    · intro hle
      exact absurd h (Nat.not_lt_of_le hle)
  · rw [if_neg h]
    exact ⟨fun _ => Nat.le_of_not_lt h, fun _ => rfl⟩

theorem bankOf_eq_ok_iff (hlong : 16 ≤ image.size) {bank : Array UInt8} :
    kind.bankOf (.loaded image) index = .ok bank ↔
      index < kind.count image ∧ kind.place image index + kind.size ≤ image.size ∧
        bank = image.extract (kind.place image index) (kind.place image index + kind.size) := by
  rw [bankOf_loaded hlong]
  constructor
  · intro hok
    split at hok
    case isTrue h =>
      rw [Image.slice] at hok
      split at hok
      case isTrue hfits => exact ⟨h, hfits, (Except.ok.inj hok).symm⟩
      case isFalse => cases hok
    case isFalse => cases hok
  · rintro ⟨h, hfits, rfl⟩
    rw [if_pos h, Image.slice, if_pos hfits]

theorem bankOf_of_cut (hlong : 16 ≤ image.size) (h : index < kind.count image)
    (hcut : image.size < kind.place image index + kind.size) :
    kind.bankOf (.loaded image) index
      = .error (.malformed (.bankOutside (kind.place image index)
          (kind.place image index + kind.size) image.size)) := by
  rw [bankOf_loaded hlong, if_pos h, Image.slice_of_lt hcut]

/-- A bank that is there is whole, and its bytes are those of the image. -/
theorem bytes_of_bankOf (hlong : 16 ≤ image.size) {bank : Array UInt8}
    (h : kind.bankOf (.loaded image) index = .ok bank) :
    bank.size = kind.size ∧
      ∀ i < kind.size, bank[i]? = image[kind.place image index + i]? := by
  obtain ⟨-, hfits, rfl⟩ := (bankOf_eq_ok_iff hlong).mp h
  constructor
  · rw [Array.size_extract]
    omega
  · intro i hi
    rw [Array.getElem?_extract, if_pos (by omega)]

/-- **What the end of an image cuts off is the last of it.** A bank is there if another one is that
does not end before it. -/
theorem exists_bank_of_le (hlong : 16 ≤ image.size) {other : BankKind} {further : Nat}
    {bank : Array UInt8} (hbank : other.bankOf (.loaded image) further = .ok bank)
    (h : index < kind.count image)
    (hle : kind.place image index + kind.size ≤ other.place image further + other.size) :
    ∃ bank, kind.bankOf (.loaded image) index = .ok bank := by
  obtain ⟨-, hfits, -⟩ := (bankOf_eq_ok_iff hlong).mp hbank
  exact ⟨_, (bankOf_eq_ok_iff hlong).mpr ⟨h, Nat.le_trans hle hfits, rfl⟩⟩

/-! ## More bytes behind an image -/

section

variable (more : Array UInt8)

theorem count_append (hlong : 16 ≤ image.size) (kind : BankKind) :
    kind.count (image ++ more) = kind.count image := by
  cases kind with
  | program | character => rw [count, count, Image.getD_append more (by omega)]

theorem place_append (hlong : 16 ≤ image.size) (kind : BankKind) (index : Nat) :
    kind.place (image ++ more) index = kind.place image index := by
  have hfront : front (image ++ more) = front image := by
    rw [front, front, Image.getD_append more (by omega)]
  rw [place, place]
  cases kind with
  | program => rw [start, start, hfront]
  | character => rw [start, start, hfront, Image.getD_append more (by omega)]

/-- A bank that is there stays there. -/
theorem bankOf_append (hlong : 16 ≤ image.size) {bank : Array UInt8}
    (h : kind.bankOf (.loaded image) index = .ok bank) :
    kind.bankOf (.loaded (image ++ more)) index = .ok bank := by
  obtain ⟨hindex, hfits, rfl⟩ := (bankOf_eq_ok_iff hlong).mp h
  have hsize : image.size ≤ (image ++ more).size := by
    rw [Array.size_append]
    exact Nat.le_add_right _ _
  apply (bankOf_eq_ok_iff (Nat.le_trans hlong hsize)).mpr
  rw [count_append more hlong, place_append more hlong]
  exact ⟨hindex, Nat.le_trans hfits hsize, (Image.extract_append more hfits).symm⟩

end

/-! ## Places in numbers below a limit -/

/-- The number, if it is below the limit. -/
def fit (limit n : Nat) : Option Nat := if n < limit then some n else none

theorem fit_of_lt {limit n : Nat} (h : n < limit) : fit limit n = some n := if_pos h

/-- The banks of the kind that a header counts. -/
def counted (header : Header) : BankKind → Nat
  | program => header.programBanks.toNat
  | character => header.characterBanks.toNat

/-- The place of a bank, of which every sum and every product on the way has to fit. -/
def placeWithin (limit : Nat) (header : Header) (index : Nat) : BankKind → Option Nat
  | program => do
    let start ← fit limit (Header.size + if header.hasTrainer then bankSizes.trainer else 0)
    let before ← fit limit (index * bankSizes.program)
    fit limit (start + before)
  | character => do
    let start ← fit limit (Header.size + if header.hasTrainer then bankSizes.trainer else 0)
    let programs ← fit limit (header.programBanks.toNat * bankSizes.program)
    let behind ← fit limit (start + programs)
    let before ← fit limit (index * bankSizes.character)
    fit limit (behind + before)

/-- What a slot answers that holds the image and computes in numbers below a limit. -/
def bankWithin (limit : Nat) (image : Array UInt8) (index : Nat) (kind : BankKind) :
    Option (Except Fault (Array UInt8)) :=
  match Header.parse image with
  | .error fault => some (.error fault)
  | .ok header =>
    if index < kind.counted header then do
      let first ← kind.placeWithin limit header index
      let past ← fit limit (first + kind.size)
      return if past ≤ image.size then .ok (image.extract first past)
        else .error (.malformed (.bankOutside first past image.size))
    else some (.error (.invalidIndex index))

theorem counted_ofImage (image : Array UInt8) (kind : BankKind) :
    kind.counted (.ofImage image) = kind.count image := by
  cases kind with
  | program => rw [counted, count, Header.programBanks_ofImage]
  | character => rw [counted, count, Header.characterBanks, Header.getElem_ofImage (by decide)]

theorem place_lt (h : index < kind.count image) : kind.place image index + kind.size < 2 ^ 32 := by
  have hprograms := (image.getD 4 0).toNat_lt
  have hcharacters := (image.getD 5 0).toNat_lt
  have hfront : front image ≤ 528 := by
    rw [front]
    split <;> omega
  cases kind with
  | program =>
    have hindex : index < (image.getD 4 0).toNat := h
    show front image + 16384 * index + 16384 < 2 ^ 32
    omega
  | character =>
    have hindex : index < (image.getD 5 0).toNat := h
    show front image + 16384 * (image.getD 4 0).toNat + 8192 * index + 8192 < 2 ^ 32
    omega

/-- The numbers on the way to a place are none of them larger than it. -/
theorem placeWithin_ofImage {limit : Nat} (h : kind.place image index < limit) :
    kind.placeWithin limit (.ofImage image) index = some (kind.place image index) := by
  have hfront : Header.size + (if (Header.ofImage image).hasTrainer then bankSizes.trainer else 0)
      = front image := Header.programStart_ofImage
  have hprogram : bankSizes.program = 16384 := rfl
  have hcharacter : bankSizes.character = 8192 := rfl
  cases kind with
  | program =>
    have hplace : front image + 16384 * index < limit := h
    rw [placeWithin, hfront, hprogram, Nat.mul_comm]
    simp (disch := omega) only [fit_of_lt, Option.bind_eq_bind, Option.bind_some]
    rfl
  | character =>
    have hplace : front image + 16384 * (image.getD 4 0).toNat + 8192 * index < limit := h
    rw [placeWithin, hfront, hprogram, hcharacter, Header.programBanks_ofImage, Nat.mul_comm,
      Nat.mul_comm index]
    simp (disch := omega) only [fit_of_lt, Option.bind_eq_bind, Option.bind_some]
    rfl

/-- **A machine that can count to 2³² computes every place.** -/
theorem bankWithin_eq {limit : Nat} (hlimit : 2 ^ 32 ≤ limit) (hlong : 16 ≤ image.size)
    (kind : BankKind) (index : Nat) :
    kind.bankWithin limit image index = some (kind.bankOf (.loaded image) index) := by
  rw [bankWithin, Header.parse_of_long hlong, bankOf_loaded hlong]
  show (if index < kind.counted (.ofImage image) then _ else _) = _
  rw [counted_ofImage]
  by_cases h : index < kind.count image
  · have hlt : kind.place image index + kind.size < limit :=
      Nat.lt_of_lt_of_le (place_lt h) hlimit
    rw [if_pos h, if_pos h, placeWithin_ofImage (by omega), Image.slice]
    show (fit limit (kind.place image index + kind.size)).bind _ = _
    rw [fit_of_lt hlt]
    rfl
  · rw [if_neg h, if_neg h]

end BankKind

namespace Cartridge

/-- **A slot has the banks that its image has room for.**

Whatever has been asked of a slot, and however early its image ends: a bank is refused by its number
if and only if the header does not count so many. Otherwise its place is a number that the header
determines, and if the image goes on for a whole bank from there, these bytes are the answer, and if it
does not, the image is refused. Every answer is a whole bank, and a machine computes it that can count
to 2³², as no number on the way is larger.

So the banks that are there are the first ones. With any bank, those of its kind are there that have
smaller numbers, and with a character bank all program banks are there that the header counts. More
bytes behind the image, which the slot takes as well, leave every bank as it is. -/
theorem banks_end_with_image (requests : List Request) (image : Array UInt8)
    (hloaded : afterRequests requests .off = .loaded image) :
    (∀ (kind : BankKind) (index : Nat),
      let answer := kind.bankOf (.loaded image) index
      let first := kind.place image index
      let past := first + kind.size
      (answer = .error (.invalidIndex index) ↔ kind.count image ≤ index) ∧
      (index < kind.count image → past ≤ image.size →
        ∃ bank, answer = .ok bank ∧ ∀ i < kind.size, bank[i]? = image[first + i]?) ∧
      (index < kind.count image → image.size < past →
        answer = .error (.malformed (.bankOutside first past image.size))) ∧
      (∀ bank, answer = .ok bank → bank.size = kind.size) ∧
      ∀ limit ≥ 2 ^ 32, kind.bankWithin limit image index = some answer) ∧
    (∀ (kind : BankKind) (lower index : Nat) (bank : Array UInt8), lower ≤ index →
      kind.bankOf (.loaded image) index = .ok bank →
        ∃ bank, kind.bankOf (.loaded image) lower = .ok bank) ∧
    (∀ (index other : Nat) (bank : Array UInt8), index < BankKind.program.count image →
      BankKind.character.bankOf (.loaded image) other = .ok bank →
        ∃ bank, BankKind.program.bankOf (.loaded image) index = .ok bank) ∧
    ∀ more : Array UInt8,
      (load (image ++ more) (.loaded image)).state = .loaded (image ++ more) ∧
      ∀ (kind : BankKind) (index : Nat) (bank : Array UInt8),
        kind.bankOf (.loaded image) index = .ok bank →
          kind.bankOf (.loaded (image ++ more)) index = .ok bank := by
  have haccepted : Image.Accepted image := by
    have hsound := sound_off.afterRequests requests
    rw [hloaded] at hsound
    exact hsound rfl
  have hlong := haccepted.long
  refine ⟨?_, ?_, ?_, ?_⟩
  · intro kind index answer first past
    refine ⟨BankKind.bankOf_eq_invalidIndex_iff hlong, ?_, BankKind.bankOf_of_cut hlong, ?_, ?_⟩
    · intro hindex hfits
      have hanswer := (BankKind.bankOf_eq_ok_iff hlong).mpr ⟨hindex, hfits, rfl⟩
      exact ⟨_, hanswer, (BankKind.bytes_of_bankOf hlong hanswer).2⟩
    · intro bank hanswer
      exact (BankKind.bytes_of_bankOf hlong hanswer).1
    · intro limit hlimit
      exact BankKind.bankWithin_eq hlimit hlong kind index
  · intro kind lower index bank hle hanswer
    have hindex := ((BankKind.bankOf_eq_ok_iff hlong).mp hanswer).1
    exact BankKind.exists_bank_of_le hlong hanswer (Nat.lt_of_le_of_lt hle hindex)
      (Nat.add_le_add_right (BankKind.place_le_place hle) _)
  · intro index other bank hindex hanswer
    exact BankKind.exists_bank_of_le hlong hanswer hindex
      (Nat.le_trans (BankKind.program_place_le hindex other) (Nat.le_add_right _ _))
  · intro more
    refine ⟨(load_of_accepted rfl (haccepted.append more)).2, ?_⟩
    intro kind index bank hanswer
    exact BankKind.bankOf_append more hlong hanswer

/-- Two program banks and a character bank are counted behind a trainer, and the image ends five bytes
behind the first of them. -/
def cutImage : Array UInt8 :=
  #[0x4E, 0x45, 0x53, 0x1A, 2, 1, 4, 0, 0, 0, 0, 0, 0, 0, 0, 0] ++ Array.replicate 16901 0xEA

theorem getD_cutImage {i : Nat} (hi : i < 16) : cutImage.getD i 0
    = (#[0x4E, 0x45, 0x53, 0x1A, 2, 1, 4, 0, 0, 0, 0, 0, 0, 0, 0, 0] : Array UInt8).getD i 0 :=
  Image.getD_append _ hi

theorem accepted_cutImage : Image.Accepted cutImage := by
  apply Image.Accepted.append
  exact ⟨by decide, by decide, by decide⟩

theorem afterRequests_load {image : Array UInt8} (h : Image.Accepted image) :
    afterRequests [.powerOn, .load image] .off = .loaded image := by
  obtain ⟨answer, hresult⟩ := granted_load_iff.mpr ⟨(rfl : empty.isOn = true), h⟩
  exact ((ends_action (.load image) .empty).of_ok hresult).2.2

/-- The first program bank is there, of the second one there are five bytes, and the character bank is
behind the end. The largest index of 64 bits is refused before it is multiplied. -/
theorem banks_of_cutImage :
    afterRequests [.powerOn, .load cutImage] .off = .loaded cutImage ∧
    (∃ bank, BankKind.program.bankOf (.loaded cutImage) 0 = .ok bank ∧ bank.size = 16384) ∧
    BankKind.program.bankOf (.loaded cutImage) 1
      = .error (.malformed (.bankOutside 16912 33296 16917)) ∧
    BankKind.character.bankOf (.loaded cutImage) 0
      = .error (.malformed (.bankOutside 33296 41488 16917)) ∧
    BankKind.program.bankWithin (2 ^ 64) cutImage (2 ^ 64 - 1)
      = some (.error (.invalidIndex (2 ^ 64 - 1))) := by
  have hloaded := afterRequests_load accepted_cutImage
  obtain ⟨hbanks, -⟩ := banks_end_with_image _ cutImage hloaded
  have hsize : cutImage.size = 16917 := by simp [cutImage]
  have hprograms : BankKind.program.count cutImage = 2 := by
    rw [BankKind.count, getD_cutImage (by decide)]
    rfl
  have hcharacters : BankKind.character.count cutImage = 1 := by
    rw [BankKind.count, getD_cutImage (by decide)]
    rfl
  have hfront : BankKind.front cutImage = 528 := by
    rw [BankKind.front, getD_cutImage (by decide)]
    rfl
  have hprogram (index : Nat) :
      BankKind.program.place cutImage index = 528 + 16384 * index := by
    rw [BankKind.place, BankKind.start, hfront, BankKind.size]
  have hcharacter : BankKind.character.place cutImage 0 = 33296 := by
    rw [BankKind.place, BankKind.start, hfront, getD_cutImage (by decide)]
    rfl
  refine ⟨hloaded, ?_, ?_, ?_, ?_⟩
  · obtain ⟨-, hwhole, -, hbankSize, -⟩ := hbanks .program 0
    obtain ⟨bank, hanswer, -⟩ := hwhole (by omega) (by rw [hprogram, hsize]; decide)
    exact ⟨bank, hanswer, hbankSize bank hanswer⟩
  · obtain ⟨-, -, hcut, -⟩ := hbanks .program 1
    have hanswer := hcut (by omega) (by rw [hprogram, hsize]; decide)
    rwa [hprogram, hsize] at hanswer
  · obtain ⟨-, -, hcut, -⟩ := hbanks .character 0
    have hanswer := hcut (by omega) (by rw [hcharacter, hsize]; decide)
    rwa [hcharacter, hsize] at hanswer
  · obtain ⟨hinvalid, -, -, -, hwithin⟩ := hbanks .program (2 ^ 64 - 1)
    rw [hwithin (2 ^ 64) (by decide), hinvalid.mpr (by omega)]

end Cartridge

end NesMachine
