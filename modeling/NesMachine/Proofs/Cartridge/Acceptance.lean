import NesMachine.Cartridge
import NesMachine.Proofs.Outcome

/-!
# `NesMachine/Proofs/Cartridge/Acceptance.lean` — which images get into the slot, and which start

`Image.Accepted` and `Image.Bootable` say by bytes and sizes what the loader asks of an image, in
the order in which it asks. Accepted images get into the slot. Bootable ones also have the program
banks that a console copies, and what comes after those banks is nobody's business: character banks
may be missing, and so may a third program bank.
-/

set_option autoImplicit false

namespace NesMachine

/-- The fault is one of an image, and not of the call or of the console. -/
def Fault.blamesImage : Fault → Bool
  | .malformed _ => true
  | .unsupported _ => true
  | _ => false

/-- The header that stands at the beginning of an image; bytes that are not there count as zero. -/
def Header.ofImage (image : Array UInt8) : Header :=
  ⟨Vector.ofFn fun index : Fin 16 => image.getD index.val 0⟩

/-- The image has the header of a cartridge that the slot takes. -/
structure Image.Accepted (image : Array UInt8) : Prop where
  long : 16 ≤ image.size
  magic : image.extract 0 4 = #[0x4E, 0x45, 0x53, 0x1A]
  layout : image.getD 7 0 >>> 2 &&& 0x03 ≠ 2

/-- The image has at least one program bank, and the first two of them, or the only one, lie wholly
inside. -/
structure Image.Bootable (image : Array UInt8) : Prop extends Image.Accepted image where
  banks : 1 ≤ (image.getD 4 0).toNat
  complete : 16 + (if image.getD 6 0 &&& 0x04 = 0 then 0 else 512)
    + min (image.getD 4 0).toNat 2 * 16384 ≤ image.size

namespace Header

variable {image : Array UInt8}

theorem parse_of_long (h : 16 ≤ image.size) : parse image = .ok (ofImage image) := by
  rw [parse, dif_pos (show size ≤ image.size from h)]
  refine congrArg (fun bytes => Except.ok (Header.mk bytes)) (Vector.ext fun i hi => ?_)
  rw [Vector.getElem_ofFn, Vector.getElem_ofFn, Array.getElem_eq_getD 0]

theorem parse_of_short (h : image.size < 16) :
    parse image = .error (.malformed (.shortImage image.size)) := by
  rw [parse, dif_neg (show ¬ size ≤ image.size from Nat.not_le_of_lt h)]

theorem getElem_ofImage {i : Nat} (hi : i < 16) : (ofImage image).bytes[i] = image.getD i 0 := by
  simp [ofImage]

theorem magic_ofImage (h : 16 ≤ image.size) : (ofImage image).magic.toArray = image.extract 0 4 := by
  have hfour : image.extract 0 4
      = #[image.getD 0 0, image.getD 1 0, image.getD 2 0, image.getD 3 0] := by
    refine Array.ext (by simp; omega) fun i hi hj => ?_
    have hi4 : i < 4 := by simpa using hj
    have hat : (image.extract 0 4)[i] = image.getD i 0 := by
      rw [Array.getElem_extract, Array.getElem_eq_getD 0]
      rw [Nat.zero_add]
    rw [hat]
    obtain rfl | rfl | rfl | rfl : i = 0 ∨ i = 1 ∨ i = 2 ∨ i = 3 := by omega
    all_goals rfl
  rw [hfour, magic]
  simp only [getElem_ofImage]

theorem hasSignature_ofImage (h : 16 ≤ image.size) :
    (ofImage image).hasSignature = true ↔ image.extract 0 4 = #[0x4E, 0x45, 0x53, 0x1A] := by
  rw [hasSignature, beq_iff_eq, ← magic_ofImage h]
  exact ⟨fun he => congrArg Vector.toArray he, fun he => Vector.toArray_inj.mp he⟩

theorem layout_ofImage : (ofImage image).layout = .ines ↔ image.getD 7 0 >>> 2 &&& 0x03 ≠ 2 := by
  rw [layout, flags7, getElem_ofImage (by decide)]
  by_cases h : image.getD 7 0 >>> 2 &&& 0x03 = 2
  · rw [if_pos (beq_iff_eq.mpr h)]
    exact ⟨fun he => absurd he (by decide), fun hn => absurd h hn⟩
  · rw [if_neg (mt beq_iff_eq.mp h)]
    exact ⟨fun _ => h, fun _ => rfl⟩

theorem accept_ofImage (h : 16 ≤ image.size) :
    (ofImage image).accept = .ok () ↔ Image.Accepted image := by
  rw [accept]
  cases hs : (ofImage image).hasSignature with
  | false =>
    refine ⟨fun he => absurd he (by simp), fun ha => ?_⟩
    rw [(hasSignature_ofImage h).mpr ha.magic] at hs
    exact absurd hs (by decide)
  | true =>
    rw [if_pos rfl]
    cases hl : (ofImage image).layout with
    | ines => exact ⟨fun _ => ⟨h, (hasSignature_ofImage h).mp hs, layout_ofImage.mp hl⟩, fun _ => rfl⟩
    | ines2 =>
      refine ⟨fun he => absurd he (by simp), fun ha => ?_⟩
      rw [layout_ofImage.mpr ha.layout] at hl
      exact absurd hl (by decide)

theorem blamesImage_of_accept {header : Header} {fault : Fault}
    (h : header.accept = .error fault) : fault.blamesImage = true := by
  rw [accept] at h
  split at h
  · split at h
    · cases h
    · cases h
      rfl
  · cases h
    rfl

theorem programStart_ofImage :
    (ofImage image).programStart = 16 + (if image.getD 6 0 &&& 0x04 = 0 then 0 else 512) := by
  rw [programStart, hasTrainer, flags6, getElem_ofImage (by decide)]
  by_cases h : image.getD 6 0 &&& 0x04 = 0
  · rw [if_pos h, if_neg (by rw [h]; decide)]
    rfl
  · rw [if_neg h, if_pos (bne_iff_ne.mpr h)]
    rfl

theorem programBanks_ofImage : (ofImage image).programBanks = image.getD 4 0 :=
  getElem_ofImage (by decide)

end Header

namespace Image

variable {image : Array UInt8}

/-- The bytes of the program bank `index`, as far as the image has them. -/
def programBytes (image : Array UInt8) (index : Nat) : Array UInt8 :=
  let first := (Header.ofImage image).programBankStart index
  image.extract first (first + 16384)

theorem programBankStart_le {count index : Nat} (hi : index < count)
    (h : (Header.ofImage image).programStart + count * 16384 ≤ image.size) :
    (Header.ofImage image).programBankStart index + 16384 ≤ image.size := by
  rw [Header.programBankStart, show bankSizes.program = 16384 from rfl]
  omega

theorem size_programBytes {index : Nat}
    (h : (Header.ofImage image).programBankStart index + 16384 ≤ image.size) :
    (programBytes image index).size = 16384 := by
  rw [programBytes, Array.size_extract]
  omega

theorem programBank_eq {index : Nat} (hlong : 16 ≤ image.size)
    (hi : index < (image.getD 4 0).toNat) :
    programBank image index
      = slice image ((Header.ofImage image).programBankStart index) 16384 := by
  rw [programBank, Header.parse_of_long hlong, Fault.ok_bind, Header.programBanks_ofImage,
    if_pos hi, show bankSizes.program = 16384 from rfl]

theorem slice_program {index : Nat}
    (h : (Header.ofImage image).programBankStart index + 16384 ≤ image.size) :
    slice image ((Header.ofImage image).programBankStart index) 16384
      = .ok (programBytes image index) := by
  rw [slice, if_pos h, programBytes]

theorem slice_of_lt {first length : Nat} (h : image.size < first + length) :
    slice image first length = .error (.malformed (.bankOutside first (first + length) image.size)) := by
  rw [slice, if_neg (Nat.not_le_of_lt h)]

/-- What a bootable image adds to an accepted one, in the loader's terms. -/
theorem bootable_iff (ha : Accepted image) :
    Bootable image ↔ 1 ≤ (image.getD 4 0).toNat ∧
      (Header.ofImage image).programStart + min (image.getD 4 0).toNat 2 * 16384 ≤ image.size := by
  rw [Header.programStart_ofImage]
  exact ⟨fun h => ⟨h.banks, h.complete⟩, fun h => ⟨ha, h.1, h.2⟩⟩

/-- The number of the bank that is copied into the upper half: the second one if there is one. -/
def upperIndex (image : Array UInt8) : Nat := if 1 < (image.getD 4 0).toNat then 1 else 0

/-- An accepted image that counts a bank boots if the last bank that is copied is whole. -/
theorem bootable_iff_upper (ha : Accepted image) (hone : 1 ≤ (image.getD 4 0).toNat) :
    Bootable image
      ↔ (Header.ofImage image).programBankStart (upperIndex image) + 16384 ≤ image.size := by
  have hend : (Header.ofImage image).programBankStart (upperIndex image) + 16384
      = (Header.ofImage image).programStart + min (image.getD 4 0).toNat 2 * 16384 := by
    rw [Header.programBankStart, show bankSizes.program = 16384 from rfl, upperIndex]
    split <;> omega
  rw [bootable_iff ha, hend]
  exact ⟨fun h => h.2, fun h => ⟨hone, h⟩⟩

/-- The first two program banks of a bootable image, as far as it counts them, are whole. -/
theorem Bootable.length_programBytes (h : Bootable image) {index : Nat}
    (hi : index < min (image.getD 4 0).toNat 2) :
    (programBytes image index).toList.length = 16384 := by
  have hfit := ((bootable_iff h.toAccepted).mp h).2
  rw [Array.length_toList]
  exact Image.size_programBytes (programBankStart_le hi hfit)

theorem Bootable.length_lower (h : Bootable image) :
    (programBytes image 0).toList.length = 16384 := by
  have hone := h.banks
  exact h.length_programBytes (by omega)

theorem Bootable.length_upper (h : Bootable image) :
    (programBytes image (upperIndex image)).toList.length = 16384 := by
  have hone := h.banks
  refine h.length_programBytes ?_
  rw [upperIndex]
  split <;> omega

/-- A byte of a program bank is a byte of the image. -/
theorem getElem_programBytes {index i : Nat} (hi : i < (programBytes image index).toList.length) :
    image[(Header.ofImage image).programStart + index * 16384 + i]?
      = some (programBytes image index).toList[i] := by
  have hin : (Header.ofImage image).programStart + index * 16384 + i < image.size := by
    rw [programBytes, Array.length_toList, Array.size_extract] at hi
    rw [Header.programBankStart, show bankSizes.program = 16384 from rfl] at hi
    omega
  rw [Array.getElem?_eq_getElem hin, Array.getElem_toList]
  exact congrArg some (Array.getElem_extract ..).symm

end Image

namespace Cartridge

/-- The bytes in the slot; none while there is no image. -/
def bytes : Cartridge → Array UInt8
  | loaded image => image
  | _ => #[]

/-- **The slot takes accepted images**, in the place of the one before, and no others. -/
theorem ends_load {cartridge : Cartridge} (hon : cartridge.isOn = true) (image : Array UInt8) :
    (load image cartridge).Ends (fun _ later => Image.Accepted image ∧ later = .loaded image)
      (fun fault later =>
        fault.blamesImage = true ∧ ¬ Image.Accepted image ∧ later = cartridge) := by
  rw [load, requireOn, Action.require_bind_of_true _ _ hon, Action.ends_bind, Action.ask_apply]
  by_cases hlong : 16 ≤ image.size
  · rw [Header.parse_of_long hlong, Outcome.ends_ok]
    cases ha : (Header.ofImage image).accept with
    | error fault =>
      refine ⟨Header.blamesImage_of_accept ha, fun h => ?_, rfl⟩
      rw [(Header.accept_ofImage hlong).mpr h] at ha
      exact absurd ha (by simp)
    | ok value =>
      obtain ⟨⟩ := value
      exact ⟨(Header.accept_ofImage hlong).mp ha, rfl⟩
  · rw [Header.parse_of_short (Nat.lt_of_not_le hlong), Outcome.ends_error]
    exact ⟨rfl, fun h => hlong h.long, rfl⟩

/-- An accepted image gets in. -/
theorem load_of_accepted {cartridge : Cartridge} (hon : cartridge.isOn = true)
    {image : Array UInt8} (h : Image.Accepted image) :
    (load image cartridge).result = .ok () ∧ (load image cartridge).state = .loaded image := by
  have hends := ends_load hon image
  cases hresult : (load image cartridge).result with
  | ok value => exact ⟨rfl, (hends.of_ok hresult).2⟩
  | error fault => exact absurd h (hends.of_error hresult).2.1

theorem ends_loadFile {cartridge : Cartridge} (hon : cartridge.isOn = true) (path : String)
    (read : FileRead) :
    (loadFile path read cartridge).Ends
      (fun _ later =>
        ∃ image, read = .contents image ∧ Image.Accepted image ∧ later = .loaded image)
      (fun _ later => later = cartridge) := by
  unfold loadFile
  rw [requireOn, Action.require_bind_of_true _ _ hon]
  cases read with
  | missing => rfl
  | failed detail => rfl
  | contents image =>
    rw [Action.ends_bind, Action.log_apply, Outcome.ends_ok]
    exact (ends_load hon image).mono (fun _ _ h => ⟨image, rfl, h⟩) fun _ _ h => h.2.2

/-- What is read from a file gets in as it would by itself. -/
theorem result_loadFile {cartridge : Cartridge} (hon : cartridge.isOn = true) (path : String)
    (image : Array UInt8) :
    (loadFile path (.contents image) cartridge).result = (load image cartridge).result := by
  unfold loadFile
  rw [requireOn, Action.require_bind_of_true _ _ hon]
  rfl

end Cartridge

end NesMachine
