import NesMachine.Proofs.Cartridge.Acceptance
import NesMachine.Proofs.Console.Running
import NesMachine.Proofs.Memory.Block

/-!
# `NesMachine/Proofs/Console/Loading.lean` — what loading a cartridge leaves

A load goes through the slot, the banks, memory and the processor, and can be refused at each of
them. It ends in one of three ways all the same, and which one is decided by the image alone. A
bootable image is started; an image that is accepted and not bootable ends with an empty slot; any
other image changes nothing (`ends_load`). Memory and processor are touched only after the last
refusal, so no load leaves them half done.

`booted` is the console after a load that succeeded. Of what was there before, it has the memory
below the banks and nothing else.
-/

set_option autoImplicit false

namespace NesMachine

open Image (Accepted Bootable programBytes upperIndex)

/-- Memory after the program banks of an image were copied: the first one into the lower half of the
upper memory, and the second one, or the first one again, into the upper half. -/
def Ram.withProgram (ram : Ram) (image : Array UInt8) : Ram :=
  (ram.writeBlock 0x8000 (programBytes image 0).toList).writeBlock 0xC000
    (programBytes image (upperIndex image)).toList

def Ram.resetTarget (ram : Ram) : UInt16 := word (ram.read 0xFFFC) (ram.read 0xFFFD)

/-- A processor that was just started at an address. -/
def Cpu.startedAt (pc : UInt16) : Cpu := ⟨{ Registers.powerOn with pc := pc }, 0, true⟩

/-! ## The cells after the banks were copied -/

namespace Ram

variable {ram : Ram} {image : Array UInt8} {address : UInt16}

theorem read_withProgram_below (hboot : Bootable image) (ha : address.toNat < 0x8000) :
    (ram.withProgram image).read address = ram.read address := by
  rw [withProgram, read_writeBlock_of_outside, read_writeBlock_of_outside]
  · rw [hboot.length_lower]
    decide
  · exact Or.inl ha
  · rw [hboot.length_upper]
    decide
  · exact Or.inl (Nat.lt_trans ha (by decide))

theorem read_withProgram_lower (hboot : Bootable image) {i : Nat} (hi : i < 16384)
    (ha : address.toNat = 0x8000 + i) :
    image[(Header.ofImage image).programStart + i]?
      = some ((ram.withProgram image).read address) := by
  have hin : i < (programBytes image 0).toList.length := by
    rw [hboot.length_lower]
    exact hi
  have hbyte := Image.getElem_programBytes hin
  rw [Nat.zero_mul, Nat.add_zero] at hbyte
  rw [withProgram, read_writeBlock_of_outside, read_writeBlock_of_inside _ hin ha]
  · exact hbyte
  · rw [hboot.length_lower]
    decide
  · rw [hboot.length_upper]
    decide
  · refine Or.inl ?_
    show address.toNat < 0xC000
    omega

theorem read_withProgram_upper (hboot : Bootable image) {i : Nat} (hi : i < 16384)
    (ha : address.toNat = 0xC000 + i) :
    image[(Header.ofImage image).programStart + upperIndex image * 16384 + i]?
      = some ((ram.withProgram image).read address) := by
  have hin : i < (programBytes image (upperIndex image)).toList.length := by
    rw [hboot.length_upper]
    exact hi
  rw [withProgram, read_writeBlock_of_inside _ hin ha]
  · exact Image.getElem_programBytes hin
  · rw [hboot.length_upper]
    decide

/-- Memory below the banks is all that the copied memory has from before. -/
theorem withProgram_congr {other : Ram} (hboot : Bootable image)
    (h : ∀ address : UInt16, address.toNat < 0x8000 → other.read address = ram.read address) :
    other.withProgram image = ram.withProgram image := by
  refine ext fun address => ?_
  have hlt := address.toNat_lt
  by_cases hlow : address.toNat < 0x8000
  · rw [read_withProgram_below hboot hlow, read_withProgram_below hboot hlow, h address hlow]
  · by_cases hmid : address.toNat < 0xC000
    · obtain ⟨i, hi⟩ := Nat.exists_eq_add_of_le (Nat.le_of_not_lt hlow)
      exact Option.some.inj ((read_withProgram_lower hboot (by omega) hi).symm.trans
        (read_withProgram_lower hboot (by omega) hi))
    · obtain ⟨i, hi⟩ := Nat.exists_eq_add_of_le (Nat.le_of_not_lt hmid)
      exact Option.some.inj ((read_withProgram_upper hboot (by omega) hi).symm.trans
        (read_withProgram_upper hboot (by omega) hi))

end Ram

namespace Console

/-- A console that has just started an image, over memory that held `ram`. -/
def booted (image : Array UInt8) (ram : Ram) : Console where
  memory := .on (ram.withProgram image)
  cpu := .startedAt (ram.withProgram image).resetTarget
  cartridge := .loaded image
  isOn := true

theorem reset_on (ram : Ram) {cpu : Cpu} (cartridge : Cartridge) (hcpu : cpu.isOn = true) :
    ∃ log, reset ⟨.on ram, cpu, cartridge, true⟩
      = ⟨.ok (), ⟨.on ram, .startedAt ram.resetTarget, cartridge, true⟩, log⟩ := by
  obtain ⟨r, cycles, _⟩ := cpu
  subst hcpu
  exact ⟨_, rfl⟩

/-! ## Copying the banks -/

/-- Copies two banks and starts the processor over. -/
def startBanks (lower upper : Array UInt8) : Action Console Unit := do
  onMemory (Memory.write lowerBank lower.toList)
  onMemory (Memory.write upperBank upper.toList)
  .log .debug ("mapped " ++ toString (2 * bankSizes.program) ++ " bytes of program data")
  reset

/-- Looks for the banks of a cartridge that counts `banks` of them, and copies them. -/
def copyBanks (banks : Nat) : Action Console Unit := do
  let lower ← .ask (·.cartridge.programBank 0)
  if 1 < banks then
    let upper ← .ask (·.cartridge.programBank 1)
    startBanks lower upper
  else startBanks lower lower

/-- The steps of `mapCartridge`, one after another. -/
theorem mapCartridge_eq : mapCartridge = (do
    let header ← Action.ask fun console : Console => console.cartridge.header
    let banks := header.programBanks.toNat
    if banks = 0 then Action.refuse (.malformed .noProgramBanks)
    else if 2 < banks then do
      .log .warn (toString banks ++ " program banks, only the first two are mapped")
      copyBanks banks
    else copyBanks banks) := by
  -- The two conditions are joins in the program, so they are decided before anything is compared.
  refine congrArg (Action.ask _ >>= ·) (funext fun header => ?_)
  dsimp only
  by_cases hzero : header.programBanks.toNat = 0
  · rw [if_pos (beq_iff_eq.mpr hzero), if_pos hzero]
    rfl
  · rw [if_neg (mt beq_iff_eq.mp hzero), if_neg hzero]
    by_cases hmany : 2 < header.programBanks.toNat
    · rw [if_pos hmany, if_pos hmany]
      rfl
    · rw [if_neg hmany, if_neg hmany]
      rfl

-- What this comes to is `ends_startBanks`; to compute it would be to look at the banks.
attribute [irreducible] startBanks

section

variable (ram : Ram) {cpu : Cpu} {image : Array UInt8} {R : Unit → Console → Prop}
  {E : Fault → Console → Prop}

theorem onMemory_write_bind {cartridge : Cartridge} {address : Nat} {bytes : List UInt8}
    (hin : address < Ram.size) (hfit : address + bytes.length ≤ Ram.size)
    (next : Unit → Action Console Unit) :
    (onMemory (Memory.write address bytes) >>= next) ⟨.on ram, cpu, cartridge, true⟩
      = next () ⟨.on (ram.writeBlock (UInt16.ofNat address) bytes), cpu, cartridge, true⟩ := by
  rw [Action.bind_apply, onMemory, Memory.write_on hin hfit]
  rfl

theorem ends_startBanks (hcpu : cpu.isOn = true) (cartridge : Cartridge)
    {lower upper : Array UInt8} (hlower : lower.toList.length = 16384)
    (hupper : upper.toList.length = 16384) :
    (startBanks lower upper ⟨.on ram, cpu, cartridge, true⟩).Ends
      (fun _ later =>
        let ram := (ram.writeBlock 0x8000 lower.toList).writeBlock 0xC000 upper.toList
        later = ⟨.on ram, .startedAt ram.resetTarget, cartridge, true⟩)
      (fun _ _ => False) := by
  have hfirst : lowerBank + lower.toList.length ≤ Ram.size := by
    rw [hlower]
    decide
  have hsecond : upperBank + upper.toList.length ≤ Ram.size := by
    rw [hupper]
    decide
  rw [startBanks, onMemory_write_bind _ (by decide) hfirst,
    onMemory_write_bind _ (by decide) hsecond, Action.ends_bind, Action.log_apply, Outcome.ends_ok]
  obtain ⟨log, hreset⟩ := reset_on ((ram.writeBlock 0x8000 lower.toList).writeBlock 0xC000
    upper.toList) cartridge hcpu
  exact hreset ▸ rfl

/-- Looking for the banks touches nothing. So copying them is refused on the image's account, or it
comes to starting the two banks of a bootable image. -/
theorem ends_copyBanks {memory : Memory} (ha : Accepted image)
    (hone : 1 ≤ (image.getD 4 0).toNat)
    (hstart : Bootable image →
      (startBanks (programBytes image 0) (programBytes image (upperIndex image))
        ⟨memory, cpu, .loaded image, true⟩).Ends R E)
    (hrefuse : ∀ fault, fault.blamesImage = true → ¬ Bootable image →
      E fault ⟨memory, cpu, .loaded image, true⟩) :
    (copyBanks (image.getD 4 0).toNat ⟨memory, cpu, .loaded image, true⟩).Ends R E := by
  have hbank (index : Nat) (hi : index < (image.getD 4 0).toNat) :
      (Cartridge.loaded image).programBank index
        = Image.slice image ((Header.ofImage image).programBankStart index) 16384 :=
    Image.programBank_eq ha.long hi
  have hiff := Image.bootable_iff_upper ha hone
  rw [copyBanks, Action.ends_bind, Action.ask_apply, hbank 0 hone]
  by_cases hlower : (Header.ofImage image).programBankStart 0 + 16384 ≤ image.size
  · rw [Image.slice_program hlower, Outcome.ends_ok]
    by_cases htwo : 1 < (image.getD 4 0).toNat
    · have hindex : upperIndex image = 1 := if_pos htwo
      rw [if_pos htwo, Action.ends_bind, Action.ask_apply, hbank 1 htwo]
      rw [hindex] at hiff hstart
      by_cases hupper : (Header.ofImage image).programBankStart 1 + 16384 ≤ image.size
      · rw [Image.slice_program hupper, Outcome.ends_ok]
        exact hstart (hiff.mpr hupper)
      · rw [Image.slice_of_lt (Nat.lt_of_not_le hupper), Outcome.ends_error]
        exact hrefuse _ rfl fun hboot => hupper (hiff.mp hboot)
    · have hindex : upperIndex image = 0 := if_neg htwo
      rw [if_neg htwo]
      rw [hindex] at hiff hstart
      exact hstart (hiff.mpr hlower)
  · rw [Image.slice_of_lt (Nat.lt_of_not_le hlower), Outcome.ends_error]
    -- No later bank can be whole where the first one is not.
    refine hrefuse _ rfl fun hboot => hlower ?_
    have hlast := hiff.mp hboot
    rw [Header.programBankStart] at hlast ⊢
    omega

theorem ends_mapCartridge {memory : Memory} (ha : Accepted image)
    (hstart : Bootable image →
      (startBanks (programBytes image 0) (programBytes image (upperIndex image))
        ⟨memory, cpu, .loaded image, true⟩).Ends R E)
    (hrefuse : ∀ fault, fault.blamesImage = true → ¬ Bootable image →
      E fault ⟨memory, cpu, .loaded image, true⟩) :
    (mapCartridge ⟨memory, cpu, .loaded image, true⟩).Ends R E := by
  have hheader : (Cartridge.loaded image).header = .ok (Header.ofImage image) :=
    Header.parse_of_long ha.long
  rw [mapCartridge_eq, Action.ends_bind, Action.ask_apply, hheader, Outcome.ends_ok]
  rw [Header.programBanks_ofImage]
  by_cases hzero : (image.getD 4 0).toNat = 0
  · rw [if_pos hzero, Action.refuse_apply, Outcome.ends_error]
    refine hrefuse _ rfl fun hboot => ?_
    have := hboot.banks
    omega
  · have hcopy := ends_copyBanks ha (Nat.one_le_iff_ne_zero.mpr hzero) hstart hrefuse
    rw [if_neg hzero]
    by_cases hmany : 2 < (image.getD 4 0).toNat
    · rw [if_pos hmany, Action.ends_bind, Action.log_apply, Outcome.ends_ok]
      exact hcopy
    · rw [if_neg hmany]
      exact hcopy

/-- A cartridge that is not started is taken out. -/
theorem ends_mapOrUnload_of {console : Console}
    (hmap : (mapCartridge console).Ends R fun fault later =>
      (onCartridge Cartridge.unload later).Ends (fun _ => E fault) fun _ _ => False) :
    (mapOrUnload console).Ends R E := by
  rw [mapOrUnload, Action.orElseUndo]
  generalize mapCartridge console = outcome at hmap ⊢
  obtain ⟨fault | _, later, log⟩ := outcome
  · refine (Outcome.ends_after _ log).mpr ((Outcome.ends_andThen _ _).mpr ?_)
    rw [Action.ends_bind, Action.log_apply, Outcome.ends_ok]
    exact Outcome.Ends.mono hmap (fun _ _ h => h) fun _ _ h => h.elim
  · exact hmap

theorem ends_mapOrUnload (hcpu : cpu.isOn = true) (ha : Accepted image) :
    (mapOrUnload ⟨.on ram, cpu, .loaded image, true⟩).Ends
      (fun _ later => Bootable image ∧ later = booted image ram)
      (fun fault later => fault.blamesImage = true ∧ ¬ Bootable image
        ∧ later = ⟨.on ram, cpu, .empty, true⟩) := by
  refine ends_mapOrUnload_of (ends_mapCartridge ha ?_ ?_)
  · intro hboot
    have hstarted := ends_startBanks ram hcpu (.loaded image) hboot.length_lower hboot.length_upper
    refine hstarted.mono ?_ fun _ _ h => h.elim
    rintro _ later rfl
    exact ⟨hboot, rfl⟩
  · exact fun fault hblame hboot => ⟨hblame, hboot, rfl⟩

/-- A load ends in one of three ways. A fault is the image's. -/
theorem ends_load_blaming (hcpu : cpu.isOn = true) {cartridge : Cartridge}
    (hslot : cartridge.isOn = true) (image : Array UInt8) :
    (load image ⟨.on ram, cpu, cartridge, true⟩).Ends
      (fun _ later => Bootable image ∧ later = booted image ram)
      (fun fault later => fault.blamesImage = true ∧ ¬ Bootable image
        ∧ (¬ Accepted image → later = ⟨.on ram, cpu, cartridge, true⟩)
        ∧ (Accepted image → later = ⟨.on ram, cpu, .empty, true⟩)) := by
  rw [load, requireOn_bind rfl, Action.ends_bind, onCartridge, Outcome.ends_within]
  refine (Cartridge.ends_load hslot image).mono ?_ ?_
  · rintro _ later ⟨ha, rfl⟩
    refine (ends_mapOrUnload ram hcpu ha).mono (fun _ _ h => h) ?_
    rintro fault later ⟨hblame, hboot, rfl⟩
    exact ⟨hblame, hboot, fun hn => absurd ha hn, fun _ => rfl⟩
  · rintro fault later ⟨hblame, ha, rfl⟩
    exact ⟨hblame, fun hboot => ha hboot.toAccepted, fun _ => rfl, fun h => absurd h ha⟩

theorem ends_load (hcpu : cpu.isOn = true) {cartridge : Cartridge} (hslot : cartridge.isOn = true)
    (image : Array UInt8) :
    (load image ⟨.on ram, cpu, cartridge, true⟩).Ends
      (fun _ later => Bootable image ∧ later = booted image ram)
      (fun _ later => ¬ Bootable image ∧ later.memory = .on ram ∧ later.cpu = cpu
        ∧ later.isOn = true ∧ (¬ Accepted image → later.cartridge = cartridge)
        ∧ (Accepted image → later.cartridge = .empty)) := by
  refine (ends_load_blaming ram hcpu hslot image).mono (fun _ _ h => h) ?_
  rintro fault later ⟨-, hboot, hrejected, hunloaded⟩
  by_cases ha : Accepted image
  · obtain rfl := hunloaded ha
    exact ⟨hboot, rfl, rfl, rfl, fun hn => absurd ha hn, fun _ => rfl⟩
  · obtain rfl := hrejected ha
    exact ⟨hboot, rfl, rfl, rfl, fun _ => rfl, fun h => absurd h ha⟩

/-- **A load succeeds exactly with a bootable image.**

Then the first program bank is at $8000 and the second one, or the first one again, is at $C000;
memory below is as it was; the slot holds the image; and the processor is one just switched on, at
the address that the reset vector now holds. What was in the machine before matters only below
$8000.

A load that is refused leaves memory and processor alone. The slot keeps what it held if the header
was refused, and is empty otherwise. -/
theorem load_succeeds_iff_bootable (ram : Ram) (cpu : Cpu) (cartridge : Cartridge)
    (image : Array UInt8) (hcpu : cpu.isOn = true) (hslot : cartridge.isOn = true) :
    let outcome := load image ⟨.on ram, cpu, cartridge, true⟩
    let programStart := 16 + (if image.getD 6 0 &&& 0x04 = 0 then 0 else 512)
    let banks := (image.getD 4 0).toNat
    (outcome.result = .ok () ↔ Bootable image) ∧
    (outcome.result = .ok () →
      (∃ now : Ram,
        outcome.state = ⟨.on now, .startedAt (word (now.read 0xFFFC) (now.read 0xFFFD)),
          .loaded image, true⟩ ∧
        (∀ address : UInt16, address.toNat < 0x8000 → now.read address = ram.read address) ∧
        (∀ address : UInt16, 0x8000 ≤ address.toNat → address.toNat < 0xC000 →
          image[programStart + (address.toNat - 0x8000)]? = some (now.read address)) ∧
        (∀ address : UInt16, 0xC000 ≤ address.toNat →
          image[programStart + (if 2 ≤ banks then 16384 else 0) + (address.toNat - 0xC000)]?
            = some (now.read address))) ∧
      ∀ (ram' : Ram) (cpu' : Cpu) (cartridge' : Cartridge),
        cpu'.isOn = true → cartridge'.isOn = true →
        (∀ address : UInt16, address.toNat < 0x8000 → ram'.read address = ram.read address) →
        (load image ⟨.on ram', cpu', cartridge', true⟩).result = .ok () ∧
        (load image ⟨.on ram', cpu', cartridge', true⟩).state = outcome.state) ∧
    (∀ fault, outcome.result = .error fault →
      outcome.state.memory = .on ram ∧ outcome.state.cpu = cpu ∧ outcome.state.isOn = true ∧
      (¬ Accepted image → outcome.state.cartridge = cartridge) ∧
      (Accepted image → outcome.state.cartridge = .empty)) := by
  intro outcome programStart banks
  have hends := ends_load ram hcpu hslot image
  have hstart : programStart = (Header.ofImage image).programStart :=
    Header.programStart_ofImage.symm
  refine ⟨⟨fun hv => (hends.of_ok hv).1, ?_⟩, ?_, ?_⟩
  · intro hboot
    cases hv : outcome.result with
    | ok value => rfl
    | error fault => exact absurd hboot (hends.of_error hv).1
  · intro hv
    obtain ⟨hboot, hstate⟩ := hends.of_ok hv
    refine ⟨⟨ram.withProgram image, hstate, ?_, ?_, ?_⟩, ?_⟩
    · exact fun address ha => Ram.read_withProgram_below hboot ha
    · intro address hlo hhi
      rw [hstart]
      exact Ram.read_withProgram_lower hboot (by omega) (by omega)
    · intro address hlo
      have hlt := address.toNat_lt
      have hupper : (if 2 ≤ banks then 16384 else 0) = upperIndex image * 16384 := by
        show (if 1 < banks then 16384 else 0) = (if 1 < banks then 1 else 0) * 16384
        split <;> rfl
      rw [hstart, hupper]
      exact Ram.read_withProgram_upper hboot (by omega) (by omega)
    · intro ram' cpu' cartridge' hcpu' hslot' hsame
      have hends' := ends_load ram' hcpu' hslot' image
      cases hv' : (load image ⟨.on ram', cpu', cartridge', true⟩).result with
      | error fault => exact absurd hboot (hends'.of_error hv').1
      | ok value =>
        refine ⟨rfl, (hends'.of_ok hv').2.trans (Eq.trans ?_ hstate.symm)⟩
        rw [booted, booted, Ram.withProgram_congr hboot hsame]
  · intro fault hv
    exact (hends.of_error hv).2

end

/-- A small image that boots: a header that counts one program bank, and the bank, all of it the
instruction that does nothing. -/
def nopImage : Array UInt8 :=
  #[0x4E, 0x45, 0x53, 0x1A, 1, 0, 0, 0, 0, 0, 0, 0, 0, 0, 0, 0] ++ Array.replicate 16384 0xEA

theorem getD_nopImage {i : Nat} (hi : i < 16) : nopImage.getD i 0
    = (#[0x4E, 0x45, 0x53, 0x1A, 1, 0, 0, 0, 0, 0, 0, 0, 0, 0, 0, 0] : Array UInt8).getD i 0 := by
  simp [nopImage, Array.getElem?_append, hi]

theorem bootable_nopImage : Bootable nopImage := by
  have hsize : nopImage.size = 16400 := by simp [nopImage]
  refine ⟨⟨?_, ?_, ?_⟩, ?_, ?_⟩
  · rw [hsize]
    decide
  · simp [nopImage, Array.extract_append]
  · rw [getD_nopImage (by decide)]
    decide
  · rw [getD_nopImage (by decide)]
    decide
  · rw [getD_nopImage (by decide), getD_nopImage (by decide), hsize]
    decide

theorem load_nopImage :
    (Cpu.isOn ⟨.powerOn, 0, true⟩ = true ∧ Cartridge.empty.isOn = true) ∧
    (load nopImage ⟨.on .zeros, ⟨.powerOn, 0, true⟩, .empty, true⟩).result = .ok () ∧
    (load nopImage ⟨.on .zeros, ⟨.powerOn, 0, true⟩, .empty, true⟩).state.cpu.registers.pc
      = 0xEAEA := by
  obtain ⟨hiff, hok, -⟩ :=
    load_succeeds_iff_bootable .zeros ⟨.powerOn, 0, true⟩ .empty nopImage rfl rfl
  have hv := hiff.mpr bootable_nopImage
  obtain ⟨⟨now, hstate, -, -, hupper⟩, -⟩ := hok hv
  have hvector (address : UInt16) (ha : 0xC000 ≤ address.toNat) : now.read address = 0xEA := by
    have hlt := address.toNat_lt
    have hcell := hupper address ha
    have hbank : nopImage[16 + (address.toNat - 0xC000)]? = some 0xEA := by
      rw [nopImage, Array.getElem?_append_right (Nat.le_add_right 16 _)]
      simp only [Array.getElem?_replicate]
      rw [if_pos]
      show 16 + (address.toNat - 0xC000) - 16 < 16384
      omega
    rw [getD_nopImage (by decide), getD_nopImage (by decide)] at hcell
    exact Option.some.inj (hcell.symm.trans hbank)
  refine ⟨⟨rfl, rfl⟩, hv, ?_⟩
  rw [hstate, hvector 0xFFFC (by decide), hvector 0xFFFD (by decide)]
  rfl

end Console

end NesMachine
