import NesMachine.Proofs.Console.Loading

/-!
# `NesMachine/Proofs/Console/UnpoweredLoading.lean` — loading while a part is off

The processor and the memory of a console can be switched off from outside while the console is on.
No load succeeds then, and none touches the processor. Whether memory is touched depends on which
part is off. Memory that is off refuses the first bank. A processor that is off is not asked before
both banks are in memory, so a load that would have succeeded otherwise is refused with the program
in place (`load_without_cpu`).
-/

set_option autoImplicit false

namespace NesMachine

open Image (Accepted Bootable programBytes upperIndex)

/-- Memory after the program banks of an image were copied, if there are cells to copy them to. -/
def Memory.withProgram (image : Array UInt8) : Memory → Memory
  | off => off
  | on ram => on (ram.withProgram image)

namespace Console

variable {memory : Memory} {cpu : Cpu} {cartridge : Cartridge}
  {image : Array UInt8}

theorem reset_unpowered (hcpu : cpu.isOn = false) :
    reset ⟨memory, cpu, cartridge, true⟩
      = ⟨.error (.uninitialized .cpu), ⟨memory, cpu, cartridge, true⟩, []⟩ := by
  obtain ⟨r, cycles, _⟩ := cpu
  obtain rfl : _ = false := hcpu
  rfl

/-- Two banks are copied if there is memory, whether or not the processor is there. -/
theorem ends_startBanks_unpowered (hdown : cpu.isOn = false ∨ memory.isOn = false)
    (hboot : Bootable image) :
    (startBanks (programBytes image 0) (programBytes image (upperIndex image))
      ⟨memory, cpu, cartridge, true⟩).Ends (fun _ _ => False)
      (fun fault later => (memory.isOn = true → fault = .uninitialized .cpu) ∧
        later = ⟨memory.withProgram image, cpu, cartridge, true⟩) := by
  cases memory with
  | off =>
    rw [startBanks]
    refine ⟨?_, rfl⟩
    intro hon
    cases hon
  | on ram =>
    have hcpu : cpu.isOn = false := by
      rcases hdown with h | h
      · exact h
      · cases h
    have hfirst : lowerBank + (programBytes image 0).toList.length ≤ Ram.size := by
      rw [hboot.length_lower]
      decide
    have hsecond : upperBank + (programBytes image (upperIndex image)).toList.length
        ≤ Ram.size := by
      rw [hboot.length_upper]
      decide
    rw [startBanks, onMemory_write_bind _ (by decide) hfirst,
      onMemory_write_bind _ (by decide) hsecond, Action.ends_bind, Action.log_apply,
      Outcome.ends_ok, reset_unpowered hcpu]
    exact ⟨fun _ => rfl, rfl⟩

theorem ends_mapOrUnload_unpowered (hdown : cpu.isOn = false ∨ memory.isOn = false)
    (ha : Accepted image) :
    (mapOrUnload ⟨memory, cpu, .loaded image, true⟩).Ends (fun _ _ => False)
      (fun fault later =>
        (Bootable image → (memory.isOn = true → fault = .uninitialized .cpu) ∧
          later = ⟨memory.withProgram image, cpu, .empty, true⟩) ∧
        (¬ Bootable image → later = ⟨memory, cpu, .empty, true⟩)) := by
  refine ends_mapOrUnload_of (ends_mapCartridge ha ?_ ?_)
  · intro hboot
    refine (ends_startBanks_unpowered hdown hboot).mono (fun _ _ h => h) ?_
    rintro fault later ⟨hfault, rfl⟩
    exact ⟨fun _ => ⟨hfault, rfl⟩, fun h => absurd hboot h⟩
  · intro fault _ hboot
    exact ⟨fun h => absurd h hboot, fun _ => rfl⟩

/-- No load succeeds without processor and memory. Which of them is off only matters if the slot
takes the image and there are banks to copy. -/
theorem ends_load_unpowered (hdown : cpu.isOn = false ∨ memory.isOn = false)
    (image : Array UInt8) :
    (load image ⟨memory, cpu, cartridge, true⟩).Ends (fun _ _ => False)
      (fun fault later => later.cpu = cpu ∧
        (cartridge.isOn = true ∧ Bootable image →
          (memory.isOn = true → fault = .uninitialized .cpu) ∧
          later.memory = memory.withProgram image ∧ later.cartridge = .empty) ∧
        (¬ (cartridge.isOn = true ∧ Bootable image) → later.memory = memory)) := by
  rw [load, requireOn_bind rfl, Action.ends_bind, onCartridge, Outcome.ends_within]
  cases hslot : cartridge.isOn with
  | false =>
    rw [Cartridge.load, Cartridge.requireOn, Action.require_bind_of_false _ _ hslot,
      Outcome.ends_error]
    exact ⟨rfl, fun h => absurd h.1 (by decide), fun _ => rfl⟩
  | true =>
    refine (Cartridge.ends_load hslot image).mono ?_ ?_
    · rintro _ later ⟨ha, rfl⟩
      refine (ends_mapOrUnload_unpowered hdown ha).mono (fun _ _ h => h) ?_
      rintro fault later ⟨hstarted, hnone⟩
      by_cases hboot : Bootable image
      · obtain ⟨hfault, rfl⟩ := hstarted hboot
        exact ⟨rfl, fun _ => ⟨hfault, rfl, rfl⟩, fun h => absurd ⟨rfl, hboot⟩ h⟩
      · obtain rfl := hnone hboot
        exact ⟨rfl, fun h => absurd h.2 hboot, fun _ => rfl⟩
    · rintro fault later ⟨-, ha, rfl⟩
      exact ⟨rfl, fun h => absurd h.2.toAccepted ha, fun _ => rfl⟩

/-- With memory and slot on it is the processor that is missing, and it is missed too late. -/
theorem load_without_cpu (hcpu : cpu.isOn = false) (hslot : cartridge.isOn = true)
    (hboot : Bootable image) (ram : Ram) :
    let outcome := load image ⟨.on ram, cpu, cartridge, true⟩
    outcome.result = .error (.uninitialized .cpu) ∧
      outcome.state.memory = .on (ram.withProgram image) ∧ outcome.state.cartridge = .empty := by
  intro outcome
  have hends : outcome.Ends _ _ := ends_load_unpowered (Or.inl hcpu) image
  cases hresult : outcome.result with
  | ok value => exact (hends.of_ok hresult).elim
  | error fault =>
    obtain ⟨-, hstarted, -⟩ := hends.of_error hresult
    obtain ⟨hfault, hmemory, hempty⟩ := hstarted ⟨hslot, hboot⟩
    exact ⟨congrArg Except.error (hfault rfl), hmemory, hempty⟩

/-- **A load while the processor or the memory is off is refused**, whatever the image. The
processor is left alone.

So is memory, with one exception: a bootable image, a slot that is on, and memory that is on, so
that it is the processor that is missing. Then both program banks are in memory afterwards, all the
same the load is refused, and the slot is empty. -/
theorem load_unpowered_is_refused (console : Console) (image : Array UInt8)
    (hon : console.isOn = true) (hdown : console.cpu.isOn = false ∨ console.memory.isOn = false) :
    let outcome := load image console
    (∃ fault, outcome.result = .error fault) ∧
    outcome.state.cpu = console.cpu ∧
    (¬ (console.memory.isOn = true ∧ console.cartridge.isOn = true ∧ Bootable image) →
      outcome.state.memory = console.memory) ∧
    (∀ ram, console.memory = .on ram → console.cartridge.isOn = true → Bootable image →
      outcome.result = .error (.uninitialized .cpu) ∧
      outcome.state.memory = .on (ram.withProgram image) ∧ outcome.state.cartridge = .empty) := by
  intro outcome
  obtain ⟨memory, cpu, cartridge, isOn⟩ := console
  obtain rfl : isOn = true := hon
  have hends : (load image ⟨memory, cpu, cartridge, true⟩).Ends _ _ :=
    ends_load_unpowered hdown image
  cases hresult : outcome.result with
  | ok value => exact (hends.of_ok hresult).elim
  | error fault =>
    obtain ⟨hcpu, hstarted, hnone⟩ := hends.of_error hresult
    refine ⟨⟨fault, rfl⟩, hcpu, ?_, ?_⟩
    · intro hsafe
      by_cases h : cartridge.isOn = true ∧ Bootable image
      · cases memory with
        | off => exact (hstarted h).2.1
        | on ram => exact absurd ⟨rfl, h⟩ hsafe
      · exact hnone h
    · rintro ram rfl hslot hboot
      rcases hdown with hdown | hdown
      · rw [← hresult]
        exact load_without_cpu hdown hslot hboot ram
      · cases hdown

/-- A console with memory and slot, whose processor was switched off. -/
def unpoweredConsole : Console := ⟨.on .zeros, .off, .empty, true⟩

theorem load_unpoweredConsole :
    unpoweredConsole.isOn = true ∧ unpoweredConsole.cpu.isOn = false ∧
    (load nopImage unpoweredConsole).result = .error (.uninitialized .cpu) ∧
    (load nopImage unpoweredConsole).state.cpu = unpoweredConsole.cpu := by
  obtain ⟨-, hcpu, -, hstarted⟩ :=
    load_unpowered_is_refused unpoweredConsole nopImage rfl (Or.inl rfl)
  obtain ⟨hresult, -, -⟩ := hstarted .zeros rfl rfl bootable_nopImage
  exact ⟨rfl, rfl, hresult, hcpu⟩

/-- **A refused load can leave a program behind.** -/
theorem refused_load_leaves_program :
    (load nopImage unpoweredConsole).result = .error (.uninitialized .cpu) ∧
    unpoweredConsole.memory.peek 0x8000 = .ok 0x00 ∧
    (load nopImage unpoweredConsole).state.memory.peek 0x8000 = .ok 0xEA := by
  obtain ⟨hresult, hmemory, -⟩ :=
    @load_without_cpu .off .empty nopImage rfl rfl bootable_nopImage .zeros
  have hcell : nopImage[(Header.ofImage nopImage).programStart + 0]?
      = some ((Ram.zeros.withProgram nopImage).read 0x8000) :=
    Ram.read_withProgram_lower bootable_nopImage (by decide) (by decide)
  have hbyte : nopImage[(Header.ofImage nopImage).programStart + 0]? = some 0xEA := by
    rw [Header.programStart_ofImage, getD_nopImage (by decide), nopImage,
      Array.getElem?_append_right (by decide), Array.getElem?_replicate]
    rfl
  have hread := Option.some.inj (hcell.symm.trans hbyte)
  refine ⟨hresult, ?_, ?_⟩
  · exact (Memory.peek_on .zeros 0x8000).trans (congrArg Except.ok (Ram.read_zeros 0x8000))
  · rw [unpoweredConsole, hmemory]
    exact (Memory.peek_on _ 0x8000).trans (congrArg Except.ok hread)

end Console

end NesMachine
