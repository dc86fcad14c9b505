import NesMachine.Proofs.Cartridge.Request
import NesMachine.Proofs.Console.Loading
import NesMachine.Proofs.Console.Running
import NesMachine.Proofs.Cpu.History
import NesMachine.Proofs.Memory.Fields

/-!
# `NesMachine/Proofs/Console/Coherence.lean` — parts that are on together

A console has four switches: its own and one for each part. A `Coherent` console has them in the
same position, and an image that is in its slot is one that was started. From outside every part can
be reached, so any of them can be worked on between two operations of the console; but as long as
nobody switches the processor or the memory behind the console's back, coherence is kept by
everything (`coherent_after`), and a console that was off at first is coherent for good
(`coherent_afterRequests`).

Coherence is worth having because it is what the console's operations rely on. In a coherent
console that is on, the processor is on and its bus refuses nothing, so the contracts of its
routines hold without their third clause (`Coherent.ends_work`), and the only thing that can still
go wrong is a program that has an undocumented opcode in it.
-/

set_option autoImplicit false

namespace NesMachine

namespace Console

/-! ## Requests -/

/-- What can be asked of a console from outside, its processor and memory included. -/
inductive Request (bus : Type) where
  | powerOn
  | powerOff
  | load (image : Array UInt8)
  | loadFile (path : String) (read : FileRead)
  | reset
  | step
  | irq
  | nmi
  | run (mode : RunMode) (listened : Bool) (budget : Nat)
  /-- Something that is asked of the processor, on a bus that the caller brings. -/
  | cpu (call : Cpu.Call bus)
  | memory (request : Memory.Request)

variable {bus : Type} [Bus bus]

/-- The console after a request, granted or refused. -/
def Request.after (request : Request bus) (console : Console) : Console :=
  match request with
  | powerOn => (Console.powerOn console).state
  | powerOff => (Console.powerOff console).state
  | load image => (Console.load image console).state
  | loadFile path read => (Console.loadFile path read console).state
  | reset => (Console.reset console).state
  | step => (Console.step console).state
  | irq => (Console.irq console).state
  | nmi => (Console.nmi console).state
  | run mode listened budget => (Console.run mode listened budget console).state
  | cpu call => { console with cpu := (call.event console.cpu).after }
  | memory request => (onMemory request.action console).state

def afterRequests : List (Request bus) → Console → Console
  | [], console => console
  | request :: requests, console => afterRequests requests (request.after console)

theorem afterRequests_append (requests more : List (Request bus)) (console : Console) :
    afterRequests (requests ++ more) console
      = afterRequests more (afterRequests requests console) := by
  induction requests generalizing console with
  | nil => rfl
  | cons request requests ih => exact ih _

/-- What every request of a session keeps is kept by the session. -/
theorem afterRequests_kept {P : Console → Prop} {requests : List (Request bus)}
    {console : Console}
    (hafter : ∀ request ∈ requests, ∀ console, P console → P (request.after console))
    (h : P console) : P (afterRequests requests console) := by
  induction requests generalizing console with
  | nil => exact h
  | cons request requests ih =>
    have hfirst := hafter request List.mem_cons_self console h
    exact ih (fun r hr => hafter r (List.mem_cons_of_mem request hr)) hfirst

/-- The requests that switch the processor or the memory behind the console's back. -/
def Request.switchesPart : Request bus → Bool
  | cpu call => call.request.switches
  | memory request => request.switches
  | _ => false

/-! ## Coherence -/

/-- Everything is on or everything is off, and an image in the slot was started. -/
structure Coherent (console : Console) : Prop where
  memory : console.memory.isOn = console.isOn
  cpu : console.cpu.isOn = console.isOn
  slot : console.cartridge.isOn = console.isOn
  started : ∀ image, console.cartridge = .loaded image → Image.Bootable image

variable {α : Type} {console : Console}

theorem started_of_not_loaded {cartridge : Cartridge} (h : cartridge.isLoaded = false) :
    ∀ image, cartridge = .loaded image → Image.Bootable image := by
  rintro image rfl
  exact absurd h (by simp [Cartridge.isLoaded])

theorem coherent_off : Coherent off where
  memory := rfl
  cpu := rfl
  slot := rfl
  started := started_of_not_loaded rfl

theorem Coherent.bootable (h : Coherent console) (hloaded : console.cartridge.isLoaded = true) :
    console.isOn = true ∧ Image.Bootable console.cartridge.bytes := by
  obtain ⟨image, hcartridge, hbytes⟩ := Cartridge.exists_loaded hloaded
  rw [hbytes]
  exact ⟨h.slot.symm.trans (Cartridge.isOn_of_isLoaded hloaded), h.started image hcartridge⟩

theorem Coherent.sound (h : Coherent console) : console.cartridge.Sound :=
  fun hloaded => (h.bootable hloaded).2.toAccepted

theorem Coherent.exists_on (h : Coherent console) (hon : console.isOn = true) :
    ∃ ram cpu cartridge, cpu.isOn = true ∧ cartridge.isOn = true ∧
      console = ⟨.on ram, cpu, cartridge, true⟩ := by
  obtain ⟨memory, cpu, cartridge, isOn⟩ := console
  obtain rfl : isOn = true := hon
  cases memory with
  | off => exact absurd h.memory (by simp [Memory.isOn])
  | on ram => exact ⟨ram, cpu, cartridge, h.cpu, h.slot, rfl⟩

theorem Coherent.exists_off (h : Coherent console) (hoff : console.isOn = false) :
    ∃ cpu : Cpu, cpu.isOn = false ∧ console = ⟨.off, cpu, .off, false⟩ := by
  obtain ⟨memory, cpu, cartridge, isOn⟩ := console
  obtain rfl : isOn = false := hoff
  cases memory with
  | on ram => exact absurd h.memory (by simp [Memory.isOn])
  | off =>
    cases cartridge with
    | off => exact ⟨cpu, h.cpu, rfl⟩
    | _ => exact absurd h.slot (by simp [Cartridge.isOn])

/-! ## The processor at work in a coherent console -/

/-- **No bus gets in the way.** The processor's work keeps its contract, is not cut, and leaves the
console coherent, provided that it leaves the processor on. -/
theorem Coherent.ends_work (h : Coherent console) (hon : console.isOn = true) {r : Routine α}
    {c : Contract α} (hr : (r console.cpu).Fulfils c)
    (hreturns : ∀ value later, c.returns value later → later.isOn = true)
    (hrefuses : ∀ fault later, c.refuses fault later → later.isOn = true) :
    (work r console).Ends
      (fun value later => c.returns value later.cpu ∧ Coherent later ∧ later.isOn = true)
      (fun fault later => c.refuses fault later.cpu ∧ Coherent later ∧ later.isOn = true) := by
  have hkept {cpu : Cpu} {memory : Memory} (hc : cpu.isOn = true) (hm : memory.isOn = true) :
      Coherent { console with cpu := cpu, memory := memory } :=
    ⟨hm.trans hon.symm, hc.trans hon.symm, h.slot, h.started⟩
  refine (Console.ends_work r).mpr ((hr.run_reliable Memory.reliable (h.memory.trans hon)).mono
    ?_ ?_)
  · rintro value ⟨cpu, memory⟩ ⟨hv, hm⟩
    exact ⟨hv, hkept (hreturns value cpu hv) hm, hon⟩
  · rintro fault ⟨cpu, memory⟩ ⟨hf, hm⟩
    exact ⟨hf, hkept (hrefuses fault cpu hf) hm, hon⟩

theorem Coherent.ends_timed (h : Coherent console) (hon : console.isOn = true) {r : Routine Unit}
    {start : Cpu} {cost : Nat} (hstart : start.isOn = true)
    (hr : (r console.cpu).Fulfils (.retaining start fun _ later => start.Spends cost later)) :
    (work r console).Ends (fun _ later => Coherent later ∧ later.isOn = true)
      (fun _ _ => False) := by
  refine (h.ends_work hon hr ?_ ?_).mono ?_ ?_
  · exact fun _ later hv => hv.on hstart
  · exact fun _ _ hf => hf.elim
  · exact fun _ later hv => hv.2
  · exact fun _ _ hf => hf.1

section

variable (h : Coherent console) (hon : console.isOn = true)
include h hon

theorem Coherent.ends_reset :
    (reset console).Ends (fun _ later => Coherent later ∧ later.isOn = true)
      (fun _ _ => False) := by
  have hcpu : console.cpu.isOn = true := h.cpu.trans hon
  have hcleared : console.cpu.cleared.isOn = true := hcpu
  rw [reset, requireOn_bind hon, Action.ends_bind]
  exact h.ends_timed hon hcleared (Routine.fulfils_reset hcpu)

theorem Coherent.ends_nmi :
    (nmi console).Ends (fun _ later => Coherent later ∧ later.isOn = true) (fun _ _ => False) := by
  have hcpu : console.cpu.isOn = true := h.cpu.trans hon
  rw [nmi_eq hon]
  exact h.ends_timed hon hcpu (Routine.fulfils_nmi hcpu)

theorem Coherent.ends_irq :
    (irq console).Ends (fun _ later => Coherent later ∧ later.isOn = true) (fun _ _ => False) := by
  have hcpu : console.cpu.isOn = true := h.cpu.trans hon
  rw [irq_eq hon]
  exact h.ends_timed hon hcpu (Routine.fulfils_irq hcpu)

/-- A step is refused only for its opcode. -/
theorem Coherent.ends_step :
    (step console).Ends (fun _ later => Coherent later ∧ later.isOn = true)
      (fun fault later => (∃ opcode address, fault = .invalidOpcode opcode address)
        ∧ Coherent later ∧ later.isOn = true) := by
  have hcpu : console.cpu.isOn = true := h.cpu.trans hon
  rw [step_eq hon]
  refine (h.ends_work hon (Routine.fulfils_step hcpu) ?_ ?_).mono ?_ ?_
  · exact fun _ later hv => hv.2.on hcpu
  · rintro _ later ⟨-, rfl⟩
    exact hcpu
  · exact fun _ later hv => hv.2
  · rintro fault later ⟨⟨⟨opcode, rfl⟩, -⟩, hl⟩
    exact ⟨⟨opcode, _, rfl⟩, hl⟩

end

/-! ## Trace lines -/

theorem peekBytes_on (ram : Ram) (address : UInt16) (count : Nat) :
    peekBytes (.on ram) address count = .ok (ram.readBlock address count) := by
  have hcell : (fun index : Nat => (Memory.on ram).peek (address + UInt16.ofNat index).toNat)
      = fun index => pure (ram.read (address + UInt16.ofNat index)) :=
    funext fun index => Memory.peek_on ram _
  rw [peekBytes, hcell, List.mapM_pure]
  rfl

theorem instructionText_undocumented (ram : Ram) {address : UInt16}
    (hd : Instruction.decode (ram.read address) = none) :
    instructionText (.on ram) address = .ok ([ram.read address], "???") := by
  rw [instructionText, Memory.peek_on, Fault.ok_bind, hd]
  rfl

theorem instructionText_documented (ram : Ram) {address : UInt16} {i : Instruction}
    (hd : Instruction.decode (ram.read address) = some i) :
    instructionText (.on ram) address = .ok (ram.readBlock address i.length,
      i.disassemble (operandOfBytes (ram.readBlock address i.length)) address) := by
  rw [instructionText, Memory.peek_on, Fault.ok_bind, hd]
  dsimp only
  rw [peekBytes_on, Fault.ok_bind]
  rfl

theorem traceLine_on (ram : Ram) (cpu : Cpu) (cartridge : Cartridge) :
    ∃ line, traceLine ⟨.on ram, cpu, cartridge, true⟩ = .ok line := by
  have htext : ∃ answer, instructionText (.on ram) cpu.registers.pc = .ok answer := by
    cases hd : Instruction.decode (ram.read cpu.registers.pc) with
    | none => exact ⟨_, instructionText_undocumented ram hd⟩
    | some i => exact ⟨_, instructionText_documented ram hd⟩
  obtain ⟨answer, hanswer⟩ := htext
  rw [traceLine, if_pos rfl]
  dsimp only
  rw [hanswer, Fault.ok_bind]
  exact ⟨_, rfl⟩

/-! ## Coherence is kept -/

theorem Coherent.ends_run (h : Coherent console) (hon : console.isOn = true) (mode : RunMode)
    (listened : Bool) (budget : Nat) :
    (run mode listened budget console).Ends (fun _ later => Coherent later ∧ later.isOn = true)
      (fun fault later => (∃ opcode address, fault = .invalidOpcode opcode address)
        ∧ Coherent later ∧ later.isOn = true) := by
  have hkept (traced : Bool) : KeptByInstruction traced
      (fun _ _ later => Coherent later ∧ later.isOn = true)
      (fun fault later => (∃ opcode address, fault = .invalidOpcode opcode address)
        ∧ Coherent later ∧ later.isOn = true) := by
    rintro left done console ⟨hc, hcon⟩
    refine ends_runStep ?_ (hc.ends_step hcon)
    intro _ fault hline
    obtain ⟨ram, cpu, cartridge, -, -, rfl⟩ := hc.exists_on hcon
    obtain ⟨line, hok⟩ := traceLine_on ram cpu cartridge
    exact absurd (hok.symm.trans hline) (by simp)
  refine (Console.ends_run hon (hkept _) ⟨h, hon⟩).mono ?_ fun _ _ hf => hf
  rintro summary later ⟨-, hl⟩
  exact hl

/-- A load that is refused leaves the slot as it was or empty, and so nothing that was not started
is in it. -/
theorem coherent_insert {insert : Action Cartridge Unit} (h : Coherent console)
    (hon : console.isOn = true)
    (hi : (insert console.cartridge).Ends
      (fun _ later => ∃ image, Image.Accepted image ∧ later = .loaded image)
      (fun _ later => later = console.cartridge)) :
    Coherent ((onCartridge insert >>= fun _ => mapOrUnload) console).state := by
  obtain ⟨ram, cpu, cartridge, hcpu, hslot, rfl⟩ := h.exists_on hon
  refine Outcome.Ends.state ?_
  rw [Action.ends_bind, onCartridge, Outcome.ends_within]
  refine hi.mono ?_ ?_
  · rintro _ later ⟨image, ha, rfl⟩
    refine (ends_mapOrUnload ram hcpu ha).mono ?_ ?_
    · rintro _ later ⟨hboot, rfl⟩
      refine ⟨rfl, rfl, rfl, ?_⟩
      rintro _ ⟨⟩
      exact hboot
    · rintro _ later ⟨-, -, rfl⟩
      exact ⟨rfl, hcpu, rfl, started_of_not_loaded rfl⟩
  · rintro _ later rfl
    exact h

theorem coherent_powerOn (h : Coherent console) : Coherent (powerOn console).state := by
  cases hon : console.isOn with
  | true =>
    obtain ⟨ram, cpu, cartridge, hcpu, hslot, rfl⟩ := h.exists_on hon
    exact h
  | false =>
    obtain ⟨⟨r, cycles, _⟩, hcpu, rfl⟩ := h.exists_off hon
    obtain rfl : _ = false := hcpu
    exact ⟨rfl, rfl, rfl, started_of_not_loaded rfl⟩

theorem ends_powerOff (h : Coherent console) (hon : console.isOn = true) :
    (powerOff console).Ends (fun _ later => Coherent later ∧ later.isOn = false)
      (fun _ _ => False) := by
  obtain ⟨ram, ⟨r, cycles, _⟩, cartridge, hcpu, hslot, rfl⟩ := h.exists_on hon
  obtain rfl : _ = true := hcpu
  cases cartridge with
  | off => exact absurd hslot (by decide)
  | empty => exact ⟨⟨rfl, rfl, rfl, started_of_not_loaded rfl⟩, rfl⟩
  | loaded image => exact ⟨⟨rfl, rfl, rfl, started_of_not_loaded rfl⟩, rfl⟩

/-- A guarded operation has to keep only a console that is on; one that is off it does not touch. -/
theorem coherent_guarded {next : Unit → Action Console α} (h : Coherent console)
    (hnext : console.isOn = true → Coherent ((requireOn >>= next) console).state) :
    Coherent ((requireOn >>= next) console).state := by
  cases hon : console.isOn with
  | false =>
    rw [requireOn, Action.require_bind_of_false _ _ hon]
    exact h
  | true => exact hnext hon

/-- **Every request keeps a console coherent**, unless it switches a part behind its back. -/
theorem coherent_after {request : Request bus} (hs : request.switchesPart = false)
    (h : Coherent console) : Coherent (request.after console) := by
  have hstate {β : Type} {outcome : Outcome Console β} {E : Fault → Console → Prop}
      (ho : outcome.Ends (fun _ later => Coherent later ∧ later.isOn = true) E)
      (hE : ∀ fault later, E fault later → Coherent later) : Coherent outcome.state :=
    Outcome.Ends.state (ho.mono (fun _ _ hl => hl.1) hE)
  cases request with
  -- Switching on is the one operation that does its work while the console is off.
  | powerOn => exact coherent_powerOn h
  | powerOff =>
    refine coherent_guarded h fun hon => Outcome.Ends.state ((ends_powerOff h hon).mono ?_ ?_)
    · exact fun _ _ hl => hl.1
    · exact fun _ _ hf => hf.elim
  | load image =>
    refine coherent_guarded h fun hon => ?_
    rw [requireOn_bind hon]
    exact coherent_insert h hon ((Cartridge.ends_load (h.slot.trans hon) image).mono
      (fun _ _ hl => ⟨image, hl⟩) fun _ _ hl => hl.2.2)
  | loadFile path read =>
    refine coherent_guarded h fun hon => ?_
    rw [requireOn_bind hon]
    exact coherent_insert h hon ((Cartridge.ends_loadFile (h.slot.trans hon) path read).mono
      (fun _ _ ⟨image, _, hl⟩ => ⟨image, hl⟩) fun _ _ hl => hl)
  | reset => exact coherent_guarded h fun hon => hstate (h.ends_reset hon) fun _ _ hf => hf.elim
  | irq => exact coherent_guarded h fun hon => hstate (h.ends_irq hon) fun _ _ hf => hf.elim
  | nmi => exact coherent_guarded h fun hon => hstate (h.ends_nmi hon) fun _ _ hf => hf.elim
  | step => exact coherent_guarded h fun hon => hstate (h.ends_step hon) fun _ _ hf => hf.2.1
  | run mode listened budget =>
    exact coherent_guarded h fun hon =>
      hstate (h.ends_run hon mode listened budget) fun _ _ hf => hf.2.1
  | cpu call => exact ⟨h.memory, (Cpu.isOn_event hs console.cpu).trans h.cpu, h.slot, h.started⟩
  | memory request =>
    obtain ⟨memory, cpu, cartridge, isOn⟩ := console
    exact ⟨(Memory.isOn_request hs memory).trans h.memory, h.cpu, h.slot, h.started⟩

theorem coherent_afterRequests {requests : List (Request bus)}
    (hs : ∀ request ∈ requests, request.switchesPart = false) (h : Coherent console) :
    Coherent (afterRequests requests console) :=
  afterRequests_kept (fun request hr _ => coherent_after (hs request hr)) h

/-- **The four switches of a console never come apart**, and nothing but its program can go wrong.

After any requests at all to a console that was off, as long as they do not switch the processor or
the memory behind its back: console, memory, processor and slot are on together or off together;
memory has all its cells or none; an image in the slot is one that boots, in a console that is on.
And while it is on, it can be reset, signalled, traced and switched off, and the only fault of a
step or a run is an undocumented opcode.

The same can be said of records that keep their buffers and flags apart: what the memory and the
slot show are records that requests lead to, and their buffers are whole or empty with the switch of
the console. -/
theorem reached_console_is_coherent (requests : List (Request bus))
    (hs : ∀ request ∈ requests, request.switchesPart = false) :
    let console := afterRequests requests off
    (console.memory.isOn = console.isOn ∧ console.cpu.isOn = console.isOn ∧
      console.cartridge.isOn = console.isOn) ∧
    (console.memory.size = if console.isOn then 65536 else 0) ∧
    (console.cartridge.isLoaded = true →
      console.isOn = true ∧ Image.Bootable console.cartridge.bytes) ∧
    (console.cartridge.isLoaded = false → console.cartridge.bytes = #[]) ∧
    (console.isOn = true →
      (reset console).result = .ok () ∧ (irq console).result = .ok () ∧
      (nmi console).result = .ok () ∧ (∃ line, console.traceLine = .ok line) ∧
      (powerOff console).result = .ok () ∧
      (∀ fault, (step console).result = .error fault →
        ∃ opcode address, fault = .invalidOpcode opcode address) ∧
      (∀ mode listened budget fault, (run mode listened budget console).result = .error fault →
        ∃ opcode address, fault = .invalidOpcode opcode address)) ∧
    ((∃ asked, Memory.Fields.afterRequests asked .fresh = console.memory.fields) ∧
      console.memory.fields.isOn = console.isOn ∧
      console.memory.fields.cells.size = if console.isOn then 65536 else 0) ∧
    ((∃ asked, Cartridge.Fields.afterRequests asked .fresh = console.cartridge.fields) ∧
      console.cartridge.fields.isOn = console.isOn ∧
      (console.cartridge.fields.isLoaded = true →
        console.isOn = true ∧ Image.Bootable console.cartridge.fields.image) ∧
      (console.cartridge.fields.isLoaded = false → console.cartridge.fields.image = #[])) := by
  intro console
  have h : Coherent console := coherent_afterRequests hs coherent_off
  -- From here on, how the console came about does not matter.
  clear_value console
  refine ⟨⟨h.memory, h.cpu, h.slot⟩, ?_, h.bootable, Cartridge.bytes_of_not_loaded, ?_, ?_, ?_⟩
  · rw [Memory.size_eq, h.memory]
  · intro hon
    have hline : ∃ line, console.traceLine = .ok line := by
      obtain ⟨ram, cpu, cartridge, -, -, rfl⟩ := h.exists_on hon
      exact traceLine_on ram cpu cartridge
    obtain ⟨_, hreset, -⟩ := (h.ends_reset hon).exists_ok
    obtain ⟨_, hirq, -⟩ := (h.ends_irq hon).exists_ok
    obtain ⟨_, hnmi, -⟩ := (h.ends_nmi hon).exists_ok
    obtain ⟨_, hoff, -⟩ := (ends_powerOff h hon).exists_ok
    refine ⟨hreset, hirq, hnmi, hline, hoff, ?_, ?_⟩
    · exact fun fault hf => ((h.ends_step hon).of_error hf).1
    · exact fun mode listened budget fault hf =>
        ((h.ends_run hon mode listened budget).of_error hf).1
  · have hon : console.memory.fields.isOn = console.isOn := (Memory.isOn_fields _).trans h.memory
    refine ⟨Memory.reached_iff.mpr ⟨_, rfl⟩, hon, ?_⟩
    rw [Memory.size_cells_fields, hon]
  · refine ⟨Cartridge.reached_iff.mpr ⟨_, h.sound, rfl⟩, ?_⟩
    rw [Cartridge.isOn_fields, Cartridge.isLoaded_fields, Cartridge.image_fields]
    exact ⟨h.slot, h.bootable, Cartridge.bytes_of_not_loaded⟩

/-- A bootable image gets into the slot of a coherent console that is on, whatever was in it. -/
theorem Coherent.housing_load (h : Coherent console) (hon : console.isOn = true)
    {image : Array UInt8} (hboot : Image.Bootable image) :
    (load image console).state.housing = (true, .loaded image) := by
  obtain ⟨ram, cpu, cartridge, hcpu, hslot, rfl⟩ := h.exists_on hon
  refine Outcome.Ends.state (P := fun later => later.housing = (true, .loaded image))
    ((ends_load ram hcpu hslot image).mono ?_ ?_)
  · rintro _ later ⟨-, rfl⟩
    rfl
  · rintro _ later ⟨hnot, -⟩
    exact absurd hboot hnot

/-- A session in which the parts are touched: the opcode poked is undocumented, so the step on it is
refused. -/
def pokedSession : List (Request Ram) :=
  [.step, .powerOn, .load #[], .memory (.poke 0 0x02),
    .cpu ⟨.setRegisters fun r => { r with sp := 0 }, .zeros⟩, .step, .irq, .reset]

/-- A cartridge is loaded and run, and the console is signalled. -/
def playing : List (Request Ram) := [.load nopImage, .run .debug true 2, .nmi]

theorem Coherent.housing_playing (h : Coherent console) (hon : console.isOn = true) :
    (afterRequests playing console).housing = (true, .loaded nopImage) := by
  have hload := h.housing_load hon bootable_nopImage
  have hrun := leaves_run .debug true 2 (load nopImage console).state
  have hnmi := leaves_nmi (run .debug true 2 (load nopImage console).state).state
  rw [playing]
  simp only [afterRequests, Request.after]
  exact (hnmi.trans hrun).trans hload

theorem switchesPart_played : ∀ request ∈ pokedSession ++ playing, request.switchesPart = false := by
  have hpoked : ∀ request ∈ pokedSession, request.switchesPart = false := by decide
  intro request hrequest
  obtain hfirst | hlater := List.mem_append.mp hrequest
  · exact hpoked request hfirst
  · simp only [playing, List.mem_cons, List.not_mem_nil, or_false] at hlater
    obtain rfl | rfl | rfl := hlater
    all_goals rfl

/-- In the end the image is in the slot of a console that is on, it is one that boots, and the console
can be switched off. -/
theorem playedSession_is_coherent :
    (∀ request ∈ pokedSession ++ playing, request.switchesPart = false) ∧
    (afterRequests (pokedSession ++ playing) off).isOn = true ∧
    (afterRequests (pokedSession ++ playing) off).cartridge = .loaded nopImage ∧
    Image.Bootable (afterRequests (pokedSession ++ playing) off).cartridge.bytes ∧
    (powerOff (afterRequests (pokedSession ++ playing) off)).result = .ok () := by
  obtain ⟨-, -, hloaded, -, hworks, -⟩ :=
    reached_console_is_coherent (pokedSession ++ playing) switchesPart_played
  have hpoked : Coherent (afterRequests pokedSession off) :=
    coherent_afterRequests (by decide) coherent_off
  have hhousing := hpoked.housing_playing rfl
  rw [← afterRequests_append] at hhousing
  obtain ⟨hon, hslot⟩ := housing_eq_iff.mp hhousing
  obtain ⟨-, -, -, -, hoff, -⟩ := hworks hon
  obtain ⟨-, hboot⟩ := hloaded (by rw [hslot]; rfl)
  exact ⟨switchesPart_played, hon, hslot, hboot, hoff⟩

end Console

end NesMachine
