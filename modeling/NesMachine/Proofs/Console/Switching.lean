import NesMachine.Proofs.Console.Coherence

/-!
# `NesMachine/Proofs/Console/Switching.lean` — switching on and off, whatever the parts are

The processor and the memory of a console may have been switched behind its back when it is asked to
switch itself on or off. What comes of that depends on two switches that nobody reaches from
outside, the console's own and the slot's. Every request but the two that switch the console leaves
them alone (`power_after`), so that their positions can be followed through any session.

Of the four positions three occur: both off, both on, and the console on with its slot off. The
fourth does not (`slotFollows_afterRequests`), and it is the only one in which switching on, when it
has to give up, would not leave everything as it was. So switching on is all or nothing
(`SlotFollows.ends_powerOn`).

Switching off is not. The slot goes first, and if the processor or the memory then refuses, the
console is on with its slot off; a console like this is `Stranded`, because it is refused to be
switched off for its slot and to be switched on for itself, whatever is done in between
(`Stranded.final`).
-/

set_option autoImplicit false

namespace NesMachine

namespace Cartridge

theorem eq_off {cartridge : Cartridge} (h : cartridge.isOn = false) : cartridge = off := by
  cases cartridge with
  | off => rfl
  | _ => cases h

theorem powerOff_on {cartridge : Cartridge} (h : cartridge.isOn = true) :
    ∃ log, powerOff cartridge = ⟨.ok (), off, log⟩ := by
  cases cartridge with
  | off => cases h
  | _ => exact ⟨_, rfl⟩

theorem leaves_load (image : Array UInt8) : (load image).Leaves isOn := by
  intro cartridge
  cases hon : cartridge.isOn with
  | false =>
    rw [load, requireOn, Action.require_bind_of_false _ _ hon]
    exact hon
  | true =>
    refine Outcome.Ends.state (P := fun later => later.isOn = true)
      ((ends_load hon image).mono ?_ ?_)
    · rintro _ later ⟨-, rfl⟩
      rfl
    · rintro fault later ⟨-, -, rfl⟩
      exact hon

theorem leaves_loadFile (path : String) (read : FileRead) : (loadFile path read).Leaves isOn := by
  refine (Action.leaves_require _ _).bind fun _ => ?_
  cases read with
  | missing => exact Action.leaves_refuse _
  | failed detail => exact Action.leaves_refuse _
  | contents image => exact (Action.leaves_log _ _).bind fun _ => leaves_load image

theorem leaves_unload : unload.Leaves isOn := by
  intro cartridge
  cases cartridge <;> rfl

end Cartridge

namespace Console

variable {α bus : Type} [Bus bus] {console : Console}

/-! ## The two switches that nobody reaches from outside -/

/-- Whether the console is on, and whether its slot is. -/
def power (console : Console) : Bool × Bool := (console.isOn, console.cartridge.isOn)

theorem leaves_power_of_housing {action : Action Console α} (h : action.Leaves housing) :
    action.Leaves power := h.map (Prod.map id Cartridge.isOn)

theorem leaves_onMemory (action : Action Memory α) : (onMemory action).Leaves power := fun _ => rfl

theorem leaves_onCartridge {action : Action Cartridge α} (h : action.Leaves Cartridge.isOn) :
    (onCartridge action).Leaves power :=
  fun console => congrArg (Prod.mk console.isOn) (h console.cartridge)

theorem leaves_startBanks (lower upper : Array UInt8) : (startBanks lower upper).Leaves power := by
  rw [startBanks]
  refine (leaves_onMemory _).bind fun _ => (leaves_onMemory _).bind fun _ => ?_
  exact (Action.leaves_log _ _).bind fun _ => leaves_power_of_housing leaves_reset

theorem leaves_copyBanks (banks : Nat) : (copyBanks banks).Leaves power := by
  refine (Action.leaves_ask _).bind fun lower => ?_
  split
  · exact (Action.leaves_ask _).bind fun upper => leaves_startBanks lower upper
  · exact leaves_startBanks lower lower

theorem leaves_mapCartridge : mapCartridge.Leaves power := by
  rw [mapCartridge_eq]
  refine (Action.leaves_ask _).bind fun header => ?_
  dsimp only
  split
  · exact Action.leaves_refuse _
  · split
    · exact (Action.leaves_log _ _).bind fun _ => leaves_copyBanks _
    · exact leaves_copyBanks _

theorem leaves_mapOrUnload : mapOrUnload.Leaves power := by
  refine leaves_mapCartridge.orElseUndo fun fault => ?_
  exact (Action.leaves_log _ _).bind fun _ => leaves_onCartridge Cartridge.leaves_unload

/-- The requests that switch the console itself. -/
def Request.switchesConsole : Request bus → Bool
  | powerOn => true
  | powerOff => true
  | _ => false

/-- **Only the console switches its slot and itself.** -/
theorem power_after {request : Request bus} (hs : request.switchesConsole = false)
    (console : Console) : (request.after console).power = console.power := by
  cases request with
  | powerOn => cases hs
  | powerOff => cases hs
  | load image =>
    have hload := leaves_onCartridge (Cartridge.leaves_load image)
    exact ((Action.leaves_require _ _).bind fun _ => hload.bind fun _ => leaves_mapOrUnload) console
  | loadFile path read =>
    have hload := leaves_onCartridge (Cartridge.leaves_loadFile path read)
    exact ((Action.leaves_require _ _).bind fun _ => hload.bind fun _ => leaves_mapOrUnload) console
  | reset => exact leaves_power_of_housing leaves_reset console
  | step => exact leaves_power_of_housing leaves_step console
  | irq => exact leaves_power_of_housing leaves_irq console
  | nmi => exact leaves_power_of_housing leaves_nmi console
  | run mode listened budget =>
    exact leaves_power_of_housing (leaves_run mode listened budget) console
  | cpu call => rfl
  | memory request => exact leaves_onMemory request.action console

/-! ## Switching on -/

/-- The slot of a console that is off is off. -/
def SlotFollows (console : Console) : Prop :=
  console.isOn = false → console.cartridge.isOn = false

/-- Switching on does all or nothing if there is no slot to give up for. -/
theorem SlotFollows.ends_powerOn (h : SlotFollows console) :
    (powerOn console).Ends
      (fun _ later =>
        (console.isOn = false ∧ console.memory.isOn = false ∧ console.cpu.isOn = false) ∧
        later = ⟨.on .zeros, ⟨.powerOn, 0, true⟩, .empty, true⟩)
      (fun _ later =>
        ¬ (console.isOn = false ∧ console.memory.isOn = false ∧ console.cpu.isOn = false) ∧
        later = console) := by
  obtain ⟨memory, ⟨registers, cycles, running⟩, cartridge, isOn⟩ := console
  cases isOn with
  | true =>
    refine ⟨?_, rfl⟩
    rintro ⟨hoff, -, -⟩
    cases hoff
  | false =>
    obtain rfl : cartridge = .off := Cartridge.eq_off (h rfl)
    cases memory with
    | on ram =>
      refine ⟨?_, rfl⟩
      rintro ⟨-, hoff, -⟩
      cases hoff
    | off =>
      cases running with
      | true =>
        refine ⟨?_, rfl⟩
        rintro ⟨-, -, hoff⟩
        cases hoff
      | false => exact ⟨⟨rfl, rfl, rfl⟩, rfl⟩

/-! ## Switching off -/

/-- Switching off refuses for the first part that is off. The slot is off by then, and so is the
processor if it is the memory that refuses. -/
theorem ends_powerOff_part (hon : console.isOn = true) (hslot : console.cartridge.isOn = true) :
    (powerOff console).Ends (fun _ later => later = off)
      (fun _ later => ∃ cpu, later = { console with cpu := cpu, cartridge := .off } ∧
        (cpu = console.cpu ∨ console.memory.isOn = false ∧ cpu = .off)) := by
  obtain ⟨memory, ⟨registers, cycles, running⟩, cartridge, isOn⟩ := console
  obtain ⟨log, hgone⟩ := Cartridge.powerOff_on hslot
  rw [powerOff, requireOn_bind hon, Action.ends_bind, onCartridge, Outcome.ends_within, hgone,
    Outcome.ends_ok]
  cases running with
  | false => exact ⟨_, rfl, Or.inl rfl⟩
  | true =>
    cases memory with
    | off => exact ⟨_, rfl, Or.inr ⟨rfl, rfl⟩⟩
    | on ram => rfl

theorem powerOff_off (hoff : console.isOn = false) :
    powerOff console = ⟨.error (.uninitialized .system), console, []⟩ :=
  Action.require_bind_of_false _ _ hoff

/-- The console is on and its slot is off. -/
structure Stranded (console : Console) : Prop where
  isOn : console.isOn = true
  slot : console.cartridge.isOn = false

theorem powerOff_stranded (h : Stranded console) :
    powerOff console = ⟨.error (.uninitialized .rom), console, []⟩ := by
  obtain ⟨hon, hslot⟩ := h
  obtain ⟨memory, cpu, cartridge, isOn⟩ := console
  obtain rfl : isOn = true := hon
  obtain rfl : cartridge = .off := Cartridge.eq_off hslot
  rfl

theorem powerOn_stranded (h : Stranded console) :
    powerOn console = ⟨.error (.alreadyInitialized .system), console, []⟩ := by
  rw [powerOn, Action.require_bind_of_false]
  rw [h.isOn]
  rfl

/-! ## The switches through a session -/

theorem slotFollows_after (request : Request bus) (h : SlotFollows console) :
    SlotFollows (request.after console) := by
  cases hs : request.switchesConsole with
  | false =>
    have hpower := power_after hs console
    intro hoff
    have hbefore : console.isOn = false := (congrArg Prod.fst hpower).symm.trans hoff
    exact (congrArg Prod.snd hpower).trans (h hbefore)
  | true =>
    cases request with
    | powerOn =>
      refine Outcome.Ends.state (h.ends_powerOn.mono ?_ ?_)
      · rintro _ later ⟨-, rfl⟩ hoff
        cases hoff
      · rintro _ later ⟨-, rfl⟩
        exact h
    | powerOff =>
      cases hon : console.isOn with
      | false =>
        rw [Request.after, powerOff_off hon]
        exact h
      | true =>
        cases hslot : console.cartridge.isOn with
        | false =>
          rw [Request.after, powerOff_stranded ⟨hon, hslot⟩]
          exact h
        | true =>
          refine Outcome.Ends.state ((ends_powerOff_part hon hslot).mono ?_ ?_)
          · rintro _ later rfl _
            rfl
          · rintro _ later ⟨cpu, rfl, -⟩ _
            rfl
    | _ => cases hs

theorem slotFollows_afterRequests (requests : List (Request bus)) (h : SlotFollows console) :
    SlotFollows (afterRequests requests console) :=
  afterRequests_kept (fun request _ _ => slotFollows_after request) h

theorem stranded_after (request : Request bus) (h : Stranded console) :
    Stranded (request.after console) := by
  cases hs : request.switchesConsole with
  | false =>
    have hpower := power_after hs console
    exact ⟨(congrArg Prod.fst hpower).trans h.isOn, (congrArg Prod.snd hpower).trans h.slot⟩
  | true =>
    cases request with
    | powerOn =>
      rw [Request.after, powerOn_stranded h]
      exact h
    | powerOff =>
      rw [Request.after, powerOff_stranded h]
      exact h
    | _ => cases hs

/-- A stranded console can be switched neither way, now or later. -/
theorem Stranded.final (h : Stranded console) (requests : List (Request bus)) :
    let last := afterRequests requests console
    powerOff last = ⟨.error (.uninitialized .rom), last, []⟩ ∧
    powerOn last = ⟨.error (.alreadyInitialized .system), last, []⟩ := by
  have hlast : Stranded (afterRequests requests console) :=
    afterRequests_kept (fun request _ _ => stranded_after request) h
  exact ⟨powerOff_stranded hlast, powerOn_stranded hlast⟩

/-! ## What this comes to -/

/-- **Switching on is all or nothing.**

After any requests at all to a console that was off, its processor and its memory being switched
behind its back among them: if switching on is refused, nothing has changed, and if it is granted,
nothing is left of what was there before. It is granted exactly if the console, its memory and its
processor are off. -/
theorem powerOn_all_or_nothing (requests : List (Request bus)) :
    let console := afterRequests requests off
    let outcome := powerOn console
    (∀ fault, outcome.result = .error fault → outcome.state = console) ∧
    (outcome.result = .ok () → outcome.state = (powerOn off).state ∧
      outcome.state = ⟨.on .zeros, ⟨.powerOn, 0, true⟩, .empty, true⟩) ∧
    (outcome.result = .ok () ↔
      console.isOn = false ∧ console.memory.isOn = false ∧ console.cpu.isOn = false) := by
  intro console outcome
  have hfollows : SlotFollows console := slotFollows_afterRequests requests fun _ => rfl
  have hends := hfollows.ends_powerOn
  cases hresult : outcome.result with
  | ok value =>
    obtain ⟨hoff, hfresh⟩ := hends.of_ok hresult
    refine ⟨?_, fun _ => ⟨hfresh, hfresh⟩, fun _ => hoff, fun _ => rfl⟩
    intro fault h
    cases h
  | error fault =>
    obtain ⟨hnot, hsame⟩ := hends.of_error hresult
    refine ⟨fun _ _ => hsame, ?_, ?_, fun hoff => absurd hoff hnot⟩
    · intro h
      cases h
    · intro h
      cases h

/-- Off and on again, with the registers set and a cell poked in between. -/
def restarted : List (Request Ram) :=
  [.powerOn, .memory (.poke 0 0xEA), .powerOff,
    .cpu ⟨.setRegisters fun r => { r with a := 0x10 }, .zeros⟩]

theorem powerOn_restarted :
    (powerOn (afterRequests restarted off)).result = .ok () ∧
    (powerOn (afterRequests restarted off)).state = (powerOn off).state := by
  obtain ⟨-, hfresh, hiff⟩ := powerOn_all_or_nothing restarted
  have hok := hiff.mpr ⟨rfl, rfl, rfl⟩
  exact ⟨hok, (hfresh hok).1⟩

/-- **A console that refuses to be switched off while it is on can never be switched off.**

The refusal leaves everything as it was if the console or its slot was off. Otherwise the slot is
off after it, and the processor too if it was the memory that refused. In either case a console that
is on stays on, with its slot off, through all requests that follow; and at any point among them it
refuses to be switched off for its slot, and to be switched on because it is on. -/
theorem refused_powerOff_is_final (console : Console) (fault : Fault)
    (hrefused : (powerOff console).result = .error fault) :
    let later := (powerOff console).state
    later.isOn = console.isOn ∧ later.memory = console.memory ∧
    (later.cpu = console.cpu ∨ console.memory.isOn = false ∧ later.cpu = .off) ∧
    (later = console ↔ console.isOn = false ∨ console.cartridge.isOn = false) ∧
    (console.isOn = true → later.cartridge = .off ∧
      ∀ requests : List (Request bus),
        let last := afterRequests requests later
        powerOff last = ⟨.error (.uninitialized .rom), last, []⟩ ∧
        powerOn last = ⟨.error (.alreadyInitialized .system), last, []⟩) := by
  intro later
  cases hon : console.isOn with
  | false =>
    have hsame : later = console := congrArg Outcome.state (powerOff_off hon)
    rw [hsame]
    refine ⟨hon, rfl, Or.inl rfl, ⟨fun _ => Or.inl rfl, fun _ => rfl⟩, ?_⟩
    intro h
    cases h
  | true =>
    cases hslot : console.cartridge.isOn with
    | false =>
      have hstranded : Stranded console := ⟨hon, hslot⟩
      have hsame : later = console := congrArg Outcome.state (powerOff_stranded hstranded)
      rw [hsame]
      refine ⟨hon, rfl, Or.inl rfl, ⟨fun _ => Or.inr rfl, fun _ => rfl⟩, fun _ => ?_⟩
      exact ⟨Cartridge.eq_off hslot, hstranded.final⟩
    | true =>
      obtain ⟨cpu, hlater, hcpu⟩ : ∃ cpu, later = { console with cpu := cpu, cartridge := .off } ∧
          (cpu = console.cpu ∨ console.memory.isOn = false ∧ cpu = .off) :=
        (ends_powerOff_part hon hslot).of_error hrefused
      rw [hlater]
      refine ⟨hon, rfl, hcpu, ⟨fun hsame => ?_, ?_⟩, fun _ => ⟨rfl, Stranded.final ⟨hon, rfl⟩⟩⟩
      · rw [← hsame] at hslot
        cases hslot
      · rintro (h | h) <;> cases h

/-- The processor is switched off behind the back of a console that is on. -/
def halfDismantled : List (Request Ram) := [.powerOn, .cpu ⟨.powerOff, .zeros⟩]

/-- The processor is switched on again. -/
def mended : List (Request Ram) := [.cpu ⟨.powerOn, .zeros⟩]

theorem powerOff_halfDismantled :
    let console := afterRequests halfDismantled off
    (powerOff console).result = .error (.uninitialized .cpu) ∧
    (powerOff console).state.cartridge = .off ∧
    (powerOff (afterRequests mended (powerOff console).state)).result
      = .error (.uninitialized .rom) := by
  intro console
  have hrefused : (powerOff console).result = .error (.uninitialized .cpu) := rfl
  obtain ⟨-, -, -, -, hfinal⟩ := @refused_powerOff_is_final Ram _ console _ hrefused
  obtain ⟨hgone, hrequests⟩ := hfinal rfl
  exact ⟨hrefused, hgone, congrArg Outcome.result (hrequests mended).1⟩

/-- **Switching off can be refused halfway**, and mending what was missing does not help. -/
theorem refused_powerOff_loses_slot :
    let console := afterRequests halfDismantled off
    let later := (powerOff console).state
    (powerOff console).result = .error (.uninitialized .cpu) ∧
    console.cartridge = .empty ∧ later.cartridge = .off ∧
    (afterRequests mended later).cpu.isOn = true ∧ (afterRequests mended later).memory.isOn = true ∧
    (powerOff (afterRequests mended later)).result = .error (.uninitialized .rom) := by
  exact ⟨rfl, rfl, rfl, rfl, rfl, rfl⟩

end Console

end NesMachine
