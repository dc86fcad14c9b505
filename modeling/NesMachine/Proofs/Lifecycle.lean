import NesMachine.Memory.Dump
import NesMachine.Proofs.Cartridge.Request
import NesMachine.Proofs.Cpu.Request
import NesMachine.Proofs.Exchange.Blame
import NesMachine.Proofs.Memory.Request

/-!
# `NesMachine/Proofs/Lifecycle.lean` — operations at the wrong time

Memory, processor and slot are switched on and off by themselves, and there are two ways to ask one
of them at the wrong time: switching it on while it is on, and anything else while it is off. There
is a fault for each, and `Guarded` says that they are given then, that they are never given
otherwise, and that nothing has changed when they are.

The processor is the one that passes on faults of others, because a bus may refuse an access for any
reason it likes, this one included. So of the processor it is said what it refuses by itself, which
is where no bus has refused it an access. At the wrong time no bus can, because then the work that is
asked for has no access in it at all.
-/

set_option autoImplicit false

namespace NesMachine

/-! ## What it means to be guarded -/

/-- The outcome of an operation on a component that `isOn` or not, where the operation `switchesOn`
the component or does something else: the faults of the lifecycle are given exactly at the wrong
time, and the component is as it was `before` then. A fault that is `foreign` is not the component's
own. -/
structure Outcome.Guarded {σ α : Type} (component : Component) (isOn : Bool) (switchesOn : Prop)
    (foreign : Option Fault) (before : σ) (outcome : Outcome σ α) : Prop where
  uninitialized : outcome.result = .error (.uninitialized component) ∧ foreign = none
    ↔ isOn = false ∧ ¬ switchesOn
  alreadyInitialized : outcome.result = .error (.alreadyInitialized component) ∧ foreign = none
    ↔ isOn = true ∧ switchesOn
  unchanged : isOn = false ∧ ¬ switchesOn ∨ isOn = true ∧ switchesOn → outcome.state = before

/-- A value, or a fault that has nothing to do with the lifecycle. -/
def Timely {α : Type} : Except Fault α → Prop
  | .ok _ => True
  | .error fault => fault.isLifecycle = false

theorem Timely.bind {α β : Type} {result : Except Fault α} {next : α → Except Fault β}
    (h : Timely result) (hnext : ∀ value, Timely (next value)) : Timely (result >>= next) := by
  cases result with
  | error fault => exact h
  | ok value => exact hnext value

theorem Timely.answered {σ α β : Type} {action : Action σ α} {answer : α → β} {state : σ}
    (h : Timely (action state).result) :
    Timely ((action >>= fun value => pure (answer value)) state).result := by
  rw [Action.bind_apply]
  generalize action state = outcome at h ⊢
  obtain ⟨fault | value, later, log⟩ := outcome
  · exact h
  · trivial

namespace Outcome

variable {σ α : Type} {component : Component} {isOn : Bool} {switchesOn : Prop}
  {foreign : Option Fault} {before : σ} {outcome : Outcome σ α}

/-- An operation is guarded if it refuses at both of the wrong times, and is timely at the right
one. -/
theorem guarded_of_times
    (hoff : isOn = false → ¬ switchesOn →
      outcome = ⟨.error (.uninitialized component), before, []⟩ ∧ foreign = none)
    (hon : isOn = true → switchesOn →
      outcome = ⟨.error (.alreadyInitialized component), before, []⟩ ∧ foreign = none)
    (hright : (isOn = true ↔ ¬ switchesOn) → foreign = none → Timely outcome.result) :
    outcome.Guarded component isOn switchesOn foreign before := by
  have htimes : isOn = false ∧ ¬ switchesOn ∨ isOn = true ∧ switchesOn ∨
      (isOn = true ↔ ¬ switchesOn) := by
    by_cases switchesOn <;> cases isOn <;> simp [*]
  rcases htimes with ⟨hison, hother⟩ | ⟨hison, hswitch⟩ | hboth
  · obtain ⟨rfl, rfl⟩ := hoff hison hother
    refine ⟨iff_of_true ⟨rfl, rfl⟩ ⟨hison, hother⟩, iff_of_false ?_ fun h => hother h.2,
      fun _ => rfl⟩
    rintro ⟨⟨⟩, -⟩
  · obtain ⟨rfl, rfl⟩ := hon hison hswitch
    refine ⟨iff_of_false ?_ fun h => h.2 hswitch, iff_of_true ⟨rfl, rfl⟩ ⟨hison, hswitch⟩,
      fun _ => rfl⟩
    rintro ⟨⟨⟩, -⟩
  · -- No fault of the lifecycle is timely.
    have hnever {fault : Fault} (hfault : fault.isLifecycle = true) :
        ¬ (outcome.result = .error fault ∧ foreign = none) := by
      rintro ⟨hresult, hown⟩
      have htimely := hright hboth hown
      rw [hresult, Timely, hfault] at htimely
      cases htimely
    have hwrong : ¬ (isOn = false ∧ ¬ switchesOn) ∧ ¬ (isOn = true ∧ switchesOn) := by
      rw [← hboth]
      cases isOn <;> simp [← hboth]
    refine ⟨iff_of_false (hnever rfl) hwrong.1, iff_of_false (hnever rfl) hwrong.2, fun h => ?_⟩
    exact (h.elim hwrong.1 hwrong.2).elim

/-- Where the foreign faults are others than the component's, every fault of the lifecycle is its
own. -/
theorem Guarded.own (h : outcome.Guarded component isOn switchesOn foreign before)
    (hforeign : ∀ fault, foreign = some fault → outcome.result = .error fault ∧
      fault ≠ .uninitialized component ∧ fault ≠ .alreadyInitialized component) :
    outcome.Guarded component isOn switchesOn none before := by
  have hown {fault : Fault} (hresult : outcome.result = .error fault)
      (hfault : fault = .uninitialized component ∨ fault = .alreadyInitialized component) :
      foreign = none := by
    cases hother : foreign with
    | none => rfl
    | some other =>
      obtain ⟨hgiven, hdiffers⟩ := hforeign other hother
      obtain rfl : fault = other := Except.error.inj (hresult.symm.trans hgiven)
      exact (hfault.elim hdiffers.1 hdiffers.2).elim
  refine ⟨?_, ?_, h.unchanged⟩
  · rw [← h.uninitialized]
    exact ⟨fun hresult => ⟨hresult.1, hown hresult.1 (.inl rfl)⟩, fun hresult => ⟨hresult.1, rfl⟩⟩
  · rw [← h.alreadyInitialized]
    exact ⟨fun hresult => ⟨hresult.1, hown hresult.1 (.inr rfl)⟩, fun hresult => ⟨hresult.1, rfl⟩⟩

end Outcome

/-! ## Memory -/

namespace Memory

variable (ram : Ram) (address length : Nat)

theorem timely_peek : Timely ((on ram).peek address) := by
  rw [peek]
  split
  · trivial
  · rfl

theorem timely_alter (change : UInt8 → UInt8) :
    Timely (alter address change (on ram)).result := by
  rw [alter]
  split
  · trivial
  · rfl

theorem blockFault_timely {fault : Fault} (h : blockFault address length = some fault) :
    fault.isLifecycle = false := by
  rw [blockFault] at h
  split at h
  · cases h
    rfl
  · split at h
    · cases h
      rfl
    · cases h

theorem timely_peekBlock : Timely ((on ram).peekBlock address length) := by
  rw [peekBlock]
  split
  · exact blockFault_timely address length ‹_›
  · trivial

theorem timely_write (bytes : List UInt8) : Timely (write address bytes (on ram)).result := by
  rw [write]
  split
  · exact blockFault_timely address bytes.length ‹_›
  · trivial

theorem timely_request {request : Request} (hp : request ≠ .powerOn) :
    Timely (request.action (on ram)).result := by
  cases request with
  | powerOn => exact absurd rfl hp
  | powerOff | clear | readByte | writeByte => trivial
  | peek address => exact Timely.answered (timely_peek ram address)
  | hasFlags address mask =>
    exact Timely.answered ((timely_peek ram address).bind fun _ => trivial)
  | poke address value => exact Timely.answered (timely_alter ram address _)
  | setFlags address mask => exact Timely.answered (timely_alter ram address _)
  | clearFlags address mask => exact Timely.answered (timely_alter ram address _)
  | write address bytes => exact Timely.answered (timely_write ram address bytes)

theorem guarded_request (memory : Memory) (request : Request) :
    (request.action memory).Guarded .memory memory.isOn (request = .powerOn) none memory := by
  cases memory with
  | off =>
    refine Outcome.guarded_of_times (fun _ hp => ⟨request_off hp, rfl⟩) (fun h => by cases h) ?_
    rintro hright -
    obtain rfl : request = .powerOn := by simpa [isOn] using hright
    trivial
  | on ram =>
    refine Outcome.guarded_of_times (fun h => by cases h) ?_ ?_
    · rintro - rfl
      exact ⟨rfl, rfl⟩
    · rintro hright -
      exact timely_request ram (by simpa [isOn] using hright)

/-- An operation other than those that switch the memory on. -/
theorem guarded_action {α : Type} {action : Action Memory α}
    (hoff : action off = ⟨.error (.uninitialized .memory), off, []⟩)
    (hon : ∀ ram, Timely (action (on ram)).result) (memory : Memory) :
    (action memory).Guarded .memory memory.isOn False none memory := by
  cases memory with
  | off =>
    refine Outcome.guarded_of_times (fun _ _ => ⟨hoff, rfl⟩) (fun h => by cases h) ?_
    rintro hright -
    simp [isOn] at hright
  | on ram =>
    refine Outcome.guarded_of_times (fun h => by cases h) (fun _ h => h.elim) ?_
    rintro - -
    exact hon ram

theorem guarded_alter (change : UInt8 → UInt8) (memory : Memory) :
    (alter address change memory).Guarded .memory memory.isOn False none memory :=
  guarded_action rfl (fun ram => timely_alter ram address change) memory

theorem guarded_cellText (memory : Memory) :
    (Action.ask (·.cellText address) memory).Guarded .memory memory.isOn False none memory := by
  refine guarded_action rfl (fun ram => ?_) memory
  exact Timely.bind (timely_peek ram address) fun _ => True.intro

theorem guarded_blockText (memory : Memory) :
    (Action.ask (·.blockText address length) memory).Guarded .memory memory.isOn False none
      memory := by
  refine guarded_action rfl (fun ram => ?_) memory
  exact Timely.bind (timely_peekBlock ram address length) fun _ => True.intro

end Memory

/-! ## The slot -/

namespace Cartridge

theorem timely_parse (image : Array UInt8) : Timely (Header.parse image) := by
  rw [Header.parse]
  split
  · trivial
  · rfl

theorem timely_slice (image : Array UInt8) (first length : Nat) :
    Timely (Image.slice image first length) := by
  rw [Image.slice]
  split
  · trivial
  · rfl

theorem timely_programBank (image : Array UInt8) (index : Nat) :
    Timely (Image.programBank image index) := by
  refine (timely_parse image).bind fun header => ?_
  split
  · exact timely_slice image _ _
  · rfl

theorem timely_characterBank (image : Array UInt8) (index : Nat) :
    Timely (Image.characterBank image index) := by
  refine (timely_parse image).bind fun header => ?_
  split
  · exact timely_slice image _ _
  · rfl

variable {cartridge : Cartridge}

theorem timely_image (hon : cartridge.isOn = true) : Timely cartridge.image := by
  cases cartridge with
  | off => cases hon
  | empty => rfl
  | loaded image => trivial

theorem timely_of_blamesImage {fault : Fault} (h : fault.blamesImage = true) :
    fault.isLifecycle = false := by
  cases fault with
  | malformed | unsupported => rfl
  | _ => cases h

theorem timely_load (hon : cartridge.isOn = true) (image : Array UInt8) :
    Timely (load image cartridge).result := by
  have hends := ends_load hon image
  cases hresult : (load image cartridge).result with
  | ok value => trivial
  | error fault => exact timely_of_blamesImage (hends.of_error hresult).1

theorem timely_loadFile (hon : cartridge.isOn = true) (path : String) (read : FileRead) :
    Timely (loadFile path read cartridge).result := by
  cases read with
  | contents image =>
    rw [result_loadFile hon]
    exact timely_load hon image
  | missing | failed =>
    unfold loadFile
    rw [requireOn, Action.require_bind_of_true _ _ hon]
    rfl

theorem timely_request (hon : cartridge.isOn = true) {request : Request}
    (hp : request ≠ .powerOn) : Timely (request.action cartridge).result := by
  cases request with
  | powerOn => exact absurd rfl hp
  | powerOff =>
    cases cartridge with
    | off => cases hon
    | empty | loaded image => trivial
  | unload =>
    cases cartridge with
    | off => cases hon
    | empty => rfl
    | loaded image => trivial
  | size =>
    cases cartridge with
    | off => cases hon
    | empty | loaded image => trivial
  | load image => exact Timely.answered (timely_load hon image)
  | loadFile path read => exact Timely.answered (timely_loadFile hon path read)
  | header => exact Timely.answered ((timely_image hon).bind timely_parse)
  | programBank index =>
    exact Timely.answered ((timely_image hon).bind fun image => timely_programBank image index)
  | characterBank index =>
    exact Timely.answered ((timely_image hon).bind fun image => timely_characterBank image index)

theorem request_off {request : Request} (hp : request ≠ .powerOn) :
    request.action off = ⟨.error (.uninitialized .rom), off, []⟩ := by
  cases request with
  | powerOn => exact absurd rfl hp
  | _ => rfl

theorem guarded_request (cartridge : Cartridge) (request : Request) :
    (request.action cartridge).Guarded .rom cartridge.isOn (request = .powerOn) none cartridge := by
  refine Outcome.guarded_of_times ?_ ?_ ?_
  · intro hoff hp
    cases cartridge with
    | off => exact ⟨request_off hp, rfl⟩
    | empty | loaded image => cases hoff
  · rintro hon rfl
    cases cartridge with
    | off => cases hon
    | empty | loaded image => exact ⟨rfl, rfl⟩
  · rintro hright -
    cases hison : cartridge.isOn with
    | true => exact timely_request hison (hright.mp hison)
    | false =>
      cases cartridge with
      | off =>
        obtain rfl : request = .powerOn := by simpa [isOn] using hright
        trivial
      | empty | loaded image => cases hison

end Cartridge

/-! ## The processor -/

namespace Exchange

variable {α : Type} {bus : Type} [Bus bus]

/-- The contract of work whose own refusals are timely. -/
def timelyWork : Contract α where
  returns _ _ := True
  refuses fault _ := fault.isLifecycle = false
  cut _ := True

theorem Fulfils.timely {e : Exchange α} (h : e.Fulfils timelyWork) {b : bus}
    (hown : e.refusal b = none) : Timely (e.run b).result := by
  rcases h.refusal_cases b with ⟨-, hends⟩ | ⟨fault, hrefused, -⟩
  · cases hresult : (e.run b).result with
    | ok value => trivial
    | error fault => exact hends.of_error hresult
  · rw [hown] at hrefused
    cases hrefused

end Exchange

namespace Cpu

open Exchange

theorem timely_of_retaining {α : Type} {cpu start : Cpu} {routine : Routine α}
    {ends : α → Cpu → Prop} (h : (routine cpu).Fulfils (.retaining start ends)) (f : α → Answer) :
    ((routine >>= fun value => pure (f value)) cpu).Fulfils timelyWork :=
  Routine.fulfils_bind_retaining h (fun _ _ => trivial) fun _ _ _ => trivial

theorem timely_tentative {α : Type} {cpu : Cpu} (hon : cpu.isOn = true) {routine : Routine α}
    (h : Routine.Tentative (fun _ => True) routine) (f : α → Answer) :
    ((routine >>= fun value => pure (f value)) cpu).Fulfils timelyWork :=
  timely_of_retaining (h.fulfils (.refl cpu) hon) f

/-- **A processor that is on** has no reason of its own to refuse but an undocumented opcode, unless
it is switched on again. -/
theorem timely_request {cpu : Cpu} (hon : cpu.isOn = true) {request : Request}
    (hp : request ≠ .powerOn) : (request.routine cpu).Fulfils timelyWork := by
  cases request with
  | powerOn => exact absurd rfl hp
  | powerOff | clear =>
    obtain ⟨r, cycles, _⟩ := cpu
    subst hon
    trivial
  | setRegisters f => trivial
  | reset => exact timely_of_retaining (Routine.fulfils_reset hon) _
  | irq => exact timely_of_retaining (Routine.fulfils_irq hon) _
  | nmi => exact timely_of_retaining (Routine.fulfils_nmi hon) _
  | returnFromInterrupt => exact timely_tentative hon Routine.tentative_returnFromInterrupt _
  | load address => exact timely_tentative hon (.load address) _
  | loadWord address => exact timely_tentative hon (Routine.tentative_loadWord address) _
  | store address value => exact timely_tentative hon (.store address value) _
  | storeWord address value =>
    exact timely_tentative hon (Routine.tentative_storeWord address value) _
  | push value => exact timely_tentative hon (Routine.tentative_push value) _
  | pop => exact timely_tentative hon Routine.tentative_pop _
  | pushWord value => exact timely_tentative hon (Routine.tentative_pushWord value) _
  | popWord => exact timely_tentative hon Routine.tentative_popWord _
  | step =>
    refine (Routine.fulfils_bind _ _ _).mpr
      (Exchange.Fulfils.mono ?_ ?_ ?_ (Routine.fulfils_step hon))
    · exact fun _ _ _ => trivial
    · rintro fault later ⟨⟨opcode, rfl⟩, -⟩
      rfl
    · exact fun _ _ => trivial

theorem powerOn_again {cpu : Cpu} (hon : cpu.isOn = true) :
    Request.powerOn.routine cpu = .done cpu (.error (.alreadyInitialized .cpu)) := by
  obtain ⟨r, cycles, _⟩ := cpu
  subst hon
  rfl

theorem timely_powerOn {cpu : Cpu} (hoff : cpu.isOn = false) :
    (Request.powerOn.routine cpu).Fulfils timelyWork := by
  obtain ⟨r, cycles, _⟩ := cpu
  subst hoff
  trivial

/-- **At the wrong time nothing is asked of the bus**: the work is a refusal and nothing else. -/
theorem misused_routine {cpu : Cpu} {request : Request} (hs : ∀ f, request ≠ .setRegisters f)
    (h : cpu.isOn = false ∧ request ≠ .powerOn ∨ cpu.isOn = true ∧ request = .powerOn) :
    ∃ fault, request.routine cpu = .done cpu (.error fault) := by
  rcases h with ⟨hoff, hp⟩ | ⟨hon, rfl⟩
  · exact ⟨_, request_off hoff hp hs⟩
  · exact ⟨_, powerOn_again hon⟩

theorem guarded_request {bus : Type} [Bus bus] (b : bus) (cpu : Cpu) {request : Request}
    (hs : ∀ f, request ≠ .setRegisters f) :
    (request.routine.run (cpu, b)).Guarded .cpu cpu.isOn (request = .powerOn)
      ((request.routine cpu).refusal b) (cpu, b) := by
  refine Outcome.guarded_of_times ?_ ?_ ?_
  · intro hoff hp
    rw [Routine.run, request_off hoff hp hs]
    exact ⟨rfl, rfl⟩
  · rintro hon rfl
    rw [Routine.run, powerOn_again hon]
    exact ⟨rfl, rfl⟩
  · intro hright hown
    cases hison : cpu.isOn with
    | true => exact (timely_request hison (hright.mp hison)).timely hown
    | false =>
      obtain rfl : request = .powerOn := by simpa [hison] using hright
      exact (timely_powerOn hison).timely hown

/-- On a bus that never gives the processor's faults, all of them are the processor's own. -/
theorem guarded_request_of_bus {bus : Type} [Bus bus]
    (hbus : ∀ fault, Bus.Gives bus fault →
      fault ≠ .uninitialized .cpu ∧ fault ≠ .alreadyInitialized .cpu)
    (b : bus) (cpu : Cpu) {request : Request} (hs : ∀ f, request ≠ .setRegisters f) :
    (request.routine.run (cpu, b)).Guarded .cpu cpu.isOn (request = .powerOn) none (cpu, b) := by
  refine (guarded_request b cpu hs).own fun fault hrefused => ?_
  obtain ⟨hresult, hgiven⟩ := result_of_refusal hrefused
  exact ⟨hresult, hbus fault hgiven⟩

end Cpu

/-! ## All three components -/

/-- **The faults of the lifecycle are exact, and they come before anything else.**

Every operation on a memory, a slot or a processor, with whatever arguments and in whatever state,
refuses because the component is off if and only if it is off and the operation does not switch it
on, and refuses because the component is on if and only if it is on and the operation switches it
on. In both cases the component is as it was.

The processor's part holds on every bus. What it refuses at the wrong time it refuses without an
access, and the bus is as it was as well; and a bus that gives the same fault by itself is told from
the processor. Memory and probes never do. -/
theorem lifecycle_faults_are_exact :
    (∀ (memory : Memory) (request : Memory.Request),
      (request.action memory).Guarded .memory memory.isOn (request = .powerOn) none memory) ∧
    (∀ (memory : Memory) (address length : Nat) (change : UInt8 → UInt8),
      (Memory.alter address change memory).Guarded .memory memory.isOn False none memory ∧
      (Action.ask (·.cellText address) memory).Guarded .memory memory.isOn False none memory ∧
      (Action.ask (·.blockText address length) memory).Guarded .memory memory.isOn False none
        memory) ∧
    (∀ (cartridge : Cartridge) (request : Cartridge.Request),
      (request.action cartridge).Guarded .rom cartridge.isOn (request = .powerOn) none cartridge) ∧
    (∀ (cpu : Cpu) (request : Cpu.Request), (∀ f, request ≠ .setRegisters f) →
      (∀ (bus : Type) [Bus bus] (b : bus),
        (request.routine.run (cpu, b)).Guarded .cpu cpu.isOn (request = .powerOn)
          ((request.routine cpu).refusal b) (cpu, b)) ∧
      (cpu.isOn = false ∧ request ≠ .powerOn ∨ cpu.isOn = true ∧ request = .powerOn →
        ∃ fault, request.routine cpu = .done cpu (.error fault)) ∧
      (∀ memory : Memory, (request.routine.run (cpu, memory)).Guarded .cpu cpu.isOn
        (request = .powerOn) none (cpu, memory)) ∧
      (∀ probe : Probe, (request.routine.run (cpu, probe)).Guarded .cpu cpu.isOn
        (request = .powerOn) none (cpu, probe))) := by
  refine ⟨Memory.guarded_request, ?_, Cartridge.guarded_request, ?_⟩
  · intro memory address length change
    exact ⟨Memory.guarded_alter address change memory, Memory.guarded_cellText address memory,
      Memory.guarded_blockText address length memory⟩
  · intro cpu request hs
    refine ⟨fun bus _ b => Cpu.guarded_request b cpu hs, Cpu.misused_routine hs, fun memory => ?_,
      fun probe => ?_⟩
    · refine Cpu.guarded_request_of_bus (fun fault hgiven => ?_) memory cpu hs
      obtain rfl := Memory.gives hgiven
      exact ⟨by simp, by simp⟩
    · refine Cpu.guarded_request_of_bus (fun fault hgiven => ?_) probe cpu hs
      obtain ⟨address, rfl⟩ := Probe.gives hgiven
      exact ⟨by simp, by simp⟩

/-- A processor that is off, and that would not serve a maskable signal if it were on. -/
def deafCpu : Cpu := ⟨{ Registers.powerOn with p := .ofByte 0 }, 0, false⟩

/-- The signal is refused because the processor is off, and not passed over. -/
theorem lifecycle_of_deafCpu :
    (∀ f, Cpu.Request.irq ≠ .setRegisters f) ∧
    (let outcome := Cpu.Request.irq.routine.run (deafCpu, Probe.ofRam .zeros)
     outcome.result = .error (.uninitialized .cpu) ∧
       outcome.state = (deafCpu, Probe.ofRam .zeros)) := by
  have hs (f : Registers → Registers) : Cpu.Request.irq ≠ .setRegisters f := by simp
  obtain ⟨-, -, -, hcpu⟩ := lifecycle_faults_are_exact
  have hguarded := (hcpu deafCpu .irq hs).2.2.2 (Probe.ofRam .zeros)
  have hwrong : deafCpu.isOn = false ∧ Cpu.Request.irq ≠ .powerOn := ⟨rfl, by simp⟩
  exact ⟨hs, (hguarded.uninitialized.mpr hwrong).1, hguarded.unchanged (.inl hwrong)⟩

end NesMachine
