import NesMachine.Proofs.Console.Tracing
import NesMachine.Session.Plain

/-!
# `NesMachine/Proofs/Session/Phases.lean` — what a caller can tell from the codes

A caller of a session sees codes and no console. What a call will answer depends on very little:
whether the console is off, on without an image, or on with one, and the step limit. That is the
session's `View`, and `View.Answers` says what each call answers in it and where it leads. It is a
machine of three phases, and it is deterministic except for a run of a loaded program.

That no other code can come is not read off the codes of the faults, because a run could fail for
many reasons if the parts of the console were not on together. They always are, as calls on a
session keep its console coherent (`coherent_reply`).
-/

set_option autoImplicit false

namespace NesMachine

open Image (Accepted Bootable)
open Console (Coherent Faces afterSteps isOn_afterSteps cartridge_afterSteps)

theorem ResultCode.ofFault_of_blamesImage {fault : Fault} (h : fault.blamesImage = true) :
    ofFault fault = failure := by
  cases fault with
  | malformed defect => rfl
  | unsupported feature => rfl
  | _ => cases h

namespace Session

/-! ## Calls -/

/-- A call on a session. The step limit may be given as a number of any type. -/
inductive Call (limit : Type) where
  | powerOn
  | powerOff
  | load (image : Array UInt8)
  | setStepLimit (steps : limit)
  | run (debug listened : Bool)

def Call.map {limit limit' : Type} (f : limit → limit') : Call limit → Call limit'
  | powerOn => powerOn
  | powerOff => powerOff
  | load image => load image
  | setStepLimit steps => setStepLimit (f steps)
  | run debug listened => run debug listened

def Call.reply : Call Nat → Session → Reply Session ResultCode
  | powerOn => Session.powerOn
  | powerOff => Session.powerOff
  | load image => Session.load image
  | setStepLimit steps => Session.setStepLimit steps
  | run debug listened => Session.run debug listened

def Call.plainReply : Call UInt32 → PlainSession → Reply PlainSession Int
  | powerOn => PlainSession.powerOn
  | powerOff => PlainSession.powerOff
  | load image => PlainSession.load image
  | setStepLimit steps => PlainSession.setStepLimit steps
  | run debug listened => PlainSession.run debug listened

def afterCalls : List (Call Nat) → Session → Session
  | [], session => session
  | call :: calls, session => afterCalls calls (call.reply session).state

theorem afterCalls_append (calls : List (Call Nat)) (call : Call Nat) (session : Session) :
    afterCalls (calls ++ [call]) session = (call.reply (afterCalls calls session)).state := by
  induction calls generalizing session with
  | nil => rfl
  | cons first calls ih => exact ih (first.reply session).state

/-- What each of the calls answers, one after another. -/
def codes : List (Call Nat) → Session → List ResultCode
  | [], _ => []
  | call :: calls, session => (call.reply session).code :: codes calls (call.reply session).state

def plainCodes : List (Call UInt32) → PlainSession → List Int
  | [], _ => []
  | call :: calls, plain =>
    (call.plainReply plain).code :: plainCodes calls (call.plainReply plain).state

theorem plainReply_eq (call : Call UInt32) (session : Session) :
    let reply := (call.map UInt32.toNat).reply session
    call.plainReply ⟨session⟩ = ⟨reply.code.toInt, ⟨reply.state⟩, reply.log⟩ := by
  cases call <;> rfl

/-- Plain sessions answer the same codes, as numbers. -/
theorem plainCodes_eq (calls : List (Call UInt32)) (session : Session) :
    plainCodes calls ⟨session⟩
      = (codes (calls.map fun call => call.map UInt32.toNat) session).map ResultCode.toInt := by
  induction calls generalizing session with
  | nil => rfl
  | cons call calls ih =>
    rw [plainCodes, plainReply_eq, ih]
    rfl

/-! ## The machine of three phases -/

inductive Phase where
  | off
  | empty
  | loaded
  deriving DecidableEq

/-- What a caller has to know of a session. -/
structure View where
  phase : Phase
  stepLimit : Nat

def phase (console : Console) : Phase :=
  if console.isOn then if console.cartridge.isLoaded then .loaded else .empty else .off

def view (session : Session) : View := ⟨phase session.console, session.stepLimit⟩

/-- What a call may answer, and the view afterwards. -/
inductive View.Answers : View → Call Nat → ResultCode → View → Prop where
  | powerOn {view : View} (h : view.phase = .off) :
    Answers view .powerOn .success { view with phase := .empty }
  | powerOn_again {view : View} (h : view.phase ≠ .off) : Answers view .powerOn .invalidState view
  | powerOff {view : View} (h : view.phase ≠ .off) :
    Answers view .powerOff .success { view with phase := .off }
  | powerOff_again {view : View} (h : view.phase = .off) : Answers view .powerOff .invalidState view
  | load_nothing (view : View) : Answers view (.load #[]) .invalidArgument view
  | load_off {view : View} {image : Array UInt8} (h : view.phase = .off) (hn : image ≠ #[]) :
    Answers view (.load image) .invalidState view
  | load_bootable {view : View} {image : Array UInt8} (h : view.phase ≠ .off)
    (hb : Bootable image) : Answers view (.load image) .success { view with phase := .loaded }
  | load_rejected {view : View} {image : Array UInt8} (h : view.phase ≠ .off) (hn : image ≠ #[])
    (ha : ¬ Accepted image) : Answers view (.load image) .failure view
  | load_unmappable {view : View} {image : Array UInt8} (h : view.phase ≠ .off)
    (ha : Accepted image) (hb : ¬ Bootable image) :
    Answers view (.load image) .failure { view with phase := .empty }
  | setStepLimit_zero (view : View) : Answers view (.setStepLimit 0) .invalidArgument view
  | setStepLimit (view : View) {steps : Nat} (h : steps ≠ 0) :
    Answers view (.setStepLimit steps) .success { view with stepLimit := steps }
  | run_unloaded {view : View} {debug listened : Bool} (h : view.phase ≠ .loaded) :
    Answers view (.run debug listened) .invalidState view
  | run_done {view : View} {debug listened : Bool} (h : view.phase = .loaded) :
    Answers view (.run debug listened) .success view
  | run_refused {view : View} {debug listened : Bool} (h : view.phase = .loaded) :
    Answers view (.run debug listened) .invalidArgument view

/-- **What a call answers is decided by the view**, except for a run of a loaded program; and where
it leads is decided even then. -/
theorem View.Answers.unique {view later later' : View} {call : Call Nat} {code code' : ResultCode}
    (h : view.Answers call code later) (h' : view.Answers call code' later') :
    later = later' ∧
      ((∀ debug listened, call = .run debug listened → view.phase ≠ .loaded) → code = code') := by
  have hempty : ¬ Accepted #[] := fun ha => absurd ha.long (by decide)
  have hnothing : ¬ Bootable #[] := fun hb => hempty hb.toAccepted
  have haccepted {image : Array UInt8} (hb : Bootable image) : Accepted image := hb.toAccepted
  -- Two rules for one call exclude each other by what they ask of the phase or of the image.
  cases h <;> cases h' <;> simp_all

/-- The calls are answered with these codes, and lead from the first view to the last. -/
inductive View.Follows : View → List (Call Nat) → List ResultCode → View → Prop where
  | nil (view : View) : Follows view [] [] view
  | cons {first second last : View} {call : Call Nat} {calls : List (Call Nat)} {code : ResultCode}
    {codes : List ResultCode} (h : first.Answers call code second)
    (hr : second.Follows calls codes last) : Follows first (call :: calls) (code :: codes) last

/-! ## Doing something to the console -/

section

variable {α : Type} {action : Action Console α} {session : Session}

theorem state_perform (action : Action Console α) (session : Session) :
    (perform action session).state = ⟨(action session.console).state, session.stepLimit⟩ := by
  obtain ⟨console, stepLimit⟩ := session
  rw [perform]
  generalize action console = outcome
  obtain ⟨_ | _, later, log⟩ := outcome <;> rfl

/-- What a call on the console answers is decided by how the console ends. -/
theorem answers_perform {call : Call Nat}
    (h : (action session.console).Ends
      (fun _ later => session.view.Answers call .success ⟨phase later, session.stepLimit⟩)
      (fun fault later => session.view.Answers call (.ofFault fault)
        ⟨phase later, session.stepLimit⟩)) :
    session.view.Answers call (perform action session).code
      (perform action session).state.view := by
  obtain ⟨console, stepLimit⟩ := session
  rw [perform]
  generalize action console = outcome at h ⊢
  obtain ⟨_ | _, later, log⟩ := outcome
  · exact h
  · exact h

end

/-! ## Phases of a coherent console -/

section

variable {console : Console}

theorem phase_off (hoff : console.isOn = false) : phase console = .off := by
  rw [phase, hoff]
  rfl

theorem phase_ne_off (hon : console.isOn = true) : phase console ≠ .off := by
  rw [phase, hon, if_pos rfl]
  split <;> decide

theorem phase_loaded (hon : console.isOn = true) (hloaded : console.cartridge.isLoaded = true) :
    phase console = .loaded := by
  rw [phase, hon, hloaded]
  rfl

theorem phase_ne_loaded (hloaded : console.cartridge.isLoaded = false) :
    phase console ≠ .loaded := by
  rw [phase, hloaded]
  cases console.isOn <;> decide

theorem isOn_of_phase (h : phase console ≠ .off) : console.isOn = true := by
  cases hon : console.isOn with
  | true => rfl
  | false => exact absurd (phase_off hon) h

theorem isOff_of_phase (h : phase console = .off) : console.isOn = false := by
  cases hon : console.isOn with
  | false => rfl
  | true => exact absurd h (phase_ne_off hon)

theorem isLoaded_of_phase (h : phase console = .loaded) : console.cartridge.isLoaded = true := by
  cases hloaded : console.cartridge.isLoaded with
  | true => rfl
  | false => exact absurd h (phase_ne_loaded hloaded)

theorem isOn_of_loaded (h : Coherent console) (hloaded : console.cartridge.isLoaded = true) :
    console.isOn = true := by
  rw [← h.slot]
  cases hc : console.cartridge with
  | loaded image => rfl
  | _ => rw [hc] at hloaded; cases hloaded

end

/-! ## What each call answers -/

theorem answers_setStepLimit (session : Session) (steps : Nat) :
    session.view.Answers (.setStepLimit steps) (setStepLimit steps session).code
      (setStepLimit steps session).state.view := by
  cases steps with
  | zero => exact .setStepLimit_zero session.view
  | succ steps => exact .setStepLimit session.view (Nat.succ_ne_zero steps)

section

variable {session : Session} (h : Coherent session.console)
include h

theorem answers_powerOn :
    session.view.Answers .powerOn (powerOn session).code (powerOn session).state.view := by
  obtain ⟨console, limit⟩ := session
  cases hon : console.isOn with
  | false =>
    obtain ⟨⟨r, cycles, _⟩, hcpu, rfl⟩ := h.exists_off hon
    cases hcpu
    exact .powerOn rfl
  | true =>
    have hphase := phase_ne_off hon
    obtain ⟨ram, cpu, cartridge, -, -, rfl⟩ := h.exists_on hon
    exact .powerOn_again hphase

theorem answers_powerOff :
    session.view.Answers .powerOff (powerOff session).code (powerOff session).state.view := by
  refine answers_perform ?_
  cases hon : session.console.isOn with
  | false =>
    rw [Console.powerOff, Console.requireOn, Action.require_bind_of_false _ _ hon]
    exact .powerOff_again (phase_off hon)
  | true =>
    refine (Console.ends_powerOff h hon).mono ?_ fun _ _ hf => hf.elim
    rintro _ later ⟨-, hoff⟩
    rw [phase_off hoff]
    exact .powerOff (phase_ne_off hon)

theorem answers_load (image : Array UInt8) :
    session.view.Answers (.load image) (load image session).code
      (load image session).state.view := by
  by_cases hn : image = #[]
  · cases hn
    exact .load_nothing session.view
  · rw [load, if_neg (by simpa using hn)]
    refine answers_perform ?_
    cases hon : session.console.isOn with
    | false =>
      rw [Console.load, Console.requireOn, Action.require_bind_of_false _ _ hon]
      exact .load_off (phase_off hon) hn
    | true =>
      have hphase : session.view.phase ≠ .off := phase_ne_off hon
      obtain ⟨ram, cpu, cartridge, hcpu, hslot, hc⟩ := h.exists_on hon
      rw [hc]
      refine (Console.ends_load_blaming ram hcpu hslot image).mono ?_ ?_
      · rintro _ later ⟨hb, rfl⟩
        exact .load_bootable hphase hb
      · rintro fault later ⟨hblame, hb, hrejected, hunloaded⟩
        rw [ResultCode.ofFault_of_blamesImage hblame]
        by_cases ha : Accepted image
        · rw [hunloaded ha]
          exact .load_unmappable hphase ha hb
        · rw [hrejected ha, ← hc]
          exact .load_rejected hphase hn ha

theorem answers_run (debug listened : Bool) :
    session.view.Answers (.run debug listened) (run debug listened session).code
      (run debug listened session).state.view := by
  rw [run]
  cases hloaded : session.console.cartridge.isLoaded with
  | false => exact .run_unloaded (phase_ne_loaded hloaded)
  | true =>
    have hon := isOn_of_loaded h hloaded
    have hphase : session.view.phase = .loaded := phase_loaded hon hloaded
    refine answers_perform ?_
    -- A run changes neither the switch nor the slot, so the phase is the same after it.
    have hview {later : Console} {count : Nat} (hl : later = afterSteps count session.console) :
        (⟨phase later, session.stepLimit⟩ : View) = session.view := by
      rw [hl, view, phase, phase, isOn_afterSteps, cartridge_afterSteps]
    refine (h.ends_run_steps hon _ listened session.stepLimit).mono ?_ ?_
    · rintro summary later ⟨count, -, hl, -, -⟩
      rw [hview hl]
      exact .run_done hphase
    · rintro fault later ⟨⟨opcode, address, rfl, -⟩, count, -, hl, -⟩
      rw [hview hl]
      exact .run_refused hphase

end

/-! ## Whole sessions -/

theorem coherent_reply (call : Call Nat) {session : Session} (h : Coherent session.console) :
    Coherent (call.reply session).state.console := by
  have hrequest {α : Type} (action : Action Console α)
      (request : Console.Request Ram) (hs : request.switchesPart = false)
      (hafter : request.after session.console = (action session.console).state) :
      Coherent (perform action session).state.console := by
    rw [state_perform, ← hafter]
    exact Console.coherent_after hs h
  cases call with
  | powerOn => exact hrequest Console.powerOn .powerOn rfl rfl
  | powerOff => exact hrequest Console.powerOff .powerOff rfl rfl
  | load image =>
    show Coherent (load image session).state.console
    rw [load]
    split
    · exact h
    · exact hrequest (Console.load image) (.load image) rfl rfl
  | setStepLimit steps =>
    show Coherent (setStepLimit steps session).state.console
    rw [setStepLimit]
    split
    · exact h
    · exact h
  | run debug listened =>
    show Coherent (run debug listened session).state.console
    rw [run]
    split
    · exact hrequest _ (.run _ listened session.stepLimit) rfl rfl
    · exact h

theorem answers_reply (call : Call Nat) {session : Session} (h : Coherent session.console) :
    session.view.Answers call (call.reply session).code (call.reply session).state.view := by
  cases call with
  | powerOn => exact answers_powerOn h
  | powerOff => exact answers_powerOff h
  | load image => exact answers_load h image
  | setStepLimit steps => exact answers_setStepLimit session steps
  | run debug listened => exact answers_run h debug listened

theorem follows_calls (calls : List (Call Nat)) {session : Session}
    (h : Coherent session.console) :
    session.view.Follows calls (codes calls session) (afterCalls calls session).view ∧
      Coherent (afterCalls calls session).console := by
  induction calls generalizing session with
  | nil => exact ⟨.nil session.view, h⟩
  | cons call calls ih =>
    obtain ⟨hrest, hc⟩ := ih (coherent_reply call h)
    exact ⟨.cons (answers_reply call h) hrest, hc⟩

/-! ## What a call leaves alone -/

section

variable {session : Session}

theorem state_of_invalidState (h : Coherent session.console) {call : Call Nat}
    (hcode : (call.reply session).code = .invalidState) : (call.reply session).state = session := by
  have ha := answers_reply call h
  rw [hcode] at ha
  generalize (call.reply session).state.view = later at ha
  cases ha with
  | powerOn_again hphase =>
    have hon := isOn_of_phase hphase
    show (perform Console.powerOn session).state = session
    rw [state_perform, Console.powerOn, Action.require_bind_of_false _ _ (by simp [hon])]
  | powerOff_again hphase =>
    have hoff := isOff_of_phase hphase
    show (perform Console.powerOff session).state = session
    rw [state_perform, Console.powerOff, Console.requireOn, Action.require_bind_of_false _ _ hoff]
  | @load_off image hphase hn =>
    have hoff := isOff_of_phase hphase
    show (load image session).state = session
    rw [load, if_neg (by simpa using hn), state_perform, Console.load, Console.requireOn,
      Action.require_bind_of_false _ _ hoff]
  | @run_unloaded debug listened hphase =>
    show (run debug listened session).state = session
    cases hloaded : session.console.cartridge.isLoaded with
    | true => exact absurd (phase_loaded (isOn_of_loaded h hloaded) hloaded) hphase
    | false =>
      rw [run, hloaded]
      rfl

theorem state_of_rejected (h : Coherent session.console) {image : Array UInt8}
    (ha : ¬ Accepted image) : (load image session).state = session := by
  have hstate : (Console.load image session.console).state = session.console := by
    cases hon : session.console.isOn with
    | false => rw [Console.load, Console.requireOn, Action.require_bind_of_false _ _ hon]
    | true =>
      obtain ⟨ram, cpu, cartridge, hcpu, hslot, hc⟩ := h.exists_on hon
      rw [hc]
      refine Outcome.Ends.state (P := fun later => later = ⟨.on ram, cpu, cartridge, true⟩)
        ((Console.ends_load_blaming ram hcpu hslot image).mono ?_ ?_)
      · rintro _ later ⟨hboot, -⟩
        exact absurd hboot.toAccepted ha
      · rintro fault later ⟨-, -, hrejected, -⟩
        exact hrejected ha
  rw [load]
  split
  · rfl
  · rw [state_perform, hstate]

/-- A run of a loaded program does no more instructions than the step limit allows. -/
theorem state_run (h : Coherent session.console) (hphase : session.view.phase = .loaded)
    (debug listened : Bool) :
    ∃ count ≤ session.stepLimit,
      (run debug listened session).state
        = ⟨afterSteps count session.console, session.stepLimit⟩ ∧
      Console.Done session.console count ∧
      ((run debug listened session).code = .success →
        count = session.stepLimit ∨ Console.Stands session.console count) ∧
      ((run debug listened session).code = .invalidArgument → count < session.stepLimit ∧
        ∃ opcode address, Faces (run debug listened session).state.console opcode address) := by
  have hloaded := isLoaded_of_phase hphase
  have hends := h.ends_run_steps (isOn_of_loaded h hloaded) (if debug then .debug else .normal)
    listened session.stepLimit
  obtain ⟨console, limit⟩ := session
  rw [run, if_pos hloaded, perform]
  generalize Console.run _ listened limit console = outcome at hends ⊢
  obtain ⟨fault | summary, later, log⟩ := outcome
  · obtain ⟨⟨opcode, address, rfl, hfaces⟩, count, hlt, rfl, hd⟩ := hends
    refine ⟨count, Nat.le_of_lt hlt, rfl, hd, ?_, fun _ => ⟨hlt, opcode, address, hfaces⟩⟩
    intro hcode
    cases hcode
  · obtain ⟨count, hle, rfl, hd, hstops⟩ := hends
    refine ⟨count, hle, rfl, hd, fun _ => hstops, ?_⟩
    intro hcode
    cases hcode

end

/-- Calls that make a session ready for an image, two of them at the wrong time. -/
def readyCalls : List (Call Nat) :=
  [.setStepLimit 0, .run false false, .powerOn, .setStepLimit 5]

end Session

end NesMachine
