import NesMachine.CommandLine.Report
import NesMachine.Proofs.Console.Clock
import NesMachine.Proofs.Console.Switching
import NesMachine.Proofs.Console.Tracing
import NesMachine.Proofs.Exchange.Bare

/-!
# `NesMachine/Proofs/CommandLine/Report.lean` — what the program reports

The program runs a cartridge file on a console of its own. `RunsTo` says what that comes to without
the program: a new console takes the image, and a plain run returns. The program reports such a run
in one line, shows the console if it was asked to, and ends well; anything else it reports with its
exit code and with nothing else. `Reported` says this of a report, and leaves nothing open that can
be seen of it (`Reported.unique`).

Two things could spoil this. A debug run makes trace lines, which can be refused, and the console
is switched off at the end, which can be refused as well. Neither happens, because the console has
never been in anybody else's hands, and so it is coherent.
-/

set_option autoImplicit false

namespace NesMachine

/-! ## Loading from a file -/

namespace Cartridge

/-- What has been read from a file is loaded as it would be by itself, after a line in the log. -/
theorem loadFile_contents {cartridge : Cartridge} (hon : cartridge.isOn = true) (path : String)
    (image : Array UInt8) :
    ∃ entry, loadFile path (.contents image) cartridge = (load image cartridge).after [entry] := by
  unfold loadFile
  rw [requireOn, Action.require_bind_of_true _ _ hon]
  exact ⟨_, rfl⟩

end Cartridge

namespace Console

theorem loadFile_contents {console : Console} (hon : console.isOn = true)
    (hslot : console.cartridge.isOn = true) (path : String) (image : Array UInt8) :
    ∃ entry, loadFile path (.contents image) console = (load image console).after [entry] := by
  obtain ⟨entry, hentry⟩ := Cartridge.loadFile_contents hslot path image
  refine ⟨entry, ?_⟩
  rw [loadFile, load, requireOn_bind hon, requireOn_bind hon, Action.bind_apply, Action.bind_apply,
    onCartridge, onCartridge, hentry, Outcome.within_after]
  exact Outcome.andThen_after _ _ _

/-! ## A run on a new console -/

/-- A new console that has been switched on. -/
def fresh : Console := (powerOn .off).state

theorem coherent_fresh : Coherent fresh := coherent_powerOn coherent_off

/-- A new console takes the image, and a plain run of at most `budget` instructions returns the
summary and leaves the console as it is `later`. -/
structure RunsTo (image : Array UInt8) (budget : Nat) (summary : RunSummary) (later : Console) :
    Prop where
  loaded : (load image fresh).result = .ok ()
  ran : (run .normal false budget (load image fresh).state).result = .ok summary
  left : later = (run .normal false budget (load image fresh).state).state

variable {image : Array UInt8} {budget : Nat} {summary : RunSummary} {later : Console}

theorem RunsTo.unique (h : RunsTo image budget summary later) {summary' : RunSummary}
    {later' : Console} (h' : RunsTo image budget summary' later') :
    summary' = summary ∧ later' = later :=
  ⟨Except.ok.inj (h'.ran.symm.trans h.ran), h'.left.trans h.left.symm⟩

/-- The counts of a run are small enough for the words that hold them. -/
theorem RunsTo.counts (h : RunsTo image budget summary later) :
    summary.steps ≤ budget ∧ summary.cycles ≤ 7 * budget := by
  obtain ⟨left, hcounted⟩ := (ends_run_counted _ _ _ _).of_ok h.ran
  have hbudget := hcounted.budget
  have hmost := hcounted.most
  omega

/-- Whether the new console has taken the image or not, it is as it should be. -/
theorem coherent_loaded (image : Array UInt8) : Coherent (load image fresh).state :=
  (coherent_after rfl coherent_fresh : Coherent ((.load image : Request Ram).after fresh))

theorem isOn_loaded (image : Array UInt8) : (load image fresh).state.isOn = true := by
  have hpower : ((.load image : Request Ram).after fresh).power = fresh.power :=
    power_after rfl fresh
  exact congrArg Prod.fst hpower

/-- The mode of the run does not matter, nor who reads its log. -/
theorem run_loaded (mode : RunMode) (listened : Bool) (image : Array UInt8) (budget : Nat) :
    let start := (load image fresh).state
    (run mode listened budget start).result = (run .normal false budget start).result ∧
      (run mode listened budget start).state = (run .normal false budget start).state := by
  have hon := isOn_loaded image
  have hmemory := (coherent_loaded image).memory.trans hon
  obtain ⟨hresult, hstate⟩ := run_eq_untraced hon hmemory mode listened budget
  obtain ⟨hresult', hstate'⟩ := run_eq_untraced hon hmemory .normal false budget
  exact ⟨hresult.trans hresult'.symm, hstate.trans hstate'.symm⟩

/-- The console that a run leaves can be switched off. -/
theorem RunsTo.powerOff (h : RunsTo image budget summary later) :
    (powerOff later).result = .ok () := by
  have hcoherent := (coherent_loaded image).ends_run (isOn_loaded image) .normal false budget
  obtain ⟨hlater, hon⟩ := hcoherent.of_ok h.ran
  rw [← h.left] at hlater hon
  obtain ⟨_, hresult, -⟩ := (ends_powerOff hlater hon).exists_ok
  exact hresult

/-- A new console takes the images that boot. -/
theorem ends_load_fresh (image : Array UInt8) :
    (load image fresh).Ends (fun _ later => Image.Bootable image ∧ later = booted image .zeros)
      (fun _ _ => ¬ Image.Bootable image) := by
  have hcpu : (⟨.powerOn, 0, true⟩ : Cpu).isOn = true := rfl
  have hslot : Cartridge.empty.isOn = true := rfl
  exact (ends_load .zeros hcpu hslot image).mono (fun _ _ h => h) fun _ _ h => h.1

theorem RunsTo.bootable (h : RunsTo image budget summary later) : Image.Bootable image :=
  ((ends_load_fresh image).of_ok h.loaded).1

/-- An image that boots does its first instruction if that is documented. -/
theorem exists_runsTo (hboot : Image.Bootable image)
    (hfirst : Instruction.decode ((Ram.zeros.withProgram image).read
      (Ram.zeros.withProgram image).resetTarget) ≠ none) :
    ∃ summary later, RunsTo image 1 summary later := by
  obtain ⟨_, hloaded, -, hstate⟩ := Outcome.Ends.exists_ok
    ((ends_load_fresh image).mono (fun _ _ h => h) fun _ _ h => h hboot)
  have hends := (coherent_loaded image).ends_run_steps (isOn_loaded image) .normal false 1
  cases hresult : (run .normal false 1 (load image fresh).state).result with
  | ok summary => exact ⟨summary, _, hloaded, hresult, rfl⟩
  | error fault =>
    obtain ⟨⟨opcode, address, -, hfaces⟩, count, hcount, hlater, -⟩ := hends.of_error hresult
    obtain rfl : count = 0 := by omega
    rw [hlater, hstate] at hfaces
    obtain ⟨-, -, hpc, hpeek, hundocumented⟩ := hfaces
    obtain rfl : (Ram.zeros.withProgram image).resetTarget = address := hpc
    obtain rfl : _ = opcode := Except.ok.inj ((Memory.peek_on _ _).symm.trans hpeek)
    exact absurd hundocumented hfirst

end Console

namespace CommandLine

open Console

variable {image : Array UInt8}

/-! ## The report on a run -/

/-- A run from a file prints a plain run on a new console, if there is one, and is refused
otherwise. -/
theorem ends_runCartridge (options : Options) (listened : Bool) (path : String)
    (image : Array UInt8) :
    (runCartridge options listened path (.contents image) .off).Ends
      (fun output later => ∃ summary, RunsTo image options.steps summary later ∧
        output = summaryText summary
          ++ (if options.dump then "\n" ++ later.render ++ "\n" else ""))
      (fun _ _ => ∀ summary later, ¬ RunsTo image options.steps summary later) := by
  have hnew : powerOn .off = ⟨.ok (), fresh, (powerOn .off).log⟩ := rfl
  obtain ⟨entry, hentry⟩ : ∃ entry, loadFile path (.contents image) fresh
      = (load image fresh).after [entry] := loadFile_contents rfl rfl path image
  rw [runCartridge, Action.ends_bind, hnew, Outcome.ends_ok, Action.ends_bind, hentry,
    Outcome.ends_after]
  refine Outcome.ends_iff.mpr ⟨?_, ?_⟩
  · intro _ hloaded
    rw [Action.ends_bind]
    obtain ⟨hresult, hstate⟩ := run_loaded (if options.debug then .debug else .normal) listened
      image options.steps
    refine Outcome.ends_iff.mpr ⟨?_, ?_⟩
    · intro summary hran
      exact ⟨summary, ⟨hloaded, hresult.symm.trans hran, hstate⟩, rfl⟩
    · intro fault hrefused summary later hruns
      rw [hresult, hruns.ran] at hrefused
      cases hrefused
  · intro fault hrefused summary later hruns
    rw [hruns.loaded] at hrefused
    cases hrefused

/-- The report on an image, after what has been printed before: on its run, if there is one, and of
a failure otherwise. -/
structure Reported (printed : String) (image : Array UInt8) (steps : Nat) (dump : Bool)
    (report : Report) : Prop where
  run : ∀ summary later, RunsTo image steps summary later → report.exitCode = 0 ∧
    report.output = printed ++ (summaryText summary
      ++ (if dump then "\n" ++ later.render ++ "\n" else ""))
  failure : (¬ ∃ summary later, RunsTo image steps summary later) →
    report.exitCode = failureCode ∧ report.output = printed

section

variable {printed : String} {steps : Nat} {dump : Bool} {report report' : Report}

theorem Reported.exitCode_iff (h : Reported printed image steps dump report) :
    report.exitCode = 0 ↔ ∃ summary later, RunsTo image steps summary later := by
  refine ⟨fun hzero => Classical.byContradiction fun hnone => ?_, ?_⟩
  · exact absurd ((h.failure hnone).1.symm.trans hzero) (by decide)
  · rintro ⟨summary, later, hruns⟩
    exact (h.run summary later hruns).1

/-- Nothing else can be seen of the report. -/
theorem Reported.unique (h : Reported printed image steps dump report)
    (h' : Reported printed image steps dump report') :
    report'.output = report.output ∧ report'.exitCode = report.exitCode := by
  by_cases hruns : ∃ summary later, RunsTo image steps summary later
  · obtain ⟨summary, later, hruns⟩ := hruns
    obtain ⟨hexit, houtput⟩ := h.run summary later hruns
    obtain ⟨hexit', houtput'⟩ := h'.run summary later hruns
    exact ⟨houtput'.trans houtput.symm, hexit'.trans hexit.symm⟩
  · obtain ⟨hexit, houtput⟩ := h.failure hruns
    obtain ⟨hexit', houtput'⟩ := h'.failure hruns
    exact ⟨houtput'.trans houtput.symm, hexit'.trans hexit.symm⟩

end

/-- A failure to switch off would be reported as well, after the run, but there is none. -/
theorem reported_cartridgeReport (options : Options) (listened : Bool) (path : String)
    (image : Array UInt8) :
    Reported "" image options.steps options.dump
      (cartridgeReport options listened path (.contents image)) := by
  have hends := ends_runCartridge options listened path image
  rw [cartridgeReport]
  generalize runCartridge options listened path (.contents image) .off = outcome at hends ⊢
  obtain ⟨fault | output, console, log⟩ := outcome
  · exact ⟨fun summary later h => absurd h (hends summary later), fun _ => ⟨rfl, rfl⟩⟩
  · obtain ⟨summary, hruns, rfl⟩ := hends
    have hoff := hruns.powerOff
    dsimp only
    generalize Console.powerOff console = last at hoff ⊢
    obtain ⟨result, state, more⟩ := last
    obtain rfl : result = .ok () := hoff
    refine ⟨?_, fun hnone => absurd ⟨summary, console, hruns⟩ hnone⟩
    intro summary' later' h'
    obtain ⟨rfl, rfl⟩ := hruns.unique h'
    exact ⟨rfl, String.empty_append.symm⟩

/-- With a cartridge and without checks, the report is that of the cartridge after the banner. -/
theorem reported_perform (options : Options) {path : String} {read : String → FileRead}
    (hrom : options.rom = some path) (htest : options.test = false)
    (hread : read path = .contents image) (listened : Bool) :
    Reported banner image options.steps options.dump (perform options listened read) := by
  have hpart := reported_cartridgeReport options listened path image
  rw [← hread] at hpart
  obtain ⟨rom, test, steps, debug, dump, verbose⟩ := options
  obtain rfl : rom = some path := hrom
  obtain rfl : test = false := htest
  constructor
  · intro summary later h
    obtain ⟨hexit, houtput⟩ := hpart.run summary later h
    refine ⟨hexit, (congrArg (banner ++ "" ++ ·) houtput).trans ?_⟩
    rw [String.append_empty, String.empty_append]
  · intro hnone
    obtain ⟨hexit, houtput⟩ := hpart.failure hnone
    refine ⟨hexit, (congrArg (banner ++ "" ++ ·) houtput).trans ?_⟩
    rw [String.append_empty, String.append_empty]

/-- **The program reports a plain run on a new console.**

The options name a cartridge file and a number of steps, and may ask for a debug run, a dump and a
longer log. If checks are not asked for and there is an image in the file, the program ends well
exactly if a new console takes the image and a plain run of that many steps returns. Then it prints
the banner, the counts of that run, which fit into sixty-four bits, and, if a dump is asked for, the
console as that run leaves it. Otherwise it fails, and has printed the banner alone.

So neither a debug run nor a longer log, nor who reads the log, changes what is printed or how the
program ends. -/
theorem report_of_run (path : String) (image : Array UInt8) (read : String → FileRead)
    (steps : Nat) (hread : read path = .contents image) (hsteps : steps ≤ 0xFFFFFFFFFFFFFFFF / 7)
    (debug dump verbose listened : Bool) :
    let report := perform { rom := some path, test := false, steps, debug, dump, verbose } listened
      read
    (report.exitCode = 0 ↔ ∃ summary later, RunsTo image steps summary later) ∧
    (∀ summary later, RunsTo image steps summary later →
      report.output = "nes-core " ++ version ++ "\n"
        ++ ("Ran " ++ toString summary.steps ++ " instructions (" ++ toString summary.cycles
          ++ " cycles)" ++ (if summary.halted then ", halted" else "") ++ "\n")
        ++ (if dump then "\n" ++ later.render ++ "\n" else "") ∧
      summary.steps ≤ 0xFFFFFFFFFFFFFFFF ∧ summary.cycles ≤ 0xFFFFFFFFFFFFFFFF) ∧
    ((¬ ∃ summary later, RunsTo image steps summary later) →
      report.exitCode = 255 ∧ report.output = "nes-core " ++ version ++ "\n") ∧
    ∀ debug' verbose' listened' : Bool,
      let other := perform
        { rom := some path, test := false, steps, debug := debug', dump, verbose := verbose' }
        listened' read
      other.output = report.output ∧ other.exitCode = report.exitCode := by
  intro report
  have hreported : Reported banner image steps dump report :=
    reported_perform ⟨some path, false, steps, debug, dump, verbose⟩ rfl rfl hread listened
  refine ⟨hreported.exitCode_iff, ?_, hreported.failure, ?_⟩
  · intro summary later hruns
    obtain ⟨-, houtput⟩ := hreported.run summary later hruns
    obtain ⟨hcount, hcycles⟩ := hruns.counts
    refine ⟨houtput.trans (String.append_assoc ..).symm, ?_, ?_⟩ <;> omega
  · intro debug' verbose' listened' other
    have hother : Reported banner image steps dump other :=
      reported_perform ⟨some path, false, steps, debug', dump, verbose'⟩ rfl rfl hread listened'
    exact hreported.unique hother

/-! ## A cartridge that does nothing -/

/-- Memory from $C000 on is all the instruction that does nothing. -/
theorem read_withProgram_nopImage (ram : Ram) {address : UInt16} (ha : 0xC000 ≤ address.toNat) :
    (ram.withProgram nopImage).read address = 0xEA := by
  have hlt := address.toNat_lt
  have hcell : _ = some ((ram.withProgram nopImage).read address) :=
    Ram.read_withProgram_upper bootable_nopImage (i := address.toNat - 0xC000) (by omega) (by omega)
  rw [Header.programStart_ofImage, Image.upperIndex, getD_nopImage (by decide),
    getD_nopImage (by decide)] at hcell
  have hbank : nopImage[16 + (address.toNat - 0xC000)]? = some 0xEA := by
    rw [nopImage, Array.getElem?_append_right (Nat.le_add_right 16 _)]
    simp only [Array.getElem?_replicate]
    rw [if_pos]
    show 16 + (address.toNat - 0xC000) - 16 < 16384
    omega
  exact Option.some.inj (hcell.symm.trans hbank)

theorem exists_runsTo_nopImage : ∃ summary later, RunsTo nopImage 1 summary later := by
  have htarget : (Ram.zeros.withProgram nopImage).resetTarget = 0xEAEA := by
    rw [Ram.resetTarget, read_withProgram_nopImage _ (by decide),
      read_withProgram_nopImage _ (by decide)]
    rfl
  refine exists_runsTo bootable_nopImage ?_
  rw [htarget, read_withProgram_nopImage _ (by decide)]
  decide

/-- A run of one instruction, with a trace of it and a dump. -/
def nopOptions : Options where
  rom := some "nop.nes"
  test := false
  steps := 1
  debug := true
  dump := true
  verbose := false

/-- The program does that instruction, and gives up if there is no image in the file. -/
theorem report_of_nopImage :
    1 ≤ 0xFFFFFFFFFFFFFFFF / 7 ∧
    (perform nopOptions true fun _ => .contents nopImage).exitCode = 0 ∧
    (perform nopOptions true fun _ => .contents #[]).exitCode = 255 ∧
    (perform nopOptions true fun _ => .contents #[]).output = "nes-core " ++ version ++ "\n" := by
  have hsteps : 1 ≤ 0xFFFFFFFFFFFFFFFF / 7 := by decide
  have hreport (image : Array UInt8) :=
    report_of_run "nop.nes" image (fun _ => .contents image) 1 rfl hsteps true true false true
  have hnone : ¬ ∃ summary later, RunsTo #[] 1 summary later := by
    rintro ⟨summary, later, h⟩
    exact absurd h.bootable.long (by decide)
  refine ⟨hsteps, ?_, ?_⟩
  · exact (hreport nopImage).1.mpr exists_runsTo_nopImage
  · exact (hreport #[]).2.2.1 hnone

end CommandLine

end NesMachine
