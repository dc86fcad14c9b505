import NesMachine.CommandLine.Options
import NesMachine.Console.Render
import NesMachine.Session
import NesMachine.SelfTest

/-!
# `NesMachine/CommandLine/Report.lean` — what a run of the program leaves behind

What the program prints and how it ends, as a function of its options and of the cartridge file. What
is in the file is an argument, and so is whether somebody reads the log.
-/

set_option autoImplicit false

namespace NesMachine.CommandLine

/-- What a run of the program leaves behind. -/
structure Report where
  output : String
  exitCode : UInt8
  /-- The entries of the log that are shown, oldest first. -/
  log : List Log.Entry

/-- The exit code after anything that failed. -/
def failureCode : UInt8 := 255

/-- The first line of every run. -/
def banner : String := "nes-core " ++ version ++ "\n"

/-- A verdict as the report shows it. -/
def verdictText : SelfTest.Verdict → String
  | .pass => "PASS"
  | .fail => "FAIL"
  | .inconclusive => "????"

/-- A check in one line. -/
def checkText (check : SelfTest.CheckResult) : String :=
  let line := "[" ++ verdictText check.verdict ++ "] " ++ check.name
  match check.detail with
  | none => line ++ "\n"
  | some detail => line ++ " (" ++ detail ++ ")\n"

/-- All checks and their tally. -/
def checksText (results : List SelfTest.CheckResult) : String :=
  let tally := SelfTest.Tally.ofVerdicts (results.map SelfTest.CheckResult.verdict)
  String.join (results.map checkText) ++ "\n" ++ tally.render ++ "\n"

/-- A run in one line. -/
def summaryText (summary : RunSummary) : String :=
  "Ran " ++ toString summary.steps ++ " instructions (" ++ toString summary.cycles ++ " cycles)"
    ++ (if summary.halted then ", halted" else "") ++ "\n"

/-- Runs a cartridge file on a console. Answers what is printed. -/
def runCartridge (options : Options) (listened : Bool) (path : String) (read : FileRead) :
    Action Console String := do
  Console.powerOn
  Console.loadFile path read
  let mode := if options.debug then RunMode.debug else .normal
  let summary ← Console.run mode listened options.steps
  let dump ← .ask fun console =>
    .ok (if options.dump then "\n" ++ console.render ++ "\n" else "")
  return summaryText summary ++ dump

/-- Runs a cartridge file, and switches the console off afterwards. -/
def cartridgeReport (options : Options) (listened : Bool) (path : String) (read : FileRead) :
    Report :=
  match runCartridge options listened path read .off with
  | ⟨.error fault, _, log⟩ =>
    ⟨"", failureCode, options.shown (log ++ [⟨.error, fault.message⟩])⟩
  | ⟨.ok output, console, log⟩ =>
    match Console.powerOff console with
    | ⟨.error fault, _, more⟩ =>
      ⟨output, failureCode, options.shown (log ++ more ++ [⟨.error, fault.message⟩])⟩
    | ⟨.ok (), _, more⟩ => ⟨output, 0, options.shown (log ++ more ++ [⟨.info, "done"⟩])⟩

/-- Does what the options ask for. `read` tells what is in a file, and `listened` whether somebody
reads the log. Checks that fail keep the cartridge from being run. -/
def perform (options : Options) (listened : Bool) (read : String → FileRead) : Report :=
  let checks := if options.test then SelfTest.results else []
  let output := banner ++ (if options.test then checksText checks else "")
  if (SelfTest.Tally.ofVerdicts (checks.map SelfTest.CheckResult.verdict)).isGood then
    match options.rom with
    | none => ⟨output, 0, []⟩
    | some path =>
      match cartridgeReport options listened path (read path) with
      | ⟨more, exitCode, log⟩ => ⟨output ++ more, exitCode, log⟩
  else ⟨output, failureCode, []⟩

end NesMachine.CommandLine
