import NesMachine.Console.Trace

/-!
# `NesMachine/Console/Run.lean` — running a program

A run does instructions until its budget is spent, an instruction is refused, or an instruction
leaves the program counter where it was. A program that jumps to itself does nothing else from then
on, so a run takes this for its end.

A debug run logs a trace line before each instruction. Lines are made only if somebody reads the
log, and since making one can be refused, whether somebody does is an argument.
-/

set_option autoImplicit false

namespace NesMachine

/-- How much a run reports. -/
inductive RunMode where
  | normal
  | debug
  deriving DecidableEq

instance : Inhabited RunMode := ⟨.normal⟩

/-- The budget of a run where nobody asks for another. -/
def defaultBudget : Nat := 10000

/-- What a run has done. -/
structure RunSummary where
  /-- The instructions done. -/
  steps : Nat
  /-- The cycles that they took. -/
  cycles : Nat
  /-- Whether the run ended because the program counter stood still. -/
  halted : Bool
  deriving DecidableEq

namespace RunSummary

/-- A run that has not begun. -/
def start : RunSummary := ⟨0, 0, false⟩

/-- The summary in words. -/
def text (summary : RunSummary) : String :=
  "ran " ++ toString summary.steps ++ " instructions, " ++ toString summary.cycles ++ " cycles"
    ++ (if summary.halted then " (halted)" else "")

end RunSummary

namespace Console

/-- The program counter. -/
def pc (console : Console) : UInt16 := console.cpu.registers.pc

/-- One instruction of a run. Answers its cycles, and whether the program counter stood still. -/
def runStep (traced : Bool) : Action Console (Nat × Bool) := do
  if traced then
    .log .debug (← .ask traceLine)
  let before ← .ask fun console => .ok console.pc
  let cycles ← step
  let after ← .ask fun console => .ok console.pc
  return (cycles, after == before)

/-- The instructions of a run, after those that `done` counts and `log` reports. -/
def runSteps (traced : Bool) :
    Nat → RunSummary → Array Log.Entry → Console → Outcome Console RunSummary
  | 0, done, log, console => ⟨.ok done, console, log.toList⟩
  | budget + 1, done, log, console =>
    match runStep traced console with
    | ⟨.error fault, console, entries⟩ => ⟨.error fault, console, (log.appendList entries).toList⟩
    | ⟨.ok (cycles, stood), console, entries⟩ =>
      let log := log.appendList entries
      let done := ⟨done.steps + 1, done.cycles + cycles, stood⟩
      if stood then ⟨.ok done, console, log.toList⟩ else runSteps traced budget done log console

/-- Does at most `budget` instructions. `listened` tells whether somebody reads the log. -/
def run (mode : RunMode) (listened : Bool) (budget : Nat) : Action Console RunSummary := do
  requireOn
  let summary ← runSteps (listened && mode == .debug) budget .start #[]
  .log .info summary.text
  return summary

end Console

end NesMachine
