import NesMachine.Log

/-!
# `NesMachine/CommandLine/Options.lean` — what a run of the program is told

The program does what its options say. How they were asked for, and what is wrong with a command line
that cannot be understood, is no matter of this module.
-/

set_option autoImplicit false

namespace NesMachine.CommandLine

/-- What the command line can ask for. -/
structure Options where
  /-- The cartridge file to run. -/
  rom : Option String
  /-- Whether to make the checks. -/
  test : Bool
  /-- The budget of the run. -/
  steps : Nat
  /-- Whether to log a line for every instruction. -/
  debug : Bool
  /-- Whether to show the console after the run. -/
  dump : Bool
  /-- Whether to log more. -/
  verbose : Bool
  deriving DecidableEq

/-- The entries of a log that are shown: all down to a level. -/
def Options.shown (options : Options) (log : List Log.Entry) : List Log.Entry :=
  let least := if options.verbose || options.debug then Log.Level.debug else .info
  log.filter fun entry => entry.level.rank ≤ least.rank

end NesMachine.CommandLine
