import NesMachine.CommandLine

/-!
# `NesMachine/Main.lean` — the program

Reads the cartridge file, prints what the library answers, and ends with its exit code. The log goes
to standard error.
-/

set_option autoImplicit false

namespace NesMachine.CommandLine

/-- Reads a file. -/
def readFile (path : String) : IO FileRead := do
  try
    return .contents (← IO.FS.readBinFile path).data
  catch
    | .noFileOrDirectory .. => return .missing
    | failure => return .failed (toString failure)

/-- Reads the cartridge file, if one is asked for. -/
def readCartridge (arguments : List String) : IO FileRead :=
  match cartridgePath? arguments with
  | none => return .missing
  | some path => readFile path

/-- Prints the entries of a log to standard error. -/
def printLog (log : List Log.Entry) : IO Unit :=
  log.forM fun entry => IO.eprintln entry.line

end NesMachine.CommandLine

open NesMachine NesMachine.CommandLine

/-- Answers the command line. -/
def main (arguments : List String) : IO UInt32 := do
  let read ← readCartridge arguments
  let report := answer arguments true fun _ => read
  IO.print report.output
  printLog report.log
  return report.exitCode.toUInt32
