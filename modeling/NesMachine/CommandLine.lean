import NesMachine.CommandLine.Arguments
import NesMachine.CommandLine.Report

/-!
# `NesMachine/CommandLine.lean` — the program from the command line

A command line is read, and then the program does what the options say. Finding out what is in the
cartridge file, and printing, are left to whoever runs it.
-/

set_option autoImplicit false

namespace NesMachine.CommandLine

/-- The exit code after a mistake on the command line. -/
def usageCode : UInt8 := 2

/-- The cartridge file that a command line asks for. -/
def cartridgePath? (arguments : List String) : Option String :=
  match Request.ofArguments arguments with
  | .ok (.run options) => options.rom
  | _ => none

/-- Answers a command line. -/
def answer (arguments : List String) (listened : Bool) (read : String → FileRead) : Report :=
  match Request.ofArguments arguments with
  | .error mistake => ⟨"", usageCode, [⟨.error, mistake.message⟩]⟩
  | .ok .help => ⟨usage, 0, []⟩
  | .ok (.run options) => perform options listened read

end NesMachine.CommandLine
