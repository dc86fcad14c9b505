import NesMachine.CommandLine.Options
import NesMachine.Console.Run

/-!
# `NesMachine/CommandLine/Arguments.lean` — reading a command line

Arguments are read from left to right. An option is given by a long name or a letter; letters may
share one dash. An option with a value takes it from the same argument, after `=` or right after the
letter, or from the next argument. Nothing may be given twice, names may not be shortened, and there
are no arguments besides options.

Help is answered as soon as it is asked for, so what stands to the right of it does not matter, and
a mistake to the left of it does.

All this is a convention between the program and whoever types. The program itself begins where the
options are known (`perform`), and whatever is proved of it is proved for all options, and not by way
of this reader.
-/

set_option autoImplicit false

namespace NesMachine.CommandLine

/-- The options without a value. -/
inductive Flag where
  | test
  | debug
  | dump
  | verbose
  deriving DecidableEq

/-- The options with a value. -/
inductive Setting where
  | rom
  | steps
  deriving DecidableEq

/-- Everything that has a name on the command line. -/
inductive Switch where
  | help
  | flag (flag : Flag)
  | setting (setting : Setting)
  deriving DecidableEq

/-- What is wrong with a command line. -/
inductive UsageError where
  | unknownOption (name : String)
  | unexpectedArgument (argument : String)
  | repeatedFlag (flag : Flag)
  | repeatedSetting (setting : Setting)
  | missingValue (setting : Setting)
  | unexpectedValue (name : String)
  | notANumber (value : String)
  | emptyPath
  deriving DecidableEq

/-- What a command line without mistakes asks for. -/
inductive Request where
  | help
  | run (options : Options)
  deriving DecidableEq

/-! ## Names -/

/-- The switch with a long name. -/
def Switch.ofName? : String → Option Switch
  | "help" => some .help
  | "rom" => some (.setting .rom)
  | "test" => some (.flag .test)
  | "steps" => some (.setting .steps)
  | "debug" => some (.flag .debug)
  | "dump" => some (.flag .dump)
  | "verbose" => some (.flag .verbose)
  | _ => none

/-- The switch with a letter. -/
def Switch.ofLetter? : Char → Option Switch
  | 'h' => some .help
  | 'r' => some (.setting .rom)
  | 't' => some (.flag .test)
  | 's' => some (.setting .steps)
  | 'd' => some (.flag .debug)
  | 'v' => some (.flag .verbose)
  | _ => none

/-! ## Numbers -/

/-- The number that decimal digits denote; there has to be at least one. -/
def decimal? (digits : List Char) : Option Nat :=
  if digits.isEmpty then none
  else digits.foldl (fun total c => do
    let high ← total
    if '0' ≤ c ∧ c ≤ '9' then some (high * 10 + (c.toNat - '0'.toNat)) else none) (some 0)

/-- The largest budget that can be asked for, which has sixty-four bits. -/
def maxSteps : Nat := 0xFFFFFFFFFFFFFFFF

/-- The budget that a text denotes: decimal digits, after a plus sign or not. -/
def steps? (value : String) : Option Nat := do
  let digits := match value.toList with
    | '+' :: digits => digits
    | digits => digits
  let steps ← decimal? digits
  if steps ≤ maxSteps then some steps else none

/-! ## Reading arguments -/

/-- The options found so far. -/
structure Found where
  rom : Option String
  steps : Option Nat
  flags : List Flag

namespace Found

/-- Nothing has been found. -/
def nothing : Found := ⟨none, none, []⟩

/-- Notes a flag. -/
def addFlag (found : Found) (flag : Flag) : Except UsageError Found :=
  if found.flags.contains flag then .error (.repeatedFlag flag)
  else .ok { found with flags := flag :: found.flags }

/-- Notes a value. -/
def addSetting (found : Found) (setting : Setting) (value : String) : Except UsageError Found :=
  match setting with
  | .rom =>
    if found.rom.isSome then .error (.repeatedSetting .rom)
    else if value.isEmpty then .error .emptyPath
    else .ok { found with rom := some value }
  | .steps =>
    if found.steps.isSome then .error (.repeatedSetting .steps)
    else match steps? value with
      | none => .error (.notANumber value)
      | some steps => .ok { found with steps := some steps }

/-- The options, with defaults for those that were not given. -/
def options (found : Found) : Options where
  rom := found.rom
  test := found.flags.contains .test
  steps := found.steps.getD defaultBudget
  debug := found.flags.contains .debug
  dump := found.flags.contains .dump
  verbose := found.flags.contains .verbose

end Found

/-- What an argument looks like, before its names are looked up. -/
inductive Argument where
  /-- Ends the options. -/
  | separator
  /-- A long name, and the value after the first `=` if there is one. -/
  | named (name : String) (value : Option String)
  /-- Letters after one dash. -/
  | letters (first : Char) (rest : List Char)
  /-- Anything else. A lone dash is such an argument. -/
  | plain (text : String)
  deriving DecidableEq

/-- Sorts an argument. -/
def Argument.ofString (argument : String) : Argument :=
  match argument.toList with
  | ['-', '-'] => .separator
  | '-' :: '-' :: name =>
    match name.dropWhile (· != '=') with
    | [] => .named (String.ofList name) none
    | _ :: value => .named (String.ofList (name.takeWhile (· != '='))) (some (String.ofList value))
  | '-' :: first :: rest => .letters first rest
  | _ => .plain argument

/-- Where reading stands after an argument. -/
inductive Progress where
  /-- Help was asked for. -/
  | help
  /-- The next argument is looked at by itself. -/
  | ready (found : Found)
  /-- The next argument is the value of a setting. -/
  | awaiting (found : Found) (setting : Setting)

/-- Reads a long option. -/
def readNamed (found : Found) (name : String) (value : Option String) :
    Except UsageError Progress :=
  match Switch.ofName? name, value with
  | none, _ => .error (.unknownOption name)
  | some .help, none => .ok .help
  | some (.flag flag), none => .ready <$> found.addFlag flag
  | some (.setting setting), none => .ok (.awaiting found setting)
  | some (.setting setting), some value => .ready <$> found.addSetting setting value
  | some .help, some _ => .error (.unexpectedValue name)
  | some (.flag _), some _ => .error (.unexpectedValue name)

/-- The value right after a letter; one `=` before it is not part of it. -/
def attachedValue : List Char → String
  | '=' :: value => String.ofList value
  | value => String.ofList value

/-- Reads the letters after one dash. A letter with a value takes the rest as its value. -/
def readLetters (found : Found) : List Char → Except UsageError Progress
  | [] => .ok (.ready found)
  | letter :: rest =>
    match Switch.ofLetter? letter with
    | none => .error (.unknownOption (String.singleton letter))
    | some .help => .ok .help
    | some (.flag flag) => do readLetters (← found.addFlag flag) rest
    | some (.setting setting) =>
      if rest.isEmpty then .ok (.awaiting found setting)
      else .ready <$> found.addSetting setting (attachedValue rest)

/-- Reads the arguments from where reading stands. -/
def readFrom : Progress → List String → Except UsageError Request
  | .help, _ => .ok .help
  | .ready found, [] => .ok (.run found.options)
  | .awaiting _ setting, [] => .error (.missingValue setting)
  | .ready found, argument :: rest =>
    match Argument.ofString argument with
    | .separator =>
      match rest with
      | [] => .ok (.run found.options)
      | extra :: _ => .error (.unexpectedArgument extra)
    | .named name value => do readFrom (← readNamed found name value) rest
    | .letters first others => do readFrom (← readLetters found (first :: others)) rest
    | .plain text => .error (.unexpectedArgument text)
  | .awaiting found setting, argument :: rest =>
    match Argument.ofString argument with
    | .plain value => do readFrom (.ready (← found.addSetting setting value)) rest
    | _ => .error (.missingValue setting)

/-- Reads a command line. -/
def Request.ofArguments (arguments : List String) : Except UsageError Request :=
  readFrom (.ready .nothing) arguments

/-! ## Texts -/

/-- The long name of a flag. -/
def Flag.name : Flag → String
  | test => "--test"
  | debug => "--debug"
  | dump => "--dump"
  | verbose => "--verbose"

/-- The long name of a setting. -/
def Setting.name : Setting → String
  | rom => "--rom"
  | steps => "--steps"

/-- The mistake in words. -/
def UsageError.message : UsageError → String
  | unknownOption name => "unknown option: " ++ name
  | unexpectedArgument argument => "unexpected argument: " ++ argument
  | repeatedFlag flag => flag.name ++ " may be given only once"
  | repeatedSetting setting => setting.name ++ " may be given only once"
  | missingValue setting => setting.name ++ " needs a value"
  | unexpectedValue name => "--" ++ name ++ " takes no value"
  | notANumber value => "not a number of steps: " ++ value
  | emptyPath => "--rom needs a path"

/-- What there is to ask for. -/
def usage : String :=
  "Runs iNES programs on the NES emulation core\n\n"
    ++ "Usage: nes-cli [OPTIONS]\n\n"
    ++ "Options:\n"
    ++ "  -r, --rom <ROM>      Path to the iNES ROM file\n"
    ++ "  -t, --test           Run the built-in self-test checks\n"
    ++ "  -s, --steps <STEPS>  Maximum number of instructions to run [default: "
    ++ toString defaultBudget ++ "]\n"
    ++ "  -d, --debug          Log a disassembly trace line per instruction\n"
    ++ "      --dump           Dump machine state after running\n"
    ++ "  -v, --verbose        Enable debug logging\n"
    ++ "  -h, --help           Print help\n"

end NesMachine.CommandLine
