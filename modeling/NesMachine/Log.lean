/-!
# `NesMachine/Log.lean` — what a machine reports while it works

An operation answers with a result, a new state, and the entries it logged on the way. Entries are
plain values; whether somebody prints them is decided outside the library.
-/

set_option autoImplicit false

namespace NesMachine.Log

/-- How much an entry matters, the most urgent first. -/
inductive Level where
  | error
  | warn
  | info
  | debug
  | trace
  deriving DecidableEq

/-- The level's name as a log line shows it. -/
def Level.name : Level → String
  | .error => "ERROR"
  | .warn => "WARN"
  | .info => "INFO"
  | .debug => "DEBUG"
  | .trace => "TRACE"

/-- The position of a level, zero for the most urgent. -/
def Level.rank : Level → Nat
  | .error => 0
  | .warn => 1
  | .info => 2
  | .debug => 3
  | .trace => 4

/-- One reported event. -/
structure Entry where
  level : Level
  text : String
  deriving DecidableEq

/-- The entry as one line, level first. -/
def Entry.line (entry : Entry) : String := entry.level.name ++ " " ++ entry.text

end NesMachine.Log
