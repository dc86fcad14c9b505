import NesMachine.Console.Run

/-!
# `NesMachine/Session.lean` — a console for embedding

A program that embeds a console gets one of four codes from every call, and no fault. The fault is
not lost: it is logged. A call on a session therefore always answers, and its answer is a `Reply`.

A session also keeps the budget of its runs, which outlives switching the console off.
-/

set_option autoImplicit false

namespace NesMachine

/-- What an embedding program is told. -/
inductive ResultCode where
  | success
  | failure
  | invalidArgument
  | invalidState
  deriving DecidableEq

namespace ResultCode

/-- The code as a number: zero for success, and negative otherwise. -/
def toInt : ResultCode → Int
  | success => 0
  | failure => -1
  | invalidArgument => -2
  | invalidState => -3

/-- The code's name. -/
def name : ResultCode → String
  | success => "Success"
  | failure => "Failure"
  | invalidArgument => "InvalidArgument"
  | invalidState => "InvalidState"

/-- The code of a fault: calls at the wrong time are told from numbers that mean nothing, and all
else is a failure. -/
def ofFault : Fault → ResultCode
  | .alreadyInitialized _ => invalidState
  | .uninitialized _ => invalidState
  | .unloaded => invalidState
  | .invalidAddress _ => invalidArgument
  | .invalidIndex _ => invalidArgument
  | .invalidOpcode _ _ => invalidArgument
  | _ => failure

end ResultCode

/-- What a call answers that cannot refuse. -/
structure Reply (σ κ : Type) where
  /-- The code of the result. -/
  code : κ
  /-- The callee afterwards. -/
  state : σ
  /-- What was logged, oldest first. -/
  log : List Log.Entry

/-- The version of the machine. -/
def version : String := "0.1.0"

/-- A console and the budget of its runs. -/
structure Session where
  console : Console
  stepLimit : Nat

namespace Session

/-- A session whose console has never been switched on. -/
def fresh : Session := ⟨.off, defaultBudget⟩

instance : Inhabited Session := ⟨fresh⟩

/-- Answers a code without asking the console. -/
def answer (code : ResultCode) (session : Session) : Reply Session ResultCode :=
  ⟨code, session, []⟩

/-- Does something to the console. A fault is logged and becomes its code. -/
def perform {α : Type} (action : Action Console α) : Session → Reply Session ResultCode
  | ⟨console, stepLimit⟩ =>
    match action console with
    | ⟨.ok _, console, log⟩ => ⟨.success, ⟨console, stepLimit⟩, log⟩
    | ⟨.error fault, console, log⟩ =>
      ⟨.ofFault fault, ⟨console, stepLimit⟩, log ++ [⟨.error, fault.message⟩]⟩

/-- Holds while the console is on. -/
def isValid (session : Session) : Bool := session.console.isOn

/-- Switches the console on. -/
def powerOn : Session → Reply Session ResultCode := perform Console.powerOn

/-- Switches the console off. -/
def powerOff : Session → Reply Session ResultCode := perform Console.powerOff

/-- Loads an image, which must not be empty. -/
def load (image : Array UInt8) (session : Session) : Reply Session ResultCode :=
  if image.isEmpty then answer .invalidArgument session
  else perform (Console.load image) session

/-- Sets the budget of runs, which must not be zero. -/
def setStepLimit (steps : Nat) (session : Session) : Reply Session ResultCode :=
  if steps == 0 then answer .invalidArgument session
  else answer .success { session with stepLimit := steps }

/-- Runs the loaded program within the budget. `listened` tells whether somebody reads the log. -/
def run (debug listened : Bool) (session : Session) : Reply Session ResultCode :=
  if session.console.cartridge.isLoaded then
    let budget := session.stepLimit
    perform (Console.run (if debug then .debug else .normal) listened budget) session
  else answer .invalidState session

end Session

end NesMachine
