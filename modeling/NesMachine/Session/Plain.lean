import NesMachine.Console.Render
import NesMachine.Session

/-!
# `NesMachine/Session/Plain.lean` — a session behind plain numbers

For a caller that knows no types but numbers and texts: every call answers the number of its result
code.
-/

set_option autoImplicit false

namespace NesMachine

/-- A session whose calls answer numbers. -/
structure PlainSession where
  session : Session

namespace PlainSession

/-- A plain session that has never been switched on. -/
def fresh : PlainSession := ⟨.fresh⟩

instance : Inhabited PlainSession := ⟨fresh⟩

/-- Makes a call on the session. -/
def call (request : Session → Reply Session ResultCode) : PlainSession → Reply PlainSession Int
  | ⟨session⟩ =>
    match request session with
    | ⟨code, session, log⟩ => ⟨code.toInt, ⟨session⟩, log⟩

/-- Switches the console on. -/
def powerOn : PlainSession → Reply PlainSession Int := call Session.powerOn

/-- Switches the console off. -/
def powerOff : PlainSession → Reply PlainSession Int := call Session.powerOff

/-- Loads an image. -/
def load (image : Array UInt8) : PlainSession → Reply PlainSession Int := call (Session.load image)

/-- Sets the budget of runs. -/
def setStepLimit (steps : UInt32) : PlainSession → Reply PlainSession Int :=
  call (Session.setStepLimit steps.toNat)

/-- Runs the loaded program. -/
def run (debug listened : Bool) : PlainSession → Reply PlainSession Int :=
  call (Session.run debug listened)

/-- Holds while the console is on. -/
def isValid (plain : PlainSession) : Bool := plain.session.isValid

/-- The program counter. -/
def pc (plain : PlainSession) : UInt16 := plain.session.console.pc

/-- The cycles spent, modulo 2³². -/
def cycles (plain : PlainSession) : UInt32 := plain.session.console.cpu.cycles

/-- The state of the console as text. -/
def dump (plain : PlainSession) : String := plain.session.console.render

/-- The number that stands for success. -/
def successCode : Int := ResultCode.success.toInt

end PlainSession

end NesMachine
