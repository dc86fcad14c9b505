import NesMachine.Memory

/-!
# `NesMachine/Memory/Dump.lean` — memory as text

Memory is shown in rows of sixteen cells, each with the address of its first. The dump of a block
shows every row of the block; the dump of the whole memory shows one `*` for each run of rows that
hold nothing but zeros.

A dump is a list of lines before it is a text, and the rows of a block are a list of addresses and
bytes before they are lines, so what a dump leaves out can be said without looking at characters.
-/

set_option autoImplicit false

namespace NesMachine

open Text

namespace Memory

/-- Up to sixteen bytes and the address of the first. -/
structure Row where
  address : Nat
  bytes : List UInt8
  deriving DecidableEq

namespace Row

/-- The count of cells in a full row. -/
def width : Nat := 16

/-- The row as a line. -/
def text (row : Row) : String :=
  "$" ++ hex 4 row.address ++ ": " ++ " ".intercalate (row.bytes.map hexByte)

/-- Holds of a row without anything but zeros. -/
def isBlank (row : Row) : Bool := row.bytes.all (· == 0)

end Row

/-- The rows of the bytes from `address` on; the last one may be short. -/
def rows (address : Nat) : List UInt8 → List Row
  | [] => []
  | byte :: bytes =>
    ⟨address, (byte :: bytes).take Row.width⟩
      :: rows (address + Row.width) ((byte :: bytes).drop Row.width)
termination_by bytes => bytes.length
decreasing_by simp only [List.length_drop, List.length_cons, Row.width]; omega

/-- A line of the dump of the whole memory. -/
inductive DumpLine where
  | row (shown : Row)
  /-- Stands for a run of rows of zeros. -/
  | blank
  deriving DecidableEq

/-- The line as text. -/
def DumpLine.text : DumpLine → String
  | row shown => shown.text
  | blank => "*"

/-- The lines of a dump: every run of blank rows is one line. `inRun` tells whether the row before
was blank, so that the run has its line already. -/
def collapse : Bool → List Row → List DumpLine
  | _, [] => []
  | inRun, row :: rest =>
    if row.isBlank then
      if inRun then collapse true rest else .blank :: collapse true rest
    else .row row :: collapse false rest

/-- A cell with its address, in hexadecimal and binary. -/
def cellText (memory : Memory) (address : Nat) : Except Fault String := do
  let value ← memory.peek address
  return "$" ++ hex 4 address ++ ": $" ++ hexByte value ++ " %" ++ binaryByte value

/-- A block, row by row. -/
def blockText (memory : Memory) (address length : Nat) : Except Fault String := do
  let bytes ← memory.peekBlock address length
  return "\n".intercalate ((rows address bytes).map Row.text)

/-- The whole memory, with a line for its size and blank rows collapsed. -/
def render : Memory → String
  | off => "Memory: uninitialized"
  | on ram =>
    "\n".intercalate ("Memory: 65536 bytes"
      :: (collapse false (rows 0 (ram.readBlock 0 Ram.size))).map DumpLine.text)

/-! ## Laws -/

/-- The rows of a block hold its bytes in order. -/
theorem rows_flatten (address : Nat) (bytes : List UInt8) :
    ((rows address bytes).map Row.bytes).flatten = bytes := by
  fun_induction rows address bytes with
  | case1 => rfl
  | case2 address byte bytes ih => simp [ih]

end Memory

end NesMachine
