import NesMachine.Memory.Dump
import NesMachine.Proofs.Text.Lines

/-!
# `NesMachine/Proofs/Memory/Rows.lean` — the dump of a block read back

`rows` cuts bytes into rows by taking sixteen off the front until there are none. Seen from the rows,
row `k` is what is found `16 * k` bytes in (`rows_eq`), and everything that is said of a dump by the
number of its row follows from that one equation.

A row is read back from its line without being told where it belongs, as the address is in the line.
It needs to be an address that four digits can show, and the row must not be empty, because nothing
between two spaces is not a byte. Neither is lost on a block: one that is not refused ends before the
addresses of five digits do, and an empty block has no rows at all.
-/

set_option autoImplicit false

namespace NesMachine

open Text

/-- The cells from an address on that is a number. -/
def Ram.cellsFrom (ram : Ram) (address length : Nat) : List UInt8 :=
  (List.range length).map fun index => ram.read (.ofNat (address + index))

namespace Ram

variable (ram : Ram)

@[simp] theorem length_cellsFrom (address length : Nat) :
    (ram.cellsFrom address length).length = length := by
  rw [cellsFrom, List.length_map, List.length_range]

theorem readBlock_eq_cellsFrom (address length : Nat) :
    ram.readBlock (.ofNat address) length = ram.cellsFrom address length :=
  List.map_congr_left fun _ _ => congrArg ram.read (UInt16.ofNat_add _ _).symm

/-- Cells of cells, as far as there are any. -/
theorem take_drop_cellsFrom (address length first count : Nat) :
    ((ram.cellsFrom address length).drop first).take count
      = ram.cellsFrom (address + first) (min count (length - first)) := by
  apply List.ext_getElem
  · simp
  · intro index hindex hindex'
    simp [cellsFrom, Nat.add_assoc]

end Ram

namespace Memory

/-- The row with its bytes that is written so. -/
def readRow (line : String) : Option Row :=
  match line.toList with
  | '$' :: a :: b :: c :: d :: ':' :: ' ' :: rest => do
    let address ← readNumeral 16 [a, b, c, d]
    let bytes ← readBytes rest
    return ⟨address, bytes⟩
  | _ => none

/-- The address of a block and its bytes, read line by line. -/
def readBlockText (text : String) : Option (Nat × List UInt8) := do
  let rows ← (lines text).mapM readRow
  let first ← rows.head?
  return (first.address, (rows.map Row.bytes).flatten)

/-! ## Rows by their number -/

theorem rows_eq (address : Nat) (bytes : List UInt8) :
    rows address bytes = (List.range ((bytes.length + 15) / 16)).map fun k =>
      ⟨address + 16 * k, (bytes.drop (16 * k)).take 16⟩ := by
  fun_induction rows address bytes with
  | case1 => rfl
  | case2 address byte bytes ih =>
    have hcount : ((byte :: bytes).length + 15) / 16
        = (((byte :: bytes).drop Row.width).length + 15) / 16 + 1 := by
      rw [List.length_drop, Row.width, List.length_cons]
      omega
    rw [ih, hcount, List.range_succ_eq_map, List.map_cons, List.map_map]
    refine congrArg (List.cons _) (List.map_congr_left fun k _ => ?_)
    rw [Function.comp_apply, List.drop_drop, Row.width, Nat.add_assoc, Nat.mul_succ,
      Nat.add_comm 16 (16 * k)]

section

variable {address : Nat} {bytes : List UInt8}

theorem length_rows : (rows address bytes).length = (bytes.length + 15) / 16 := by
  rw [rows_eq, List.length_map, List.length_range]

theorem bytes_ne_nil_of_mem_rows {row : Row} (h : row ∈ rows address bytes) : row.bytes ≠ [] := by
  rw [rows_eq, List.mem_map] at h
  obtain ⟨k, hk, rfl⟩ := h
  rw [List.mem_range] at hk
  apply List.ne_nil_of_length_pos
  rw [List.length_take, List.length_drop]
  omega

/-- Rows of a block that ends in time have addresses that four digits can show. -/
theorem address_lt_of_mem_rows {row : Row} (hend : address + bytes.length ≤ 65536)
    (h : row ∈ rows address bytes) : row.address < 65536 := by
  rw [rows_eq, List.mem_map] at h
  obtain ⟨k, hk, rfl⟩ := h
  rw [List.mem_range] at hk
  show address + 16 * k < 65536
  omega

theorem head?_rows (h : bytes ≠ []) : (rows address bytes).head? = some ⟨address, bytes.take 16⟩ := by
  cases bytes with
  | nil => exact absurd rfl h
  | cons byte bytes => rw [rows, List.head?_cons, Row.width]

end

/-! ## A row as a line -/

namespace Row

variable {row : Row}

theorem toList_text (h : row.address < 65536) : row.text.toList
    = '$' :: (numeral 16 4 row.address
      ++ ':' :: ' ' :: (" ".intercalate (row.bytes.map hexByte)).toList) := by
  have haddress : hex 4 row.address = String.ofList (numeral 16 4 row.address) :=
    hex_of_lt (by decide) h
  simp [text, haddress]

theorem readRow_text (h : row.address < 65536) (hne : row.bytes ≠ []) :
    readRow row.text = some row := by
  obtain ⟨a, b, c, d, hdigits⟩ : ∃ a b c d, numeral 16 4 row.address = [a, b, c, d] :=
    ⟨_, _, _, _, rfl⟩
  have hnumber : readNumeral 16 [a, b, c, d] = some row.address := by
    rw [← hdigits, readNumeral_numeral 16 4 row.address (by decide) (by decide)]
    exact congrArg some (Nat.mod_eq_of_lt h)
  rw [readRow, toList_text h, hdigits]
  simp only [List.cons_append, List.nil_append, hnumber, readBytes_intercalate hne,
    Option.bind_eq_bind, Option.bind_some, Option.pure_def]

/-- The line of a row begins with its address. -/
theorem column_text (h : row.address < 65536) :
    column 0 5 row.text = String.ofList ('$' :: numeral 16 4 row.address) := by
  obtain ⟨a, b, c, d, hdigits⟩ : ∃ a b c d, numeral 16 4 row.address = [a, b, c, d] :=
    ⟨_, _, _, _, rfl⟩
  rw [column, toList_text h, hdigits]
  rfl

/-- A row is one line. -/
theorem newline_notMem_text (h : row.address < 65536) : '\n' ∉ row.text.toList := by
  have hdigits : '\n' ∉ numeral 16 4 row.address := fun hmem =>
    absurd (isSome_digitValue?_of_mem (by decide) (by decide) hmem) (by decide)
  have hbytes : '\n' ∉ (" ".intercalate (row.bytes.map hexByte)).toList := by
    rw [toList_intercalate_hexByte]
    exact notMem_intercalate (by decide)
      (List.forall_mem_map.mpr fun byte _ => notMem_hexByte rfl byte)
  rw [toList_text h]
  simp only [List.mem_cons, List.mem_append, hdigits, hbytes]
  decide

end Row

section

variable {address : Nat} {bytes : List UInt8} {row : Row} (hend : address + bytes.length ≤ 65536)

include hend

theorem readRow_of_mem_rows (h : row ∈ rows address bytes) : readRow row.text = some row :=
  Row.readRow_text (address_lt_of_mem_rows hend h) (bytes_ne_nil_of_mem_rows h)

theorem newline_notMem_of_mem_rows (h : row ∈ rows address bytes) : '\n' ∉ row.text.toList :=
  Row.newline_notMem_text (address_lt_of_mem_rows hend h)

/-- The lines of the rows are the lines of the text. -/
theorem lines_rows (hne : bytes ≠ []) :
    lines ("\n".intercalate ((rows address bytes).map Row.text))
      = (rows address bytes).map Row.text := by
  refine lines_intercalate ?_ (List.forall_mem_map.mpr fun _ => newline_notMem_of_mem_rows hend)
  have hhead : (rows address bytes).head? = some ⟨address, bytes.take 16⟩ := head?_rows hne
  intro hnil
  rw [List.map_eq_nil_iff.mp hnil] at hhead
  cases hhead

theorem readBlockText_rows (hne : bytes ≠ []) :
    readBlockText ("\n".intercalate ((rows address bytes).map Row.text)) = some (address, bytes) := by
  have hrows : ((rows address bytes).map Row.text).mapM readRow = some (rows address bytes) :=
    mapM_map_eq_some fun _ => readRow_of_mem_rows hend
  rw [readBlockText, lines_rows hend hne, hrows, Option.bind_eq_bind, Option.bind_some,
    head?_rows hne, rows_flatten]
  rfl

end

/-! ## The dump of a block -/

section

variable (ram : Ram) {address length : Nat}

theorem blockText_inside (hin : address < 65536) (hfit : address + length ≤ 65536) :
    (on ram).blockText address length
      = .ok ("\n".intercalate ((rows address (ram.cellsFrom address length)).map Row.text)) := by
  have hfault : blockFault address length = none := blockFault_eq_none_iff.mpr ⟨hin, hfit⟩
  rw [blockText, peekBlock, hfault, Ram.readBlock_eq_cellsFrom]
  rfl

theorem blockText_outside (hout : ¬ (address < 65536 ∧ address + length ≤ 65536)) :
    ∃ a, 65536 ≤ a ∧ (on ram).blockText address length = .error (.invalidAddress a) := by
  obtain ⟨a, ha, hfault⟩ := blockFault_of_outside hout
  refine ⟨a, ha, ?_⟩
  rw [blockText, peekBlock, hfault]
  rfl

/-- Row `k` of a block of cells. -/
theorem getElem?_rows_cellsFrom {k : Nat} {row : Row}
    (h : (rows address (ram.cellsFrom address length))[k]? = some row) :
    row = ⟨address + 16 * k, ram.cellsFrom (address + 16 * k) (min 16 (length - 16 * k))⟩ := by
  rw [rows_eq, List.getElem?_map, Option.map_eq_some_iff] at h
  obtain ⟨index, hindex, rfl⟩ := h
  obtain ⟨hlt, hk⟩ := List.getElem?_eq_some_iff.mp hindex
  rw [List.getElem_range] at hk
  rw [← hk, Ram.take_drop_cellsFrom]

/-- Line `k` of a block of cells. -/
theorem readRow_line (hend : address + (ram.cellsFrom address length).length ≤ 65536) {k : Nat}
    {line : String}
    (h : ((rows address (ram.cellsFrom address length)).map Row.text)[k]? = some line) :
    column 0 5 line = String.ofList ('$' :: numeral 16 4 (address + 16 * k)) ∧
      readRow line = some ⟨address + 16 * k,
        ram.cellsFrom (address + 16 * k) (min 16 (length - 16 * k))⟩ := by
  rw [List.getElem?_map, Option.map_eq_some_iff] at h
  obtain ⟨row, hrow, rfl⟩ := h
  have hmem : row ∈ rows address (ram.cellsFrom address length) := List.mem_of_getElem? hrow
  have hcolumn := Row.column_text (address_lt_of_mem_rows hend hmem)
  have hread := readRow_of_mem_rows hend hmem
  rw [getElem?_rows_cellsFrom ram hrow] at hcolumn hread ⊢
  exact ⟨hcolumn, hread⟩

/-- **The dump of a block is the block.** There is one exactly if the block starts and ends among the
cells; if there is none, the reason is an address outside, also where the sum of address and length is
no number that a caller can name.

The dump of a block that is not empty has a line for every sixteen cells and for what is left. Line `k`
begins with a `$` and the four digits of the address of its first cell, and is read as the cells from
there on, sixteen as long as there are so many. All lines together are read as the address of the block
and its cells in order. -/
theorem blockText_readsBack (address length : Nat) :
    ((∃ text, (on ram).blockText address length = .ok text) ↔
      address < 65536 ∧ address + length ≤ 65536) ∧
    (∀ fault, (on ram).blockText address length = .error fault →
      ∃ a, 65536 ≤ a ∧ fault = .invalidAddress a) ∧
    ∀ text, (on ram).blockText address length = .ok text → 1 ≤ length →
      (lines text).length = (length + 15) / 16 ∧
      (∀ k line, (lines text)[k]? = some line →
        column 0 5 line = String.ofList ('$' :: numeral 16 4 (address + 16 * k)) ∧
        readRow line = some ⟨address + 16 * k,
          ram.cellsFrom (address + 16 * k) (min 16 (length - 16 * k))⟩) ∧
      readBlockText text = some (address, ram.cellsFrom address length) := by
  by_cases hfits : address < 65536 ∧ address + length ≤ 65536
  · have hok := blockText_inside ram hfits.1 hfits.2
    refine ⟨⟨fun _ => hfits, fun _ => ⟨_, hok⟩⟩, ?_, ?_⟩
    · intro fault herror
      rw [hok] at herror
      cases herror
    · intro text htext hlength
      rw [hok] at htext
      cases htext
      have hend : address + (ram.cellsFrom address length).length ≤ 65536 := by
        rw [Ram.length_cellsFrom]
        exact hfits.2
      have hne : ram.cellsFrom address length ≠ [] := by
        apply List.ne_nil_of_length_pos
        rwa [Ram.length_cellsFrom]
      rw [lines_rows hend hne]
      refine ⟨?_, fun k line => readRow_line ram hend, readBlockText_rows hend hne⟩
      rw [List.length_map, length_rows, Ram.length_cellsFrom]
  · obtain ⟨a, ha, herror⟩ := blockText_outside ram hfits
    rw [herror]
    refine ⟨⟨?_, fun h => absurd h hfits⟩, ?_, ?_⟩
    · rintro ⟨_, h⟩
      cases h
    · rintro fault ⟨⟩
      exact ⟨a, ha, rfl⟩
    · rintro text ⟨⟩

end

/-- A memory with two bytes in its last cells. -/
def endRam : Ram := (Ram.zeros.write 0xFFFE 0x12).write 0xFFFF 0xAB

/-- The last eighteen cells are a row and two cells. Where there are as many cells to be shown as there
are numbers, the sum is cut, and the dump is still refused. -/
theorem blockText_upToTheEnd :
    (∃ text, (on endRam).blockText 0xFFEE 18 = .ok text ∧
      (lines text).length = 2 ∧
      (∀ line, (lines text)[1]? = some line →
        column 0 5 line = "$FFFE" ∧ readRow line = some ⟨0xFFFE, [0x12, 0xAB]⟩) ∧
      readBlockText text = some (0xFFEE, endRam.cellsFrom 0xFFEE 18)) ∧
    ∃ fault a, (on endRam).blockText 0xFFEE maxNumber = .error fault ∧
      65536 ≤ a ∧ fault = .invalidAddress a := by
  have hcells : endRam.cellsFrom 0xFFFE 2 = [0x12, 0xAB] := by
    simp [Ram.cellsFrom, List.range_succ, endRam, Ram.read_write]
  obtain ⟨hgranted, -, hreads⟩ := blockText_readsBack endRam 0xFFEE 18
  obtain ⟨text, htext⟩ := hgranted.mpr (by decide)
  obtain ⟨hcount, hlines, hblock⟩ := hreads text htext (by decide)
  refine ⟨⟨text, htext, hcount, fun line hline => ?_, hblock⟩, ?_⟩
  · obtain ⟨hcolumn, hread⟩ := hlines 1 line hline
    refine ⟨hcolumn, ?_⟩
    rw [← hcells]
    exact hread
  · obtain ⟨-, hrefused, -⟩ := blockText_readsBack endRam 0xFFEE maxNumber
    obtain ⟨a, ha⟩ := hrefused (.invalidAddress (maxNumber - 1)) rfl
    exact ⟨_, a, rfl, ha⟩

end Memory

end NesMachine
