import NesMachine.Proofs.Text.Columns

/-!
# `NesMachine/Proofs/Text/Lines.lean` — reading a text line by line

A text of several lines is put together with the character that ends a line, and a list of bytes with
spaces. Taking such a text apart at the same character gives the parts back, on the one condition that
no part has the character in it. Digits never do, because what is a digit is neither of the two.

What is read of a part is read by a function that may fail, and a text is read if all its parts are.
-/

set_option autoImplicit false

namespace NesMachine.Text

/-- The lines of a text. An empty text is one empty line. -/
def lines (text : String) : List String := (text.toList.splitOn '\n').map String.ofList

/-- The byte with two digits. -/
def readByte : List Char → Option UInt8
  | [high, low] => UInt8.ofNat <$> readNumeral 16 [high, low]
  | _ => none

/-- Bytes with a space between any two. -/
def readBytes (text : List Char) : Option (List UInt8) := (text.splitOn ' ').mapM readByte

/-! ## Parts with something between them -/

theorem notMem_intercalate {α : Type} {x : α} {between : List α} {parts : List (List α)}
    (hbetween : x ∉ between) (h : ∀ part ∈ parts, x ∉ part) : x ∉ between.intercalate parts := by
  induction parts with
  | nil => exact List.not_mem_nil
  | cons part parts ih =>
    obtain ⟨hpart, hparts⟩ := List.forall_mem_cons.mp h
    cases parts with
    | nil => simpa using hpart
    | cons next parts =>
      rw [List.intercalate_cons_cons, List.append_assoc, List.mem_append, List.mem_append]
      rintro (hx | hx | hx)
      · exact hpart hx
      · exact hbetween hx
      · exact ih hparts hx

/-- Whatever is read back part by part is read back. -/
theorem mapM_map_eq_some {α β : Type} {write : α → β} {read : β → Option α} {parts : List α}
    (h : ∀ part ∈ parts, read (write part) = some part) :
    (parts.map write).mapM read = some parts := by
  induction parts with
  | nil => rfl
  | cons part parts ih =>
    obtain ⟨hpart, hparts⟩ := List.forall_mem_cons.mp h
    rw [List.map_cons, List.mapM_cons, hpart, ih hparts]
    rfl

theorem lines_intercalate {parts : List String} (hne : parts ≠ [])
    (h : ∀ part ∈ parts, '\n' ∉ part.toList) : lines ("\n".intercalate parts) = parts := by
  have hsplit : List.splitOn '\n' (['\n'].intercalate (parts.map String.toList))
      = parts.map String.toList :=
    List.splitOn_intercalate '\n' (List.forall_mem_map.mpr h) (mt List.map_eq_nil_iff.mp hne)
  rw [lines, String.toList_intercalate]
  refine (congrArg _ hsplit).trans ?_
  rw [List.map_map]
  exact List.map_id'' (fun part => String.ofList_toList) parts

/-! ## Bytes -/

theorem toList_hexByte (byte : UInt8) : (hexByte byte).toList = numeral 16 2 byte.toNat := by
  rw [hexByte, hex_of_lt (by decide) byte.toNat_lt, String.toList_ofList]

/-- What is not a digit is not in the text of a byte. -/
theorem notMem_hexByte {c : Char} (h : digitValue? c = none) (byte : UInt8) :
    c ∉ (hexByte byte).toList := by
  intro hc
  rw [toList_hexByte] at hc
  have hdigit := isSome_digitValue?_of_mem (by decide) (by decide) hc
  rw [h] at hdigit
  cases hdigit

theorem readByte_hexByte (byte : UInt8) : readByte (hexByte byte).toList = some byte := by
  have hread : readNumeral 16 (numeral 16 2 byte.toNat) = some (byte.toNat % 256) :=
    readNumeral_numeral 16 2 byte.toNat (by decide) (by decide)
  rw [toList_hexByte]
  refine (congrArg (UInt8.ofNat <$> ·) hread).trans ?_
  rw [Nat.mod_eq_of_lt byte.toNat_lt]
  exact congrArg some UInt8.ofNat_toNat

/-- The characters of some bytes, with a space between any two. -/
theorem toList_intercalate_hexByte (bytes : List UInt8) :
    (" ".intercalate (bytes.map hexByte)).toList
      = [' '].intercalate (bytes.map fun byte => (hexByte byte).toList) := by
  rw [String.toList_intercalate, List.map_map]
  rfl

theorem readBytes_intercalate {bytes : List UInt8} (hne : bytes ≠ []) :
    readBytes (" ".intercalate (bytes.map hexByte)).toList = some bytes := by
  have hsplit : List.splitOn ' ' ([' '].intercalate (bytes.map fun byte => (hexByte byte).toList))
      = bytes.map fun byte => (hexByte byte).toList :=
    List.splitOn_intercalate ' ' (List.forall_mem_map.mpr fun byte _ => notMem_hexByte rfl byte)
      (mt List.map_eq_nil_iff.mp hne)
  rw [readBytes, toList_intercalate_hexByte, hsplit]
  exact mapM_map_eq_some fun byte _ => readByte_hexByte byte

end NesMachine.Text
