import NesMachine.Text.Column
import NesMachine.Text.Numeral

/-!
# `NesMachine/Proofs/Text/Columns.lean` — reading a line by its columns

A line is put together from its parts, and read by where the parts stand. `column` and `columnsFrom`
are the reader's side, and what comes before a part only matters by its length; so this file is about
lengths. Two digits are enough for a byte and four for a word, and a part that is not too wide takes
its width exactly.
-/

set_option autoImplicit false

namespace NesMachine.Text

/-- The `width` characters of a line from column `start` on. -/
def column (start width : Nat) (line : String) : String :=
  String.ofList ((line.toList.drop start).take width)

/-- What a line has from column `start` on. -/
def columnsFrom (start : Nat) (line : String) : String := String.ofList (line.toList.drop start)

section

variable {start width : Nat} {before part after : String}

theorem columnsFrom_append (h : before.length = start) :
    columnsFrom start (before ++ after) = after := by
  rw [← String.length_toList] at h
  rw [columnsFrom, String.toList_append, List.drop_left' h, String.ofList_toList]

/-- What comes after the columns does not matter. -/
theorem column_of_le (h : start + width ≤ part.length) :
    column start width (part ++ after) = column start width part := by
  rw [← String.length_toList] at h
  rw [column, column, String.toList_append, List.drop_append_of_le_length (by omega),
    List.take_append_of_le_length (by rw [List.length_drop]; omega)]

theorem column_append (h : before.length = start) (hpart : part.length = width) :
    column start width (before ++ part) = part := by
  rw [← String.length_toList] at h hpart
  rw [column, String.toList_append, List.drop_left' h, ← hpart, List.take_length,
    String.ofList_toList]

theorem column_zero (h : part.length = width) : column 0 width (part ++ after) = part := by
  rw [column_of_le (by omega), ← String.empty_append (s := part)]
  exact column_append rfl h

theorem length_padRight_of_le (h : part.length ≤ width) : (padRight width part).length = width := by
  rw [length_padRight, Nat.max_eq_left h]

/-- What a text begins with can be read off it when it is padded. -/
theorem column_padRight (h : before.length = start) :
    column 0 start (padRight width (before ++ after)) = before := by
  rw [padRight, String.append_assoc, column_zero h]

end

/-! ## Digits -/

/-- A numeral is made of digits, whatever the base. -/
theorem isSome_digitValue?_of_mem {base width n : Nat} {c : Char} (hlow : 0 < base)
    (hhigh : base ≤ 16) (h : c ∈ numeral base width n) : (digitValue? c).isSome := by
  induction width generalizing n with
  | zero => cases h
  | succ width ih =>
    rcases List.mem_append.mp h with hc | hc
    · exact ih hc
    · rw [List.mem_singleton.mp hc,
        digitValue?_digitChar _ (Nat.lt_of_lt_of_le (Nat.mod_lt n hlow) hhigh)]
      rfl

/-- A number that fits the least count of digits has just that count. -/
theorem hex_of_lt {width n : Nat} (hwidth : 0 < width) (h : n < Nat.pow 16 width) :
    hex width n = String.ofList (numeral 16 width n) := by
  have hdigits : hexWidth n ≤ width := by
    by_cases hn : n = 0
    · rw [hn]
      exact hwidth
    · have hbits : n < 2 ^ (4 * width) := by
        rw [Nat.pow_mul]
        exact h
      have hlog := (Nat.log2_lt hn).mpr hbits
      rw [hexWidth]
      omega
  rw [hex, Nat.max_eq_left hdigits]

theorem length_hex_of_lt {width n : Nat} (hwidth : 0 < width) (h : n < Nat.pow 16 width) :
    (hex width n).length = width := by
  rw [hex_of_lt hwidth h, String.length_ofList, length_numeral]

@[simp] theorem length_hexByte (byte : UInt8) : (hexByte byte).length = 2 :=
  length_hex_of_lt (by decide) byte.toNat_lt

@[simp] theorem length_hexWord (w : UInt16) : (hexWord w).length = 4 :=
  length_hex_of_lt (by decide) w.toNat_lt

theorem length_hexBytes (bytes : List UInt8) :
    (" ".intercalate (bytes.map hexByte)).length = 3 * bytes.length - 1 := by
  induction bytes with
  | nil => rfl
  | cons byte bytes ih =>
    cases bytes with
    | nil => exact length_hexByte byte
    | cons next bytes =>
      have hspace : " ".length = 1 := rfl
      rw [List.map_cons] at ih
      rw [List.map_cons, List.map_cons, String.intercalate_cons_cons, String.length_append,
        String.length_append, length_hexByte, ih, hspace]
      simp only [List.length_cons]
      omega

end NesMachine.Text
