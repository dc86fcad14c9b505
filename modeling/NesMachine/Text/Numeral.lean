/-!
# `NesMachine/Text/Numeral.lean` — numbers as digits

Every text of this library that shows a number in hexadecimal or binary goes through `numeral`,
which writes a number with a given count of digits, or through `hex`, which writes at least a given
count and as many more as the number needs. Digits above nine are upper-case letters.

`numeral` recurses on the count of digits and takes the last digit off the number each time, so a
fact about a printed number is one induction. `readNumeral` is its inverse, and
`readNumeral_numeral` says so for every number that fits the count.
-/

set_option autoImplicit false

namespace NesMachine.Text

/-- The character of a digit below sixteen. -/
def digitChar (digit : Nat) : Char :=
  if digit < 10 then Char.ofNat (48 + digit) else Char.ofNat (55 + digit)

/-- The last `width` digits of `n` in base `base`, most significant first. -/
def numeral (base : Nat) : Nat → Nat → List Char
  | 0, _ => []
  | width + 1, n => numeral base width (n / base) ++ [digitChar (n % base)]

/-- The count of hexadecimal digits of `n`; zero has one. -/
def hexWidth (n : Nat) : Nat := Nat.log2 n / 4 + 1

/-- `n` in hexadecimal with at least `width` digits, padded with zeros on the left. -/
def hex (width n : Nat) : String :=
  String.ofList (numeral 16 (max width (hexWidth n)) n)

/-- A byte as two hexadecimal digits. -/
def hexByte (byte : UInt8) : String := hex 2 byte.toNat

/-- A word as four hexadecimal digits. -/
def hexWord (word : UInt16) : String := hex 4 word.toNat

/-- A byte as eight binary digits. -/
def binaryByte (byte : UInt8) : String := String.ofList (numeral 2 8 byte.toNat)

/-- A truth value as the digit one or zero. -/
def bit (value : Bool) : String := if value then "1" else "0"

/-! ## Reading digits back -/

/-- The digit that a character stands for, if it is an upper-case hexadecimal one. -/
def digitValue? (c : Char) : Option Nat :=
  if 48 ≤ c.toNat ∧ c.toNat ≤ 57 then some (c.toNat - 48)
  else if 65 ≤ c.toNat ∧ c.toNat ≤ 70 then some (c.toNat - 55)
  else none

/-- The number that a run of digits denotes, most significant digit first; `none` if a character is
no digit of the base. -/
def readNumeral (base : Nat) (digits : List Char) : Option Nat :=
  digits.foldl (fun total c => do
    let high ← total
    let low ← digitValue? c
    if low < base then some (high * base + low) else none) (some 0)

theorem digitValue?_digitChar : ∀ digit < 16, digitValue? (digitChar digit) = some digit := by
  decide

@[simp] theorem length_numeral (base width n : Nat) : (numeral base width n).length = width := by
  induction width generalizing n with
  | zero => rfl
  | succ width ih => simp [numeral, ih]

theorem readNumeral_append (base : Nat) (digits : List Char) (c : Char) :
    readNumeral base (digits ++ [c]) = (do
      let high ← readNumeral base digits
      let low ← digitValue? c
      if low < base then some (high * base + low) else none) := by
  simp [readNumeral, List.foldl_append]

/-- Printing keeps the number modulo the count of numbers that the digits can tell apart. -/
theorem readNumeral_numeral (base width n : Nat) (low : 0 < base) (high : base ≤ 16) :
    readNumeral base (numeral base width n) = some (n % Nat.pow base width) := by
  induction width generalizing n with
  | zero => simp [numeral, readNumeral, Nat.mod_one]
  | succ width ih =>
    have digit : n % base < base := Nat.mod_lt n low
    have split : n % Nat.pow base (width + 1)
        = n / base % Nat.pow base width * base + n % base := by
      rw [Nat.pow_eq, Nat.pow_eq, Nat.pow_succ, Nat.mul_comm (base ^ width), Nat.mod_mul]
      rw [Nat.mul_comm base, Nat.add_comm]
    rw [split]
    simp [numeral, readNumeral_append, ih, digitValue?_digitChar _ (Nat.lt_of_lt_of_le digit high),
      digit]

end NesMachine.Text
