import Mathlib.Data.Nat.Digits.Defs

/-!
# `NesMachine/Proofs/Memory/Number.lean` — bytes as a number

A number that is too large for a byte lies in memory as its digits to the base 256, the lowest first.
A word is the shortest such number. How long they are is for the program to decide.
-/

set_option autoImplicit false

namespace NesMachine

/-- The number that bytes stand for, the lowest byte first. -/
def littleEndian (bytes : List UInt8) : Nat := Nat.ofDigits 256 (bytes.map UInt8.toNat)

@[simp] theorem littleEndian_nil : littleEndian [] = 0 := rfl

@[simp] theorem littleEndian_cons (byte : UInt8) (bytes : List UInt8) :
    littleEndian (byte :: bytes) = byte.toNat + 256 * littleEndian bytes := by
  simp [littleEndian, Nat.ofDigits_cons]

theorem littleEndian_concat (bytes : List UInt8) (byte : UInt8) :
    littleEndian (bytes ++ [byte]) = littleEndian bytes + 256 ^ bytes.length * byte.toNat := by
  simp [littleEndian, Nat.ofDigits_append]

theorem littleEndian_lt (bytes : List UInt8) : littleEndian bytes < 256 ^ bytes.length := by
  have hdigits : ∀ digit ∈ bytes.map UInt8.toNat, digit < 256 := by
    intro digit hdigit
    obtain ⟨byte, -, rfl⟩ := List.mem_map.mp hdigit
    exact byte.toNat_lt
  simpa [littleEndian] using Nat.ofDigits_lt_base_pow_length (by decide) hdigits

/-- A number and its complement are one short of what does not fit. -/
theorem littleEndian_complement (bytes : List UInt8) :
    littleEndian (bytes.map (~~~·)) + littleEndian bytes + 1 = 256 ^ bytes.length := by
  induction bytes with
  | nil => rfl
  | cons byte bytes ih =>
    have hlt := byte.toNat_lt
    rw [List.map_cons, littleEndian_cons, littleEndian_cons, UInt8.toNat_not, UInt8.size,
      List.length_cons, Nat.pow_succ]
    omega

end NesMachine
