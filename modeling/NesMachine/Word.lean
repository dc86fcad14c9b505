/-!
# `NesMachine/Word.lean` — sixteen-bit words made of two bytes

Addresses and the program counter are words. The machine moves them byte by byte, low byte at the
lower address, so everything that touches a word goes through `word`, `lowByte` and `highByte`.
The high byte of an address is its page.
-/

set_option autoImplicit false

namespace NesMachine

/-- The word with the given low and high byte. -/
def word (low high : UInt8) : UInt16 := high.toUInt16 <<< 8 ||| low.toUInt16

/-- The lower eight bits. -/
def lowByte (w : UInt16) : UInt8 := w.toUInt8

/-- The upper eight bits; of an address, its page. -/
def highByte (w : UInt16) : UInt8 := (w >>> 8).toUInt8

/-- A byte as a signed offset, negative from 128 on. -/
def signedOffset (byte : UInt8) : UInt16 :=
  if byte < 0x80 then byte.toUInt16 else 0xFF00 ||| byte.toUInt16

/-! ## The two views agree -/

theorem toNat_word (low high : UInt8) : (word low high).toNat = low.toNat + 256 * high.toNat := by
  have lowLt := low.toNat_lt
  have highLt := high.toNat_lt
  have shifted : high.toNat <<< 8 % 65536 = 2 ^ 8 * high.toNat := by
    rw [Nat.shiftLeft_eq]; omega
  simp only [word, UInt16.toNat_or, UInt16.toNat_shiftLeft, UInt8.toNat_toUInt16]
  simp [shifted]
  rw [← Nat.two_pow_add_eq_or_of_lt (by omega : low.toNat < 2 ^ 8)]
  omega

theorem toNat_lowByte (w : UInt16) : (lowByte w).toNat = w.toNat % 256 := by
  simp [lowByte]

theorem toNat_highByte (w : UInt16) : (highByte w).toNat = w.toNat / 256 := by
  have := w.toNat_lt
  simp only [highByte, UInt16.toNat_toUInt8, UInt16.toNat_shiftRight]
  simp [Nat.shiftRight_eq_div_pow]
  omega

@[simp] theorem lowByte_word (low high : UInt8) : lowByte (word low high) = low := by
  have := low.toNat_lt
  apply UInt8.toNat_inj.1
  rw [toNat_lowByte, toNat_word]
  omega

@[simp] theorem highByte_word (low high : UInt8) : highByte (word low high) = high := by
  have := low.toNat_lt
  apply UInt8.toNat_inj.1
  rw [toNat_highByte, toNat_word]
  omega

@[simp] theorem word_lowByte_highByte (w : UInt16) : word (lowByte w) (highByte w) = w := by
  apply UInt16.toNat_inj.1
  rw [toNat_word, toNat_lowByte, toNat_highByte]
  omega

end NesMachine
