/-
# Numbers as bytes

A number written least significant byte first in a fixed width, and read back
from the front of a byte string.
-/

import Mathlib.Algebra.Order.Ring.Nat

namespace LittleEndian

/-- The lowest `width` bytes of a number. -/
def word : ℕ → ℕ → List UInt8
  | 0, _ => []
  | width + 1, n => UInt8.ofNat n :: word width (n / 256)

/-- The number in front, and what is behind it. -/
def takeWord : ℕ → List UInt8 → Option (ℕ × List UInt8)
  | 0, rest => some (0, rest)
  | _ + 1, [] => none
  | width + 1, b :: rest =>
    (takeWord width rest).map fun result => (b.toNat + 256 * result.1, result.2)

/-- The number that bytes are. -/
def value : List UInt8 → ℕ
  | [] => 0
  | b :: rest => b.toNat + 256 * value rest

theorem value_word (width n : ℕ) : value (word width n) = n % 256 ^ width := by
  induction width generalizing n with
  | zero => simp [word, value, Nat.mod_one]
  | succ width ih =>
    have hsplit : n % 256 ^ (width + 1) = n % 256 + 256 * (n / 256 % 256 ^ width) := by
      rw [Nat.pow_succ, Nat.mul_comm]
      exact Nat.mod_mul
    have hbyte : (UInt8.ofNat n).toNat = n % 256 := UInt8.toNat_ofNat'
    rw [word, value, ih, hbyte, hsplit]

@[simp]
theorem length_word (width n : ℕ) : (word width n).length = width := by
  induction width generalizing n with
  | zero => rfl
  | succ _ ih => rw [word, List.length_cons, ih]

theorem takeWord_word (width n : ℕ) (rest : List UInt8) :
    takeWord width (word width n ++ rest) = some (n % 256 ^ width, rest) := by
  induction width generalizing n with
  | zero => simp [word, takeWord, Nat.mod_one]
  | succ width ih =>
    have hsplit : n % 256 ^ (width + 1) = n % 256 + 256 * (n / 256 % 256 ^ width) := by
      rw [Nat.pow_succ, Nat.mul_comm]
      exact Nat.mod_mul
    have hbyte : (UInt8.ofNat n).toNat = n % 256 := UInt8.toNat_ofNat'
    simp [word, takeWord, ih, Option.map_some, hbyte, hsplit]

theorem takeWord_word_of_lt {width n : ℕ} (h : n < 256 ^ width) (rest : List UInt8) :
    takeWord width (word width n ++ rest) = some (n, rest) := by
  rw [takeWord_word, Nat.mod_eq_of_lt h]

end LittleEndian
