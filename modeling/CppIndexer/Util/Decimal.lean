/-
# Decimal numbers

What is read off a number the source writes with `std::to_string`: its digits
are digits, they have its value, and a number that is followed by no digit ends
by itself.
-/

import CppIndexer.Util.Json

namespace CppIndexer.Util.Json

open List

theorem toNat_digit {d : ℕ} (hd : d < 10) : (UInt8.ofNat (48 + d)).toNat = 48 + d := by
  rw [UInt8.toNat_ofNat']
  exact Nat.mod_eq_of_lt (by omega)

theorem decimalNat_digit {n : ℕ} {c : UInt8} (h : c ∈ decimalNat n) :
    48 ≤ c.toNat ∧ c.toNat ≤ 57 := by
  unfold decimalNat at h
  split at h
  · have hzero : c = 48 := by simpa using h
    rw [hzero]
    decide
  · obtain ⟨digit, hdigit, rfl⟩ := mem_map.mp h
    have hlt : digit < 10 := Nat.digits_lt_base (by decide) (mem_reverse.mp hdigit)
    rw [toNat_digit hlt]
    omega

theorem decimalNat_ne_nil (n : ℕ) : decimalNat n ≠ [] := by
  unfold decimalNat
  split
  · simp
  · rename_i hn
    simpa using Nat.digits_ne_nil_iff_ne_zero.mpr hn

/-- The digits of a number have its value. -/
theorem ofDigits_decimalNat (n : ℕ) :
    Nat.ofDigits 10 ((decimalNat n).reverse.map fun c => c.toNat - 48) = n := by
  unfold decimalNat
  split
  · rename_i hn
    rw [hn]
    rfl
  · have hback : ((Nat.digits 10 n).map fun d => UInt8.ofNat (48 + d)).map (fun c => c.toNat - 48) =
        Nat.digits 10 n := by
      rw [map_map]
      conv_rhs => rw [← map_id (Nat.digits 10 n)]
      apply map_congr_left
      intro digit hdigit
      have hlt : digit < 10 := Nat.digits_lt_base (by decide) hdigit
      show (UInt8.ofNat (48 + digit)).toNat - 48 = digit
      rw [toNat_digit hlt]
      omega
    rw [← map_reverse, reverse_reverse, hback, Nat.ofDigits_digits]

theorem decimalNat_injective : Function.Injective decimalNat := by
  intro m _ h
  rw [← ofDigits_decimalNat m, h, ofDigits_decimalNat]

theorem decimal_injective : Function.Injective decimal := by
  have hsign : ∀ m n : ℕ, decimalNat m ≠ 45 :: decimalNat n := by
    intro m n h
    have hdigit := decimalNat_digit (n := m) (c := 45) (by rw [h]; exact mem_cons_self)
    exact absurd hdigit.1 (by decide)
  intro _ _ h
  unfold decimal at h
  split_ifs at h with hi hj hj
  · have habs := decimalNat_injective (cons.inj h).2
    omega
  · exact absurd h.symm (hsign _ _)
  · exact absurd h (hsign _ _)
  · have habs := decimalNat_injective h
    omega

theorem decimalNat_append_digit {n d : ℕ} (hn : n ≠ 0) (hd : d < 10) :
    decimalNat (10 * n + d) = decimalNat n ++ [UInt8.ofNat (48 + d)] := by
  have hpos : 10 * n + d ≠ 0 := by omega
  have hdigits : Nat.digits 10 (10 * n + d) = d :: Nat.digits 10 n := by
    rw [Nat.add_comm]
    exact Nat.digits_add 10 (by decide) d n hd (.inr hn)
  rw [decimalNat, if_neg hpos, hdigits, reverse_cons, map_append, decimalNat, if_neg hn]
  rfl

/-! ## Numbers in front of other bytes -/

def isDecimalByte (c : UInt8) : Bool := c = 45 ∨ 48 ≤ c.toNat ∧ c.toNat ≤ 57

variable {i j : ℤ} {x y : Bytes} {c : UInt8}

theorem isDecimalByte_decimal (h : c ∈ decimal i) : isDecimalByte c = true := by
  have hnat : c = 45 ∨ c ∈ decimalNat i.natAbs := by
    unfold decimal at h
    split at h
    · exact mem_cons.mp h
    · exact .inr h
  cases hnat with
  | inl hminus => simp [isDecimalByte, hminus]
  | inr hdigit => simp [isDecimalByte, decimalNat_digit hdigit]

theorem decimal_cons (i : ℤ) : ∃ b text, decimal i = b :: text ∧ isDecimalByte b = true := by
  cases h : decimal i with
  | nil =>
    unfold decimal at h
    split at h
    · cases h
    · exact absurd h (decimalNat_ne_nil _)
  | cons b text => exact ⟨b, text, rfl, isDecimalByte_decimal (by rw [h]; exact mem_cons_self)⟩

/-- A number is what stands in front of the first byte of no number. -/
theorem takeWhile_decimal (i : ℤ) (hx : ∀ c ∈ x.head?, isDecimalByte c = false) :
    (decimal i ++ x).takeWhile isDecimalByte = decimal i := by
  rw [takeWhile_append_of_pos fun c hc => isDecimalByte_decimal hc]
  cases x with
  | nil => simp
  | cons c => simp [hx c rfl]

/-- A number that ends is read back. -/
theorem eq_of_decimal_append (hx : ∀ c ∈ x.head?, isDecimalByte c = false)
    (hy : ∀ c ∈ y.head?, isDecimalByte c = false) (h : decimal i ++ x = decimal j ++ y) :
    i = j ∧ x = y := by
  have hword : decimal i = decimal j := by
    rw [← takeWhile_decimal i hx, h, takeWhile_decimal j hy]
  rw [hword] at h
  exact ⟨decimal_injective hword, append_cancel_left h⟩

/-- So is one in front of a text that is known. -/
theorem eq_of_decimal_append_text {text : Bytes} (htext : text.head?.any (!isDecimalByte ·) = true)
    (h : decimal i ++ (text ++ x) = decimal j ++ (text ++ y)) : i = j ∧ x = y := by
  have hhead : ∀ z : Bytes, ∀ d ∈ (text ++ z).head?, isDecimalByte d = false := by
    cases text with
    | nil => cases htext
    | cons => simpa using htext
  obtain ⟨hij, hxy⟩ := eq_of_decimal_append (hhead x) (hhead y) h
  exact ⟨hij, append_cancel_left hxy⟩

theorem eq_of_decimalNat_append {m n : ℕ} (hc : isDecimalByte c = false)
    (h : decimalNat m ++ c :: x = decimalNat n ++ c :: y) : m = n ∧ x = y := by
  have hdecimal : ∀ k : ℕ, decimalNat k = decimal k := fun k => by simp [decimal]
  rw [hdecimal, hdecimal] at h
  obtain ⟨hmn, hxy⟩ := @eq_of_decimal_append_text _ _ x y [c] (by simp [hc]) h
  exact ⟨Int.ofNat_inj.mp hmn, hxy⟩

end CppIndexer.Util.Json
