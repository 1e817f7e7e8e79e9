/-
# A free handle is found

`stable_fact_hash` takes in one byte after the other: it mixes the byte into the
low bits and multiplies.  Modulo 2⁴⁰ the factor is 435, far more than a digit
can change, so two states that differ in one digit stay at a distance that the
next digits cannot make up for.  Five digits in a row reach the low forty bits
of the hash without loss, and those bits reach the handle.

So the attempts from 100000 on draw a hundred thousand different candidates, and
an index with fewer handles than that finds a free one.
-/

import CppIndexer.Ast.FactIdentity
import Mathlib.Algebra.Order.Ring.Nat
import Mathlib.Data.Nat.Bitwise
import Mathlib.Tactic.Positivity

namespace CppIndexer.Ast

open Util (Bytes ascii)
open Util.Json (decimalNat decimalNat_digit decimalNat_append_digit decimalNat_injective)
open Probing List

/-! ## Six bits against one number -/

variable {ds es key : Bytes} {u v s primary : UInt64} {n i j c d bound x : ℕ}

theorem xor_near (hc : c < 64) : x ≤ (x ^^^ c) + 63 ∧ (x ^^^ c) ≤ x + 63 := by
  have hdiv : (x ^^^ c) / 64 = x / 64 := by
    have h := Nat.xor_div_two_pow (a := x) (b := c) (n := 6)
    rw [Nat.div_eq_of_lt (show c < 2 ^ 6 from hc), Nat.xor_zero] at h
    exact h
  omega

theorem xor_digits_near (hc : c / 16 = d / 16) :
    (x ^^^ c) ≤ (x ^^^ d) + 15 ∧ (x ^^^ d) ≤ (x ^^^ c) + 15 := by
  have hdiv : (x ^^^ c) / 16 = (x ^^^ d) / 16 := by
    have hleft := Nat.xor_div_two_pow (a := x) (b := c) (n := 4)
    have hright := Nat.xor_div_two_pow (a := x) (b := d) (n := 4)
    simp only [Nat.reducePow] at hleft hright
    rw [hleft, hright, hc]
  omega

theorem xor_left_cancel (h : x ^^^ c = x ^^^ d) : c = d := by
  rw [← Nat.xor_xor_cancel_left x c, h, Nat.xor_xor_cancel_left]

/-! ## The distance of two states -/

/-- One byte of `stable_fact_hash`. -/
def hashStep (hash : UInt64) (byte : UInt8) : UInt64 := (hash ^^^ byte.toUInt64) * 1099511628211

theorem stableFactHash_append (x y : Bytes) :
    stableFactHash (x ++ y) = y.foldl hashStep (stableFactHash x) := by
  rw [stableFactHash, foldl_append]
  rfl

/-- The low forty bits of the states differ by a number, not zero, of at most
`bound`. -/
def Apart (bound : ℕ) (u v : UInt64) : Prop :=
  ∃ d : ℤ, ((u.toNat : ℤ) - v.toNat - d) % 1099511627776 = 0 ∧ d ≠ 0 ∧ -bound ≤ d ∧ d ≤ bound

def lowBits (hash : UInt64) : ℕ := hash.toNat % 1099511627776

theorem lowBits_mul (u : UInt64) : lowBits (u * 1099511628211) = u.toNat * 435 % 1099511627776 := by
  have hfactor : (1099511628211 : UInt64).toNat = 1099511628211 := rfl
  rw [lowBits, UInt64.toNat_mul, hfactor]
  omega

theorem apart_of_digits {c d : UInt8} (hc : c.toNat / 16 = 3)
    (hd : d.toNat / 16 = 3) (hne : c ≠ d) :
    Apart 15 (s ^^^ c.toUInt64) (s ^^^ d.toUInt64) := by
  have hnear := xor_digits_near (x := s.toNat) (hc.trans hd.symm)
  have hdiffer : s.toNat ^^^ c.toNat ≠ s.toNat ^^^ d.toNat := by
    intro h
    exact hne (UInt8.toNat_inj.mp (xor_left_cancel h))
  rw [Apart, UInt64.toNat_xor, UInt64.toNat_xor, UInt8.toNat_toUInt64, UInt8.toNat_toUInt64]
  generalize s.toNat ^^^ c.toNat = x at hnear hdiffer ⊢
  generalize s.toNat ^^^ d.toNat = y at hnear hdiffer ⊢
  exact ⟨(x : ℤ) - y, by simp, by omega, by omega, by omega⟩

/-- The next digits change less than the factor has made of the distance. -/
theorem Apart.step (h : Apart bound u v) {c d : UInt8} (hc : c.toNat < 64) (hd : d.toNat < 64) :
    Apart (435 * bound + 126) (u * 1099511628211 ^^^ c.toUInt64)
      (v * 1099511628211 ^^^ d.toUInt64) := by
  obtain ⟨distance, _⟩ := h
  have hu := lowBits_mul u
  have hv := lowBits_mul v
  rw [lowBits] at hu hv
  have hleft := xor_near (x := (u * 1099511628211).toNat) hc
  have hright := xor_near (x := (v * 1099511628211).toNat) hd
  rw [Apart, UInt64.toNat_xor, UInt64.toNat_xor, UInt8.toNat_toUInt64, UInt8.toNat_toUInt64]
  generalize (u * 1099511628211).toNat = x at hu hleft ⊢
  generalize (v * 1099511628211).toNat = y at hv hright ⊢
  generalize x ^^^ c.toNat = x' at hleft ⊢
  generalize y ^^^ d.toNat = y' at hright ⊢
  exact ⟨435 * distance + ((x' : ℤ) - x) - ((y' : ℤ) - y), by omega, by omega, by omega, by omega⟩

theorem Apart.lowBits_ne (h : Apart bound u v) (hbound : bound < 1099511627776) :
    lowBits (u * 1099511628211) ≠ lowBits (v * 1099511628211) := by
  obtain ⟨_, _⟩ := h
  rw [lowBits_mul, lowBits_mul]
  intro _
  have hdvd : (1099511627776 : ℤ) ∣ 435 * ((u.toNat : ℤ) - v.toNat) := by omega
  have hstates : (1099511627776 : ℤ) ∣ (u.toNat : ℤ) - v.toNat :=
    Int.dvd_of_dvd_mul_right_of_gcd_one hdvd (by decide)
  omega

/-- The bound after more digits. -/
def grown (bound : ℕ) : ℕ → ℕ
  | 0 => bound
  | n + 1 => grown (435 * bound + 126) n

theorem Apart.run (h : Apart bound u v) (hbound : grown bound n < 1099511627776) (hds : ds.length = n)
    (hes : es.length = n) (hsmall : ∀ b ∈ ds ++ es, b.toNat < 64) :
    lowBits (ds.foldl hashStep (u * 1099511628211)) ≠
      lowBits (es.foldl hashStep (v * 1099511628211)) := by
  induction n generalizing bound u v ds es with
  | zero =>
    rw [grown] at hbound
    rw [eq_nil_of_length_eq_zero hds, eq_nil_of_length_eq_zero hes, foldl_nil, foldl_nil]
    exact h.lowBits_ne hbound
  | succ _ ih =>
    cases ds with
    | nil => cases hds
    | cons d =>
      cases es with
      | nil => cases hes
      | cons e =>
        have hd := hsmall d (by simp)
        have he := hsmall e (by simp)
        rw [grown] at hbound
        rw [foldl_cons, foldl_cons]
        apply ih (h.step hd he) hbound (Nat.succ.inj hds) (Nat.succ.inj hes)
        intro b hb
        cases mem_append.mp hb with
        | inl hleft => exact hsmall b (by simp [hleft])
        | inr hright => exact hsmall b (by simp [hright])

/-- Five digits reach the low bits of the hash without loss. -/
theorem lowBits_digits_ne (hn : n ≤ 5) (hds : ds.length = n) (hes : es.length = n)
    (hdigits : ∀ b ∈ ds ++ es, 48 ≤ b.toNat ∧ b.toNat ≤ 57) (hne : ds ≠ es) :
    lowBits (ds.foldl hashStep s) ≠ lowBits (es.foldl hashStep s) := by
  induction n generalizing s ds es with
  | zero =>
    rw [eq_nil_of_length_eq_zero hds, eq_nil_of_length_eq_zero hes] at hne
    exact absurd rfl hne
  | succ n ih =>
    cases ds with
    | nil => cases hds
    | cons d ds =>
      cases es with
      | nil => cases hes
      | cons e es =>
        have hd := hdigits d (by simp)
        have he := hdigits e (by simp)
        have hrest : ∀ b ∈ ds ++ es, 48 ≤ b.toNat ∧ b.toNat ≤ 57 := by
          intro b hb
          cases mem_append.mp hb with
          | inl hleft => exact hdigits b (by simp [hleft])
          | inr hright => exact hdigits b (by simp [hright])
        by_cases hhead : d = e
        · rw [hhead] at hne ⊢
          apply ih (by omega) (Nat.succ.inj hds) (Nat.succ.inj hes) hrest
          intro heq
          exact hne (by rw [heq])
        · have hapart := apart_of_digits (s := s) (by omega) (by omega) hhead
          apply hapart.run _ (Nat.succ.inj hds) (Nat.succ.inj hes)
          · intro b hb
            exact Nat.lt_of_le_of_lt (hrest b hb).2 (by decide)
          · have hcases : n = 0 ∨ n = 1 ∨ n = 2 ∨ n = 3 ∨ n = 4 := by omega
            obtain rfl | rfl | rfl | rfl | rfl := hcases <;> decide

/-! ## Candidates -/

theorem or_one_div_two (x : ℕ) : (x ||| 1) / 2 = x / 2 := by
  have h := Nat.or_div_two_pow (a := x) (b := 1) (n := 1)
  simpa using h

/-- The low forty bits of the second hash are in the handle. -/
theorem lowBits_of_mixedHandle (h : mixedHandle primary key i = mixedHandle primary key j) :
    lowBits (stableFactHash (key ++ ascii "#" ++ decimalNat i)) =
      lowBits (stableFactHash (key ++ ascii "#" ++ decimalNat j)) := by
  have hpart : ∀ secondary : UInt64,
      (((primary ^^^ rotl23 secondary) &&& 0x7fffffffffffffff) ||| 1).toNat / 8388608 =
        (primary.toNat / 8388608 % 1099511627776) ^^^ lowBits secondary := by
    intro secondary
    have hmask : (0x7fffffffffffffff : UInt64).toNat = 2 ^ 63 - 1 := rfl
    have hone : (1 : UInt64).toNat = 1 := rfl
    rw [UInt64.toNat_or, UInt64.toNat_and, hmask, hone, Nat.and_two_pow_sub_one_eq_mod]
    have hrot : (rotl23 secondary).toNat / 8388608 % 1099511627776 = lowBits secondary := by
      have hshift : (secondary <<< 23).toNat = secondary.toNat * 8388608 % 18446744073709551616 := by
        rw [UInt64.toNat_shiftLeft, Nat.shiftLeft_eq]
        rfl
      have hback : (secondary >>> 41).toNat = secondary.toNat / 2199023255552 := by
        rw [UInt64.toNat_shiftRight, Nat.shiftRight_eq_div_pow]
        rfl
      have hor := Nat.or_div_two_pow (a := (secondary <<< 23).toNat)
        (b := (secondary >>> 41).toNat) (n := 23)
      have hhigh : (secondary >>> 41).toNat / 2 ^ 23 = 0 := by
        have hlt := UInt64.toNat_lt secondary
        omega
      rw [hhigh, Nat.or_zero] at hor
      simp only [Nat.reducePow] at hor
      rw [rotl23, UInt64.toNat_or, hor, hshift, lowBits]
      omega
    have hxor := Nat.xor_div_two_pow (a := primary.toNat) (b := (rotl23 secondary).toNat) (n := 23)
    have hlow := Nat.xor_mod_two_pow (a := primary.toNat / 2 ^ 23)
      (b := (rotl23 secondary).toNat / 2 ^ 23) (n := 40)
    rw [← hxor] at hlow
    simp only [Nat.reducePow, hrot] at hlow
    rw [← hlow, UInt64.toNat_xor]
    have hodd := or_one_div_two ((primary.toNat ^^^ (rotl23 secondary).toNat) % 2 ^ 63)
    omega
  simp only [mixedHandle, Nat.cast_inj] at h
  have hi := hpart (stableFactHash (key ++ ascii "#" ++ decimalNat i))
  rw [h, hpart] at hi
  exact (xor_left_cancel hi).symm

/-- A number of one more digit starts with a one. -/
theorem exists_digits (k n : ℕ) (hn : n < 10 ^ k) :
    ∃ ds, decimalNat (10 ^ k + n) = 49 :: ds ∧ ds.length = k := by
  induction k generalizing n with
  | zero =>
    have hzero : n = 0 := by omega
    rw [hzero]
    exact ⟨[], by decide, rfl⟩
  | succ k ih =>
    obtain ⟨ds, hds, hlength⟩ := ih (n / 10) (by omega)
    have hsplit : 10 ^ (k + 1) + n = 10 * (10 ^ k + n / 10) + n % 10 := by omega
    rw [hsplit, decimalNat_append_digit (by omega) (Nat.mod_lt n (by decide)), hds]
    exact ⟨ds ++ [UInt8.ofNat (48 + n % 10)], rfl, by simp [hlength]⟩

/-- A hundred thousand attempts draw different candidates. -/
theorem mixedHandle_inj (hi : i < 100000)
    (hj : j < 100000) (h : mixedHandle primary key (100000 + i) = mixedHandle primary key (100000 + j)) :
    i = j := by
  by_contra hne
  obtain ⟨ds, hds, hdslength⟩ := exists_digits 5 i hi
  obtain ⟨es, hes, heslength⟩ := exists_digits 5 j hj
  have hlow := lowBits_of_mixedHandle h
  have hdigits : ∀ b ∈ ds ++ es, 48 ≤ b.toNat ∧ b.toNat ≤ 57 := by
    intro _ hb
    cases mem_append.mp hb with
    | inl hleft => exact decimalNat_digit (n := 10 ^ 5 + i) (by rw [hds]; simp [hleft])
    | inr hright => exact decimalNat_digit (n := 10 ^ 5 + j) (by rw [hes]; simp [hright])
  have hlists : ds ≠ es := by
    intro heq
    have hsame : decimalNat (10 ^ 5 + i) = decimalNat (10 ^ 5 + j) := by rw [hds, hes, heq]
    have hnumbers := decimalNat_injective hsame
    omega
  have hne := lowBits_digits_ne (s := stableFactHash (key ++ ascii "#" ++ [49])) (by decide)
    hdslength heslength hdigits hlists
  rw [← stableFactHash_append, ← stableFactHash_append, append_assoc, append_assoc,
    append_assoc, append_assoc, singleton_append, singleton_append, ← hds,
    ← hes, ← append_assoc, ← append_assoc] at hne
  exact hne hlow

/-- An index with few handles has one for every key. -/
theorem CollisionSafeHandleIndex.findOrInsert_ne_none {index : CollisionSafeHandleIndex}
    (hfew : index.keysByHandle.entries.length < 100000) (key : Bytes) :
    index.findOrInsert key ≠ none := by
  unfold findOrInsert
  split
  · simp
  · rename_i hkey
    have hfound : firstFree (index.takenByOther key) (index.candidateFor key) attempts 0 ≠ none := by
      apply firstFree_ne_none (fun i => 100000 + i) (index.keysByHandle.entries.map Prod.fst)
        (n := 100000)
      · intro handle htaken
        unfold takenByOther at htaken
        split at htaken
        · rename_i other hother
          rw [AssocMap.find?_eq_some_iff] at hother
          exact mem_map.mpr ⟨_, hother, rfl⟩
        · cases htaken
      · intro _ _
        rw [attempts]
        omega
      · intro _ hi _ hj heq
        exact mixedHandle_inj hi hj heq
      · rw [length_map]
        exact hfew
    split
    · rename_i hnone
      exact absurd hnone hfound
    · simp

end CppIndexer.Ast
