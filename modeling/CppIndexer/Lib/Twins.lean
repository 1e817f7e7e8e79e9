/-
# Two checkers of one input

Two computations that can fail are twins up to a dispute when they return the same value or fail with the
same code unless the input is disputed, and never both succeed on a disputed input. Twins compose along a
sequence of checks, and the dispute of the whole is that of any of its parts.
-/

import CppIndexer.Lib.ExceptResults

namespace Except

open Except

variable {ε κ α β : Type} (code : ε → κ)

structure Twins (disputed : Bool) (x y : Except ε α) : Prop where
  agree : disputed = false → x.mapError code = y.mapError code
  settled : ∀ a b, x = .ok a → y = .ok b → disputed = false

namespace Twins

variable {code} {d d' : Bool} {x y : Except ε α}

theorem of_eq (h : x.mapError code = y.mapError code) : Twins code false x y :=
  ⟨fun _ => h, fun _ _ _ _ => rfl⟩

theorem refl (x : Except ε α) : Twins code false x x := of_eq rfl

theorem error {e : ε} : Twins code d (.error e : Except ε α) (.error e) :=
  ⟨fun _ => rfl, nofun⟩

/-- Twins that both succeed return the same. -/
theorem eq_of_ok (h : Twins code d x y) {a b : α} (hx : x = .ok a) (hy : y = .ok b) : a = b := by
  have hagree := h.agree (h.settled a b hx hy)
  rw [hx, hy] at hagree
  exact ok.inj hagree

variable {g f : α → Except ε β}

theorem bind (h : Twins code d x y) (hnext : ∀ a, x = .ok a → y = .ok a → Twins code d' (f a) (g a)) :
    Twins code (d || d') (x >>= f) (y >>= g) := by
  constructor
  · intro hd
    rw [Bool.or_eq_false_iff] at hd
    have hagree := h.agree hd.1
    cases x with
    | error e =>
      cases y with
      | error e' =>
        have hcode : code e = code e' := Except.error.inj hagree
        exact congrArg Except.error hcode
      | ok => cases hagree
    | ok a =>
      cases y with
      | error => cases hagree
      | ok b =>
        obtain rfl : a = b := ok.inj hagree
        exact (hnext a rfl rfl).agree hd.2
  · intro a b ha hb
    obtain ⟨u, hu, ha⟩ := ok_of_bind ha
    obtain ⟨v, hv, hb⟩ := ok_of_bind hb
    obtain rfl := h.eq_of_ok hu hv
    rw [h.settled u u hu hv, (hnext u hu hv).settled a b ha hb]
    rfl

/-- After a check that both make. -/
theorem after (h : ∀ a, x = .ok a → Twins code d (f a) (g a)) : Twins code d (x >>= f) (x >>= g) := by
  have hbind : Twins code (false || d) (x >>= f) (x >>= g) := (refl x).bind fun a ha _ => h a ha
  rwa [Bool.false_or] at hbind

theorem before (h : Twins code d x y) : Twins code d (x >>= f) (y >>= f) := by
  have hbind : Twins code (d || false) (x >>= f) (y >>= f) := h.bind fun a _ _ => refl (f a)
  rwa [Bool.or_false] at hbind

theorem map {f : α → β} (h : Twins code d x y) : Twins code d (x.map f) (y.map f) := by
  constructor
  · intro hd
    have hagree := h.agree hd
    cases x with
    | error =>
      cases y with
      | error => exact congrArg Except.error (Except.error.inj hagree)
      | ok => cases hagree
    | ok a =>
      cases y with
      | error => cases hagree
      | ok => exact congrArg (fun a => ok (f a)) (ok.inj hagree)
  · intro _ _ ha hb
    obtain ⟨u, hu, -⟩ := map_eq_ok.mp ha
    obtain ⟨v, hv, -⟩ := map_eq_ok.mp hb
    exact h.settled u v hu hv

theorem forM {dispute : α → Bool} {p q : α → Except ε Unit} {xs : List α}
    (h : ∀ a ∈ xs, Twins code (dispute a) (p a) (q a)) :
    Twins code (xs.any dispute) (xs.forM p) (xs.forM q) := by
  induction xs with
  | nil => exact refl _
  | cons a _ ih =>
    rw [List.any_cons]
    refine (h a (by simp)).bind fun _ _ _ => ?_
    exact ih fun b hb => h b (by simp [hb])

end Twins

end Except
