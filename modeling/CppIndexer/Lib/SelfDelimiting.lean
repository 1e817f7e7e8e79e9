/-
# Self-delimiting encodings

An encoding whose words end by themselves: from a word and anything behind it,
both can be read back.  A text escaped symbol by symbol and closed by a symbol
no escape starts with is such an encoding, and so is a bracketed list with
separators.
-/

import Mathlib.Data.List.Basic

namespace SelfDelimiting

open List

variable {α β : Type*}

/-- The word of a value ends by itself. -/
def Delimits (encode : α → List β) : Prop :=
  ∀ ⦃a b : α⦄ ⦃x y : List β⦄, encode a ++ x = encode b ++ y → a = b ∧ x = y

variable {encode : α → List β}

theorem Delimits.injective (h : Delimits encode) : Function.Injective encode := by
  intro a b hab
  exact (@h a b [] [] (by simpa using hab)).1

/-- A reader that takes a word off its front shows that words end by
themselves. -/
theorem delimits_of_read (read : List β → Option (α × List β))
    (h : ∀ a x, read (encode a ++ x) = some (a, x)) : Delimits encode := by
  intro a b x y hword
  have hread := h a x
  rw [hword, h b y] at hread
  simp only [Option.some.injEq, Prod.mk.injEq] at hread
  exact ⟨hread.1.symm, hread.2.symm⟩

theorem Delimits.flatMap (h : Delimits encode) {as bs : List α}
    {x y : List β} (hlength : as.length = bs.length)
    (heq : as.flatMap encode ++ x = bs.flatMap encode ++ y) : as = bs ∧ x = y := by
  induction as generalizing bs with
  | nil =>
    cases bs with
    | nil => exact ⟨rfl, heq⟩
    | cons => cases hlength
  | cons _ _ ih =>
    cases bs with
    | nil => cases hlength
    | cons =>
      simp only [flatMap_cons, append_assoc] at heq
      have hword := h heq
      have hrest := ih (Nat.succ.inj hlength) hword.2
      rw [hword.1, hrest.1]
      exact ⟨rfl, hrest.2⟩

/-! ## Escaped texts -/

section

variable {escape : α → List β} {close : β}

/-- A text, escaped symbol by symbol and closed. -/
def closedText (escape : α → List β) (close : β) (text : List α) : List β :=
  text.flatMap escape ++ [close]

theorem delimits_closedText (hescape : Delimits escape)
    (hstart : ∀ a x y, escape a ++ x ≠ close :: y) : Delimits (closedText escape close) := by
  intro a b _ _ h
  simp only [closedText, append_assoc, singleton_append] at h
  induction a generalizing b with
  | nil =>
    cases b with
    | nil => exact ⟨rfl, by simpa using h⟩
    | cons c =>
      rw [flatMap_cons, append_assoc] at h
      exact absurd h.symm (hstart c _ _)
  | cons c _ ih =>
    cases b with
    | nil =>
      rw [flatMap_cons, append_assoc] at h
      exact absurd h (hstart c _ _)
    | cons =>
      rw [flatMap_cons, flatMap_cons, append_assoc, append_assoc] at h
      obtain ⟨rfl, hrest⟩ := hescape h
      obtain ⟨rfl, hxy⟩ := ih hrest
      exact ⟨rfl, hxy⟩

end

/-! ## Lists -/

section

variable {encode : α → List β} {sep close : β}

/-- The elements behind the first, each behind a separator, and the end. -/
def listTail (encode : α → List β) (sep close : β) : List α → List β
  | [] => [close]
  | a :: rest => sep :: encode a ++ listTail encode sep close rest

/-- The elements of a list with separators between them, and the end. -/
def listBody (encode : α → List β) (sep close : β) : List α → List β
  | [] => [close]
  | a :: rest => encode a ++ listTail encode sep close rest

theorem delimits_listTail (hencode : Delimits encode) (hsep : sep ≠ close) :
    Delimits (listTail encode sep close) := by
  intro a b _ _ h
  induction a generalizing b with
  | nil =>
    cases b with
    | nil => exact ⟨rfl, by simpa [listTail] using h⟩
    | cons =>
      simp only [listTail, cons_append, cons.injEq] at h
      exact absurd h.1.symm hsep
  | cons _ _ ih =>
    cases b with
    | nil =>
      simp only [listTail, cons_append, cons.injEq] at h
      exact absurd h.1 hsep
    | cons =>
      simp only [listTail, cons_append, append_assoc, cons.injEq, true_and] at h
      obtain ⟨rfl, hrest⟩ := hencode h
      obtain ⟨rfl, hxy⟩ := ih hrest
      exact ⟨rfl, hxy⟩

theorem delimits_listBody (hencode : Delimits encode) (hsep : sep ≠ close)
    (hstart : ∀ a x y, encode a ++ x ≠ close :: y) : Delimits (listBody encode sep close) := by
  intro a b _ _ h
  cases a with
  | nil =>
    cases b with
    | nil => exact ⟨rfl, by simpa [listBody] using h⟩
    | cons c =>
      simp only [listBody, append_assoc, cons_append, nil_append] at h
      exact absurd h.symm (hstart c _ _)
  | cons c =>
    cases b with
    | nil =>
      simp only [listBody, append_assoc, cons_append, nil_append] at h
      exact absurd h (hstart c _ _)
    | cons =>
      simp only [listBody, append_assoc] at h
      obtain ⟨rfl, hrest⟩ := hencode h
      obtain ⟨rfl, hxy⟩ := delimits_listTail hencode hsep hrest
      exact ⟨rfl, hxy⟩

end

end SelfDelimiting
