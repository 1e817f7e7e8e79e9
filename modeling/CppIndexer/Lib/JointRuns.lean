/-
# Two readers of one input

A joint run follows two computations that can fail and stops where they part. As long as they stay together
it returns a value of its own that is related to the two results, or says that both fail. A joint run that
has parted says nothing.
-/

import CppIndexer.Lib.ExceptResults

/-- Why a joint run ends without a value. -/
inductive Stop
  | refused
  | parted
  deriving DecidableEq

namespace Stop

variable {ε α β γ δ : Type}

def both [DecidableEq α] (x y : Except ε α) : Except Stop α :=
  match x, y with
  | .ok a, .ok b => if a = b then .ok a else .error .parted
  | .error _, .error _ => .error .refused
  | _, _ => .error .parted

/-- A value that both have. -/
def same [DecidableEq α] (a b : α) : Except Stop α := if a = b then .ok a else .error .parted

/-- A joint run of two computations. -/
structure Meets (R : β → α → α → Prop) (joint : Except Stop β) (x y : Except ε α) : Prop where
  read : ∀ b, joint = .ok b → ∃ a a', x = .ok a ∧ y = .ok a' ∧ R b a a'
  refused : joint = .error .refused → (∃ e, x = .error e) ∧ ∃ e, y = .error e

namespace Meets

variable {R : β → α → α → Prop} {x y : Except ε α}
  {joint : Except Stop β} {f g : α → Except ε γ} {b : β} {k : β → Except Stop δ}
  {S : δ → γ → γ → Prop}

theorem pure {a a' : α} (h : R b a a') : Meets R (.ok b) (.ok a : Except ε α) (.ok a') := by
  constructor
  · intro _ hc
    cases hc
    exact ⟨a, a', rfl, rfl, h⟩
  · exact nofun

theorem refuse {e e' : ε} : Meets R (.error .refused) (.error e : Except ε α) (.error e') := by
  constructor
  · exact nofun
  · exact fun _ => ⟨⟨e, rfl⟩, e', rfl⟩

theorem parted : Meets R (.error .parted) x y := by
  constructor <;> exact nofun

section

variable (h : Meets R joint x y)
include h

/-- What follows may use that the joint run has come this far. -/
theorem bindOf (hnext : ∀ b a a', joint = .ok b → R b a a' → Meets S (k b) (f a) (g a')) :
    Meets S (joint >>= k) (x >>= f) (y >>= g) := by
  cases hjoint : joint with
  | error stop =>
    cases stop with
    | parted => exact parted
    | refused =>
      obtain ⟨⟨_, rfl⟩, _, rfl⟩ := h.refused hjoint
      exact refuse
  | ok b =>
    obtain ⟨a, a', rfl, rfl, hr⟩ := h.read b hjoint
    exact hnext b a a' hjoint hr

theorem bind (hnext : ∀ b a a', R b a a' → Meets S (k b) (f a) (g a')) :
    Meets S (joint >>= k) (x >>= f) (y >>= g) :=
  h.bindOf fun b a a' _ hr => hnext b a a' hr

variable {f g : α → γ}

theorem map {k : β → δ}
    (hnext : ∀ b a a', R b a a' → S (k b) (f a) (g a')) :
    Meets S (joint.map k) (x.map f) (y.map g) := by
  cases hjoint : joint with
  | error stop =>
    cases stop with
    | parted => exact parted
    | refused =>
      obtain ⟨⟨_, rfl⟩, _, rfl⟩ := h.refused hjoint
      exact refuse
  | ok b =>
    obtain ⟨a, a', rfl, rfl, hr⟩ := h.read b hjoint
    exact pure (hnext b a a' hr)

theorem mapResults {S : β → γ → γ → Prop}
    (hnext : ∀ b a a', R b a a' → S b (f a) (g a')) : Meets S joint (x.map f) (y.map g) := by
  have hmap : Meets S (joint.map id) (x.map f) (y.map g) := h.map hnext
  rwa [Except.map_id] at hmap

end

theorem both [DecidableEq α] (x y : Except ε α) : Meets (fun b a a' => a = b ∧ a' = b) (both x y) x y := by
  cases x with
  | error =>
    cases y with
    | error => exact refuse
    | ok => exact parted
  | ok a =>
    cases y with
    | error => exact parted
    | ok a' =>
      by_cases heq : a = a'
      · subst heq
        rw [Stop.both, if_pos rfl]
        exact pure ⟨rfl, rfl⟩
      · rw [Stop.both, if_neg heq]
        exact parted

theorem same [DecidableEq β] {b' : β} {S : δ → α → α → Prop}
    (h : b = b' → Meets S (k b) x y) : Meets S (Stop.same b b' >>= k) x y := by
  by_cases heq : b = b'
  · rw [Stop.same, if_pos heq]
    exact h heq
  · rw [Stop.same, if_neg heq]
    exact parted

end Meets

/-! ## Runs that do not part -/

/-- The computations stay together to the end. -/
def Through (joint : Except Stop β) : Prop := joint ≠ .error .parted

theorem through_ok (b : β) : Through (.ok b : Except Stop β) := nofun

theorem through_refused : Through (.error .refused : Except Stop β) := nofun

variable {joint : Except Stop β} {b a : α}

theorem Through.ofError {stop : Stop} (h : Through joint)
    (hstop : joint = .error stop) : Through (.error stop : Except Stop δ) := by
  cases stop with
  | refused => exact through_refused
  | parted => exact absurd hstop h

theorem Through.bind {k : β → Except Stop δ} (h : Through joint)
    (hnext : ∀ b, joint = .ok b → Through (k b)) : Through (joint >>= k) := by
  cases hjoint : joint with
  | error stop =>
    cases stop with
    | refused => exact through_refused
    | parted => exact absurd hjoint h
  | ok b => exact hnext b hjoint

theorem Through.map {k : β → δ} (h : Through joint) : Through (joint.map k) := by
  cases hjoint : joint with
  | error stop =>
    cases stop with
    | refused => exact through_refused
    | parted => exact absurd hjoint h
  | ok b => exact through_ok (k b)

theorem through_both [DecidableEq α] {x y : Except ε α} (h : y = x) : Through (both x y) := by
  subst h
  cases y with
  | error => exact through_refused
  | ok a =>
    rw [both, if_pos rfl]
    exact through_ok a

theorem same_of_eq [DecidableEq α] (h : b = a) : same a b = .ok a := by
  rw [same, if_pos h.symm]

theorem through_same [DecidableEq α] (h : b = a) : Through (same a b) := by
  rw [same_of_eq h]
  exact through_ok a

theorem eq_of_same [DecidableEq α] {c : α} (h : same a b = .ok c) : c = a := by
  unfold same at h
  split at h
  · exact (Except.ok.inj h).symm
  · cases h

end Stop
