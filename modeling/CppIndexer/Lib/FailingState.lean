/-
# Computations that fail and keep their state

In `ExceptT ε (StateM σ)` a computation that throws leaves the state as it was
when it threw.  `Leads` says what holds of the state behind a computation however
it ended, and its rules follow the way computations are put together.
-/

import Mathlib.Data.Nat.Notation

namespace FailingState

variable {ε σ α β : Type}

abbrev Computation (ε σ α : Type) := ExceptT ε (StateM σ) α

/-- From a state with `before`, the state behind the computation has `after`,
whether it returned or threw. -/
def Leads (before after : σ → Prop) (x : Computation ε σ α) : Prop :=
  ∀ s, before s → after (x s).2

/-- What the computation leaves true. -/
abbrev Keeps (invariant : σ → Prop) (x : Computation ε σ α) : Prop := Leads invariant invariant x

variable {before middle after : σ → Prop}

theorem Keeps.pure (a : α) : Keeps before (Pure.pure a : Computation ε σ α) := by
  intro _ hs
  exact hs

theorem Keeps.throw (e : ε) : Keeps before (throw e : Computation ε σ α) := by
  intro _ hs
  exact hs

variable {x : Computation ε σ α} {f : α → Computation ε σ β}

theorem Leads.bind (hx : Leads before middle x) (hf : ∀ a, Leads middle after (f a))
    (hthrown : ∀ s, middle s → after s) : Leads before after (x >>= f) := by
  intro s hs
  have hfirst := hx s hs
  change after ((ExceptT.bindCont f (x s).1) (x s).2).2
  cases (x s).1 with
  | ok a => exact hf a _ hfirst
  | error => exact hthrown _ hfirst

theorem Keeps.bind (hx : Keeps before x) (hf : ∀ a, Keeps before (f a)) : Keeps before (x >>= f) :=
  Leads.bind hx hf fun _ h => h

theorem Keeps.get : Keeps before (MonadState.get : Computation ε σ σ) := by
  intro _ hs
  exact hs

theorem Leads.get_bind {f : σ → Computation ε σ β}
    (hf : ∀ s, before s → after (f s s).2) : Leads before after (MonadState.get >>= f) := by
  intro s hs
  exact hf s hs

theorem Leads.modify {f : σ → σ} (h : ∀ s, before s → after (f s)) :
    Leads before after (modify f : Computation ε σ PUnit) := by
  intro s hs
  exact h s hs

end FailingState
